import GameRewards.PayoutConditions

/-!
# When an action succeeds

`Accepts` says what each action asks for. After every run an action succeeds
exactly if it is accepted. So what the configuration lacks for a payout can
always be set, a payout that is due can be made until it is, a batch can be
taken back by clearing it, and without the authority of the contract nothing
happens.
-/

namespace GameRewards

open MultiIndex (Table Handle)

-- ---------------------------------------------------------------------------
-- The configuration
-- ---------------------------------------------------------------------------

theorem forM_check_ok {names : List Name} {p : Name → Prop} [DecidablePred p] {message : String} :
    (names.forM fun n => check (p n) message) = .ok u ↔ ∀ n ∈ names, p n := by
  induction names with
  | nil => exact iff_of_true rfl (fun _ h => nomatch h)
  | cons n names ih =>
    rw [List.forM_eq_forM, List.forM_cons, bind_ok, List.forall_mem_cons, ← ih]
    constructor
    · rintro ⟨_, hn, hrest⟩
      exact ⟨check_ok.mp hn, hrest⟩
    · rintro ⟨hn, hrest⟩
      exact ⟨(), check_ok.mpr hn, hrest⟩

theorem validateStats_ok : validateStats names = .ok u ↔ names.Nodup := by
  induction names with
  | nil => exact iff_of_true rfl .nil
  | cons name names ih =>
    rw [validateStats, bind_ok, List.nodup_cons]
    simp only [forM_check_ok, exists_and_left, exists_const, ih, ne_eq, List.forall_mem_ne]

theorem initcontract_iff (s : State) :
    (∃ s', initcontract env ctx s args = .ok s') ↔
      ctx.hasAuth env.self = true ∧ args.Accepted ctx.now := by
  simp only [initcontract, bind_ok, requireAuth_ok, check_ok, pure_ok]
  constructor
  · rintro ⟨_, _, hauth, _, h1, _, h2, _, h3, _, h4, _, h5, _, h6, _, h7, _, h8, -⟩
    exact ⟨hauth, h1, h2, h3, h4, h5, h6, h7, h8⟩
  · rintro ⟨hauth, h1, h2, h3, h4, h5, h6, h7, h8⟩
    exact ⟨_, (), hauth, (), h1, (), h2, (), h3, (), h4, (), h5, (), h6, (), h7, (), h8, rfl⟩

theorem setgame_iff (s : State) : (∃ s', setgame env ctx s args = .ok s') ↔
    ctx.hasAuth env.self = true ∧ args.statsNames.Nodup := by
  simp only [setgame, bind_ok, requireAuth_ok, validateStats_ok]
  constructor
  · rintro ⟨_, _, hauth, _, hnames, -⟩
    exact ⟨hauth, hnames⟩
  · rintro ⟨hauth, hnames⟩
    cases hfind : s.gameconfig.find args.gameId.toUInt64 with
    | none =>
      let row : GameConfig := ⟨args.gameId, args.displayName, args.metadata, true, args.statsNames⟩
      have hfree : s.gameconfig.find row.primaryKey = none := hfind
      obtain ⟨games, hstored⟩ := Table.emplace_of_find hfree
      simp only [bind_ok, need_ok, pure_ok]
      exact ⟨_, (), hauth, (), hnames, games, hstored, rfl⟩
    | some row => exact ⟨_, (), hauth, (), hnames, rfl⟩

theorem removegame_iff (s : State) : (∃ s', removegame env ctx s gameId = .ok s') ↔
    ctx.hasAuth env.self = true ∧ (s.gameconfig.find gameId.toUInt64).isSome = true := by
  simp only [removegame, bind_ok, requireAuth_ok, need_ok, pure_ok, Option.isSome_iff_exists]
  constructor
  · rintro ⟨_, _, hauth, game, hgame, -⟩
    exact ⟨hauth, game, hgame⟩
  · rintro ⟨hauth, game, hgame⟩
    exact ⟨_, (), hauth, game, hgame, rfl⟩

theorem settoken_iff (s : State) : (∃ s', settoken env ctx s args = .ok s') ↔
    ctx.hasAuth env.self = true := by
  simp only [settoken, bind_ok, requireAuth_ok]
  constructor
  · rintro ⟨_, _, hauth, -⟩
    exact hauth
  · intro hauth
    cases hfind : s.tokenconfig.find args.tokenSymbol.raw with
    | none =>
      let row : TokenConfig := ⟨args.tokenContract, args.tokenSymbol, args.enabled⟩
      have hfree : s.tokenconfig.find row.primaryKey = none := hfind
      obtain ⟨tokens, hstored⟩ := Table.emplace_of_find hfree
      simp only [bind_ok, need_ok, pure_ok]
      exact ⟨_, (), hauth, tokens, hstored, rfl⟩
    | some row => exact ⟨_, (), hauth, rfl⟩

theorem removetoken_iff (s : State) : (∃ s', removetoken env ctx s symbol = .ok s') ↔
    ctx.hasAuth env.self = true ∧ (s.tokenconfig.find symbol.raw).isSome = true := by
  simp only [removetoken, bind_ok, requireAuth_ok, need_ok, pure_ok, Option.isSome_iff_exists]
  constructor
  · rintro ⟨_, _, hauth, token, htoken, -⟩
    exact ⟨hauth, token, htoken⟩
  · rintro ⟨hauth, token, htoken⟩
    exact ⟨_, (), hauth, token, htoken, rfl⟩

structure DistAccepted (ctx : Context) (s : State) (args : SetDistConfArgs) : Prop where
  game : (s.gameconfig.find args.gameId.toUInt64).isSome = true
  account : ctx.isAccount args.destinationContract = true
  memo : args.memoTemplate ≠ []

theorem setdistconf_iff (s : State) : (∃ s', setdistconf env ctx s args = .ok s') ↔
    ctx.hasAuth env.self = true ∧ DistAccepted ctx s args := by
  simp only [setdistconf, bind_ok, requireAuth_ok, need_ok, check_ok]
  constructor
  · rintro ⟨_, _, hauth, game, hgame, _, haccount, _, hmemo, -⟩
    exact ⟨hauth, Option.isSome_of_eq_some hgame, haccount, hmemo⟩
  · rintro ⟨hauth, hgame, haccount, hmemo⟩
    obtain ⟨game, hgame⟩ := Option.isSome_iff_exists.mp hgame
    cases hfind : s.rewarddist.find args.gameId.toUInt64 with
    | none =>
      let row : RewardDistConfig :=
        ⟨args.gameId, args.destinationContract, args.memoTemplate, args.useDirectTransfer⟩
      have hfree : s.rewarddist.find row.primaryKey = none := hfind
      obtain ⟨dists, hstored⟩ := Table.emplace_of_find hfree
      simp only [bind_ok, need_ok, pure_ok]
      exact ⟨_, (), hauth, game, hgame, (), haccount, (), hmemo, dists, hstored, rfl⟩
    | some row => exact ⟨_, (), hauth, game, hgame, (), haccount, (), hmemo, rfl⟩

theorem rmdistconf_iff (s : State) : (∃ s', rmdistconf env ctx s gameId = .ok s') ↔
    ctx.hasAuth env.self = true ∧ (s.gameconfig.find gameId.toUInt64).isSome = true ∧
      (s.rewarddist.find gameId.toUInt64).isSome = true := by
  simp only [rmdistconf, bind_ok, requireAuth_ok, need_ok, pure_ok, Option.isSome_iff_exists]
  constructor
  · rintro ⟨_, _, hauth, game, hgame, dist, hdist, -⟩
    exact ⟨hauth, ⟨game, hgame⟩, dist, hdist⟩
  · rintro ⟨hauth, ⟨game, hgame⟩, dist, hdist⟩
    exact ⟨_, (), hauth, game, hgame, dist, hdist, rfl⟩

-- ---------------------------------------------------------------------------
-- The records
-- ---------------------------------------------------------------------------

theorem foldl_clearOne_pos (ids : List UInt64) (acc : Table GameRecords.primaryKey × UInt64)
    (hcount : acc.2.toNat + ids.length < UInt64.size) :
    0 < (ids.foldl clearOne acc).2 ↔
      0 < acc.2 ∨ ∃ id ∈ ids, (acc.1.find id).isSome = true := by
  induction ids generalizing acc with
  | nil => simp
  | cons id ids ih =>
    rw [List.length_cons] at hcount
    rw [List.foldl_cons]
    cases hfind : acc.1.find id with
    | none =>
      have hskip : clearOne acc id = acc := by rw [clearOne, hfind]
      rw [hskip, ih acc (by omega)]
      simp [hfind]
    | some row =>
      have herase : clearOne acc id = (acc.1.erase row.primaryKey, acc.2 + 1) := by
        rw [clearOne, hfind]
      have hnext : (acc.2 + 1).toNat = acc.2.toNat + 1 := by
        rw [UInt64.toNat_add, UInt64.toNat_one, Nat.mod_eq_of_lt]
        simp only [UInt64.size] at hcount
        omega
      rw [herase, ih _ (by rw [hnext]; omega)]
      have hpos : 0 < acc.2 + 1 := by
        rw [UInt64.lt_iff_toNat_lt, hnext]
        exact Nat.succ_pos _
      exact iff_of_true (.inl hpos) (.inr ⟨id, List.mem_cons_self, by rw [hfind]; rfl⟩)

structure IdsAccepted (s : State) (ids : List UInt64) : Prop where
  size : ids.length ≤ 1000
  stored : ∃ id ∈ ids, (s.gamerecords.find id).isSome = true

theorem clearrecord_iff (s : State) : (∃ s', clearrecord env ctx s ids = .ok s') ↔
    ctx.hasAuth env.self = true ∧ IdsAccepted s ids := by
  have hcount : ids.length ≤ 1000 → (0 < (ids.foldl clearOne (s.gamerecords, 0)).2 ↔
      ∃ id ∈ ids, (s.gamerecords.find id).isSome = true) := by
    intro hsize
    rw [foldl_clearOne_pos ids _ (by simp only [UInt64.size, UInt64.toNat_zero]; omega)]
    exact or_iff_right (lt_irrefl _)
  simp only [clearrecord, bind_ok, requireAuth_ok, check_ok, pure_ok]
  constructor
  · rintro ⟨_, _, hauth, _, -, _, hsize, _, hpos, -⟩
    exact ⟨hauth, hsize, (hcount hsize).mp hpos⟩
  · rintro ⟨hauth, hsize, hstored⟩
    have hne : ids ≠ [] := hstored.elim fun _ h => List.ne_nil_of_mem h.1
    exact ⟨_, (), hauth, (), hne, (), hsize, (), (hcount hsize).mpr hstored, rfl⟩

theorem recordgame_iff (hinv : Invariant s) : (∃ s', recordgame env ctx s batch = .ok s') ↔
    ∃ g, s.globalconfig = some g ∧ BatchAccepted env ctx s g batch := by
  constructor
  · rintro ⟨s', h⟩
    obtain ⟨g, hg⟩ := recordgame_initialized h
    exact ⟨g, hg, (recordgame_added (.start hinv hg) h).1⟩
  · rintro ⟨g, hg, h⟩
    exact recordgame_exists (.start hinv hg) h

-- ---------------------------------------------------------------------------
-- Every action
-- ---------------------------------------------------------------------------

def Accepts (env : Env) (s : State) (a : Action) : Prop :=
  a.ctx.hasAuth env.self = true ∧ match a.call with
    | .initcontract args => args.Accepted a.ctx.now
    | .setgame args => args.statsNames.Nodup
    | .removegame gameId => (s.gameconfig.find gameId.toUInt64).isSome = true
    | .recordgame records =>
      ∃ g, s.globalconfig = some g ∧ BatchAccepted env a.ctx s g records
    | .clearrecord recordIds => IdsAccepted s recordIds
    | .setdistconf args => DistAccepted a.ctx s args
    | .rmdistconf gameId => (s.gameconfig.find gameId.toUInt64).isSome = true ∧
      (s.rewarddist.find gameId.toUInt64).isSome = true
    | .distribute args => (∃ global, Due env a.ctx s args global) ∧ Configured s args
    | .settoken _ => True
    | .removetoken tokenSymbol => (s.tokenconfig.find tokenSymbol.raw).isSome = true

theorem silent_exists {x : Result State} :
    (∃ r, (·, ([] : List Transfer)) <$> x = .ok r) ↔ ∃ s', x = .ok s' := by
  constructor
  · rintro ⟨⟨s', out⟩, h⟩
    exact ⟨s', (silent_ok.mp h).1⟩
  · rintro ⟨s', h⟩
    exact ⟨(s', []), silent_ok.mpr ⟨h, rfl⟩⟩

/-- After every run an action succeeds exactly if it is accepted. -/
theorem action_succeeds_iff (env : Env) (actions : List Action) (a : Action) :
    (∃ r, exec env (run env actions) a = .ok r) ↔ Accepts env (run env actions) a := by
  obtain ⟨ctx, call⟩ := a
  have hinv := run_invariant env actions
  cases call with
  | initcontract args => exact silent_exists.trans (initcontract_iff _)
  | setgame args => exact silent_exists.trans (setgame_iff _)
  | removegame gameId => exact silent_exists.trans (removegame_iff _)
  | recordgame records =>
    refine silent_exists.trans ((recordgame_iff hinv).trans (and_iff_right_of_imp ?_).symm)
    rintro ⟨_, _, hbatch⟩
    exact hbatch.auth
  | clearrecord recordIds => exact silent_exists.trans (clearrecord_iff _)
  | setdistconf args => exact silent_exists.trans (setdistconf_iff _)
  | rmdistconf gameId => exact silent_exists.trans (rmdistconf_iff _)
  | distribute args =>
    refine (run_distribute_iff env actions ctx args).trans (and_iff_right_of_imp ?_).symm
    rintro ⟨⟨_, hdue⟩, -⟩
    exact hdue.auth
  | settoken args => exact silent_exists.trans ((settoken_iff _).trans (and_iff_left trivial).symm)
  | removetoken tokenSymbol => exact silent_exists.trans (removetoken_iff _)

-- ---------------------------------------------------------------------------
-- Setting what is missing
-- ---------------------------------------------------------------------------

theorem Due.congr (h : Due env ctx s args global) (hs : SameLedger s s') :
    Due env ctx s' args global where
  auth := h.auth
  initialized := hs.globals.trans h.initialized
  positive := h.positive
  symbol := h.symbol
  tiers_le := h.tiers_le
  percentages := h.percentages
  open_cycle := by
    unfold State.Closed
    rw [hs.rewards]
    exact h.open_cycle
  cycle_pos := h.cycle_pos
  passed := h.passed
  tiers := by
    unfold State.contenders
    rw [hs.records]
    exact h.tiers

theorem SameLedger.refl (s : State) : SameLedger s s := ⟨rfl, rfl, rfl⟩

theorem SameLedger.symm (h : SameLedger s s') : SameLedger s' s :=
  ⟨h.globals.symm, h.records.symm, h.rewards.symm⟩

theorem SameLedger.trans (h : SameLedger s s₁) (h' : SameLedger s₁ s') : SameLedger s s' :=
  ⟨h'.globals.trans h.globals, h'.records.trans h.records, h'.rewards.trans h.rewards⟩

theorem exec_configures (h : exec env s a = .ok (s', out)) (hcall : a.call.configures = true) :
    SameLedger s s' := by
  cases exec_effect h with
  | configured _ hs => exact hs
  | _ => cases hcall

theorem run_configures {setup : List Action} (h : ∀ a ∈ setup, a.call.configures = true) :
    SameLedger s (History.run (exec env) s setup) := by
  induction setup generalizing s with
  | nil => exact .refl s
  | cons a setup ih =>
    obtain ⟨ha, hrest⟩ := List.forall_mem_cons.mp h
    rw [History.run_cons]
    cases hx : exec env s a with
    | error e =>
      rw [History.after_error hx]
      exact ih hrest
    | ok r =>
      rw [History.after_ok hx]
      exact (exec_configures hx ha).trans (ih hrest)

/-- A payout configuration that is there after an action was there before it,
or is for an account of its context. -/
theorem dist_before (hactive : s.GamesActive) (hx : exec env s a = .ok (s', out)) (gameId : UInt8)
    (hset : (s'.rewarddist.find gameId.toUInt64).isSome = true) :
    (∃ destination, a.ctx.isAccount destination = true) ∨
      (s.rewarddist.find gameId.toUInt64).isSome = true := by
  rw [(exec_writes hactive hx).dists gameId] at hset
  cases hwrite : a.call.distWrite gameId with
  | none =>
    rw [hwrite] at hset
    exact .inr hset
  | some written =>
    rw [hwrite] at hset
    obtain ⟨dist, rfl⟩ := Option.isSome_iff_exists.mp hset
    obtain ⟨ctx, call⟩ := a
    cases call with
    | setdistconf args =>
      obtain ⟨-, haccepted⟩ := (setdistconf_iff s).mp ⟨s', (silent_ok.mp hx).1⟩
      exact .inl ⟨_, haccepted.account⟩
    | rmdistconf _ => simp [Call.distWrite] at hwrite
    | _ => cases hwrite

theorem dist_before_setup {setup : List Action} (hactive : s.GamesActive)
    (h : ∀ a ∈ setup, a.ctx = ctx) (gameId : UInt8)
    (hset : ((History.run (exec env) s setup).rewarddist.find gameId.toUInt64).isSome = true) :
    (∃ destination, ctx.isAccount destination = true) ∨
      (s.rewarddist.find gameId.toUInt64).isSome = true := by
  induction setup generalizing s with
  | nil => exact .inr hset
  | cons a setup ih =>
    obtain ⟨rfl, hrest⟩ := List.forall_mem_cons.mp h
    rw [History.run_cons] at hset
    cases hx : exec env s a with
    | error e =>
      rw [History.after_error hx] at hset
      exact ih hactive hrest hset
    | ok r =>
      rw [History.after_ok hx] at hset
      rcases ih (hactive.step hx) hrest hset with haccount | hset'
      · exact .inl haccount
      · exact dist_before hactive hx gameId hset'

def listingFor (ctx : Context) (args : DistributeArgs) : List Action :=
  [⟨ctx, .setgame ⟨args.gameId, [], [], [args.statName]⟩⟩,
    ⟨ctx, .settoken ⟨args.tokenContract, args.totalReward.symbol, true⟩⟩]

/-- What to set before the call, for payouts to `destination`. -/
def setupFor (ctx : Context) (args : DistributeArgs) (destination : Name) : List Action :=
  listingFor ctx args ++ [⟨ctx, .setdistconf ⟨args.gameId, destination, placeholder, false⟩⟩]

theorem listingFor_configures :
    ∀ a ∈ listingFor ctx args, a.ctx = ctx ∧ a.call.configures = true := by
  simp [listingFor, Call.configures]

theorem setupFor_configures :
    ∀ a ∈ setupFor ctx args destination, a.ctx = ctx ∧ a.call.configures = true := by
  simp [setupFor, listingFor, Call.configures]

structure Listed (s : State) (args : DistributeArgs) : Prop where
  game : (s.gameconfig.find args.gameId.toUInt64).isSome = true
  token : ∃ token, s.tokenconfig.find args.totalReward.symbol.raw = some token ∧
    token.enabled = true ∧ token.tokenContract = args.tokenContract

theorem listed_after_setup (hauth : ctx.hasAuth env.self = true) (hactive : s.GamesActive)
    (args : DistributeArgs) :
    ∃ s', History.Served (exec env) s (listingFor ctx args) s' ∧ s'.GamesActive ∧ Listed s' args ∧
      s'.rewarddist.find args.gameId.toUInt64 = s.rewarddist.find args.gameId.toUInt64 := by
  let game : SetGameArgs := ⟨args.gameId, [], [], [args.statName]⟩
  let token : SetTokenArgs := ⟨args.tokenContract, args.totalReward.symbol, true⟩
  obtain ⟨s₁, h₁⟩ : ∃ s₁, setgame env ctx s game = .ok s₁ :=
    (setgame_iff s).mpr ⟨hauth, List.nodup_singleton _⟩
  have hx₁ : exec env s ⟨ctx, .setgame game⟩ = .ok (s₁, []) := silent_ok.mpr ⟨h₁, rfl⟩
  have hw₁ := exec_writes hactive hx₁
  have hactive₁ := hactive.step hx₁
  have hgame := hw₁.games args.gameId
  rw [Call.gameWrite, if_pos rfl, Option.getD_some] at hgame
  obtain ⟨s₂, h₂⟩ : ∃ s₂, settoken env ctx s₁ token = .ok s₂ := (settoken_iff s₁).mpr hauth
  have hx₂ : exec env s₁ ⟨ctx, .settoken token⟩ = .ok (s₂, []) := silent_ok.mpr ⟨h₂, rfl⟩
  have hw₂ := exec_writes hactive₁ hx₂
  have htoken := hw₂.tokens args.totalReward.symbol
  rw [Call.tokenWrite, if_pos rfl, Option.getD_some] at htoken
  have hlisted : Listed s₂ args :=
    ⟨Option.isSome_of_eq_some ((hw₂.games args.gameId).trans hgame), _, htoken, rfl, rfl⟩
  refine ⟨s₂, .cons hx₁ (.cons hx₂ .nil), hactive₁.step hx₂, hlisted, ?_⟩
  exact (hw₂.dists args.gameId).trans (hw₁.dists args.gameId)

theorem configured_after_setup (hauth : ctx.hasAuth env.self = true)
    (haccount : ctx.isAccount destination = true) (hactive : s.GamesActive) (args : DistributeArgs) :
    ∃ s', History.Served (exec env) s (setupFor ctx args destination) s' ∧ Configured s' args ∧
      s'.rewarddist.find args.gameId.toUInt64 =
        some ⟨args.gameId, destination, placeholder, false⟩ := by
  let dist : SetDistConfArgs := ⟨args.gameId, destination, placeholder, false⟩
  obtain ⟨s₁, hserved, hactive₁, hlisted, -⟩ := listed_after_setup hauth hactive args
  obtain ⟨token, htoken, hsound⟩ := hlisted.token
  obtain ⟨s₂, h₂⟩ : ∃ s₂, setdistconf env ctx s₁ dist = .ok s₂ :=
    (setdistconf_iff s₁).mpr ⟨hauth, hlisted.game, haccount, List.cons_ne_nil _ _⟩
  have hx₂ : exec env s₁ ⟨ctx, .setdistconf dist⟩ = .ok (s₂, []) := silent_ok.mpr ⟨h₂, rfl⟩
  have hw₂ := exec_writes hactive₁ hx₂
  have hdist := hw₂.dists args.gameId
  rw [Call.distWrite, if_pos rfl, Option.getD_some] at hdist
  refine ⟨s₂, hserved.append (.cons hx₂ .nil), ⟨?_, ?_, Option.isSome_of_eq_some hdist⟩, hdist⟩
  · exact (congrArg Option.isSome (hw₂.games args.gameId)).trans hlisted.game
  · exact ⟨token, (hw₂.tokens args.totalReward.symbol).trans htoken, hsound⟩

theorem Due.after_setup (h : Due env ctx (run env actions) args global)
    (hsetup : ∀ a ∈ setup, a.ctx = ctx ∧ a.call.configures = true)
    (hserved : History.Served (exec env) (run env actions) setup s) (hconf : Configured s args) :
    ∃ r, distribute env ctx (run env (actions ++ setup)) args = .ok r := by
  refine (run_distribute_iff env (actions ++ setup) ctx args).mpr ?_
  have hrun : run env (actions ++ setup) = s := History.run_append.trans hserved.final
  have hledger : SameLedger (run env actions) s :=
    hserved.final ▸ run_configures fun a ha => (hsetup a ha).2
  rw [hrun]
  exact ⟨⟨global, h.congr hledger⟩, hconf⟩

/-- No run leads to where the configuration could not be mended: in the context
of the call some calls that only configure make it succeed, exactly when it is
due and there is an account to pay to, or a payout configuration already. -/
theorem configuring_suffices_iff (env : Env) (actions : List Action) (ctx : Context)
    (args : DistributeArgs) :
    (∃ setup : List Action, (∀ a ∈ setup, a.ctx = ctx ∧ a.call.configures = true) ∧
      ∃ r, distribute env ctx (run env (actions ++ setup)) args = .ok r) ↔
      (∃ global, Due env ctx (run env actions) args global) ∧
        ((∃ destination, ctx.isAccount destination = true) ∨
          ((run env actions).rewarddist.find args.gameId.toUInt64).isSome = true) := by
  have hactive := run_games_active env actions
  constructor
  · rintro ⟨setup, hsetup, h⟩
    obtain ⟨⟨global, hdue⟩, hconf⟩ := (run_distribute_iff env (actions ++ setup) ctx args).mp h
    have hdist := hconf.dist
    rw [run, History.run_append] at hdue hdist
    have hledger : SameLedger (run env actions) (History.run (exec env) (run env actions) setup) :=
      run_configures fun a ha => (hsetup a ha).2
    refine ⟨⟨global, hdue.congr hledger.symm⟩, ?_⟩
    exact dist_before_setup hactive (fun a ha => (hsetup a ha).1) args.gameId hdist
  · rintro ⟨⟨global, hdue⟩, ⟨destination, haccount⟩ | hdist⟩
    · obtain ⟨s, hserved, hconf, -⟩ := configured_after_setup hdue.auth haccount hactive args
      exact ⟨_, setupFor_configures, hdue.after_setup setupFor_configures hserved hconf⟩
    · obtain ⟨s, hserved, -, hlisted, hkept⟩ := listed_after_setup hdue.auth hactive args
      have hconf : Configured s args := ⟨hlisted.game, hlisted.token, hkept ▸ hdist⟩
      exact ⟨_, listingFor_configures, hdue.after_setup listingFor_configures hserved hconf⟩

-- ---------------------------------------------------------------------------
-- Until it is made
-- ---------------------------------------------------------------------------

/-- The call is due after the start of the first cycle, and every tier can be
paid, however many results are reported late. -/
structure Sturdy (env : Env) (ctx : Context) (s : State) (args : DistributeArgs)
    (global : GlobalConfig) : Prop where
  due : Due env ctx s args global
  started : global.cyclesInitiationTime ≤ ctx.now
  tiers : ∀ percentage ∈ args.rewardPercentages, TierPays args.totalReward percentage

theorem Sturdy.step (h : Sturdy env ctx s args global) (hx : exec env s a = .ok (s', out))
    (hinit : a.call.isInit = false) :
    s'.Closed args.gameId args.cycleNumber ∨ Sturdy env ctx s' args global := by
  by_cases hclosed : s'.Closed args.gameId args.cycleNumber
  · exact .inl hclosed
  · have hdue := h.due
    have hglobals : s'.globalconfig = s.globalconfig := (exec_effect hx).globals hinit
    refine .inr ⟨?_, h.started, h.tiers⟩
    constructor
    · exact hdue.auth
    · exact hglobals.trans hdue.initialized
    · exact hdue.positive
    · exact hdue.symbol
    · exact hdue.tiers_le
    · exact hdue.percentages
    · exact hclosed
    · exact hdue.cycle_pos
    · exact hdue.passed
    · exact fun percentage hp => h.tiers percentage (List.mem_of_mem_take hp)

theorem Sturdy.later (h : Sturdy env ctx s args global) (hvalid : global.Valid)
    (htime : ctx.now ≤ ctx'.now) (hauth : ctx'.hasAuth env.self = true) :
    Due env ctx' s args global := by
  have hdue := h.due
  have hstarted : global.cyclesInitiationTime ≤ ctx'.now := UInt32.le_trans h.started htime
  obtain ⟨hfirst, hend⟩ := (cycleAt_lt_iff hvalid h.started hdue.cycle_pos).mp hdue.passed
  have hended : global.Ended ctx'.now args.cycleNumber :=
    ⟨hfirst, hend.trans (UInt32.le_iff_toNat_le.mp htime)⟩
  exact { hdue with
    auth := hauth
    passed := (cycleAt_lt_iff hvalid hstarted hdue.cycle_pos).mpr hended }

def Sample.globals : GlobalConfig := ⟨true, 1000, 100, 1000, 10, 1⟩

theorem Sample.payout_sturdy (hglobals : s.globalconfig = some Sample.globals)
    (hlog : s.rewardsrec = .empty) (hpos : 0 < c) (hpassed : c < Sample.globals.cycleAt now)
    (hstarted : 1000 ≤ now) :
    Sturdy Sample.env (Sample.context now) s (Sample.payout c [60, 40]) Sample.globals := by
  let total : Asset := ⟨1000000, Sample.boid⟩
  have htiers : ∀ percentage ∈ [(60 : UInt8), 40], TierPays total percentage := by
    simp only [List.forall_mem_cons]
    exact ⟨⟨by decide, by decide⟩, ⟨by decide, by decide⟩, nofun⟩
  have hpositive : 0 < total.amount.toInt := by decide
  have hsymbol : total.symbol.isValid = true := by decide
  refine ⟨?_, hstarted, htiers⟩
  refine ⟨rfl, hglobals, hpositive, hsymbol, Nat.le_of_ble_eq_true rfl, rfl, ?_, hpos, hpassed, ?_⟩
  · rintro ⟨d, hd, -⟩
    rw [hlog] at hd
    cases hd
  · exact fun percentage hp => htiers percentage (List.mem_of_mem_take hp)

-- ---------------------------------------------------------------------------
-- Taking a batch back
-- ---------------------------------------------------------------------------

def newIds (s s' : State) : List UInt64 :=
  (s'.gamerecords.rows.drop s.gamerecords.rows.length).map GameRecords.id

/-- Clearing the rows a batch added leaves the state from before the batch. -/
theorem clearing_undoes_batch (env : Env) (actions : List Action) (ctx ctx' : Context)
    (batch : List GameRecordData) (h : recordgame env ctx (run env actions) batch = .ok s')
    (hauth : ctx'.hasAuth env.self = true) :
    clearrecord env ctx' s' (newIds (run env actions) s') = .ok (run env actions) := by
  have hinv := run_invariant env actions
  generalize run env actions = s at *
  obtain ⟨g, hg⟩ := recordgame_initialized h
  obtain ⟨hbatch, hadded, hframe⟩ := recordgame_added (.start hinv hg) h
  have hrows := hadded.rows
  let added := Handle.numbered (rowOf ctx g) (Handle.firstFree s.gamerecords)
    (newResults ctx s g s.gamerecords batch)
  have hids : newIds s s' = added.map GameRecords.primaryKey := by
    rw [newIds, hrows, List.drop_left]
    rfl
  have hreported : added.map GameRecords.reported = newResults ctx s g s.gamerecords batch :=
    (Handle.map_numbered (rowOf_reported ctx g) _ _).trans (List.map_id _)
  have hsize : (newIds s s').length ≤ batch.length := by
    rw [hids, List.length_map, ← List.length_map (f := GameRecords.reported), hreported]
    exact Intake.intake_length_le _ _
  obtain ⟨r, hr⟩ : ∃ r, r ∈ added := by
    refine List.exists_mem_of_ne_nil _ fun hnone => hbatch.new ?_
    rw [← hreported, hnone, List.map_nil]
  have hstored : s'.gamerecords.find r.primaryKey = some r :=
    s'.gamerecords.find_eq_some.mpr ⟨hrows ▸ List.mem_append_right _ hr, rfl⟩
  have hids_accepted : IdsAccepted s' (newIds s s') :=
    ⟨(hsize.trans hbatch.size).trans (by decide), r.primaryKey, hids ▸ List.mem_map_of_mem hr,
      Option.isSome_of_eq_some hstored⟩
  obtain ⟨s'', hclear⟩ := (clearrecord_iff s').mpr ⟨hauth, hids_accepted⟩
  rw [hclear]
  obtain ⟨t, hkept, rfl⟩ := clearrecord_ok hclear
  rw [hids] at hkept
  rw [Table.eq_of_append hrows hkept, hframe]

theorem first_batch_undone :
    clearrecord Sample.env (Sample.context 1060) (run Sample.env Sample.played)
      (newIds (run Sample.env (Sample.setup 1000 1000 100)) (run Sample.env Sample.played)) =
      .ok (run Sample.env (Sample.setup 1000 1000 100)) :=
  clearing_undoes_batch Sample.env (Sample.setup 1000 1000 100) (Sample.context 1050)
    (Sample.context 1060)
    [Sample.result 10 50 1010, Sample.result 11 40 1020, Sample.result 10 60 1030] rfl rfl

-- ---------------------------------------------------------------------------
-- Without the authority of the contract
-- ---------------------------------------------------------------------------

theorem exec_auth (h : exec env s a = .ok r) : a.ctx.hasAuth env.self = true := by
  obtain ⟨s', out⟩ := r
  obtain ⟨ctx, call⟩ := a
  cases call with
  | initcontract args => exact ((initcontract_iff s).mp ⟨s', (silent_ok.mp h).1⟩).1
  | setgame args => exact ((setgame_iff s).mp ⟨s', (silent_ok.mp h).1⟩).1
  | removegame gameId => exact ((removegame_iff s).mp ⟨s', (silent_ok.mp h).1⟩).1
  | recordgame records =>
    have hrecord := (silent_ok.mp h).1
    simp only [recordgame, bind_ok, requireAuth_ok] at hrecord
    exact hrecord.elim fun _ hauth => hauth.1
  | clearrecord recordIds => exact ((clearrecord_iff s).mp ⟨s', (silent_ok.mp h).1⟩).1
  | setdistconf args => exact ((setdistconf_iff s).mp ⟨s', (silent_ok.mp h).1⟩).1
  | rmdistconf gameId => exact ((rmdistconf_iff s).mp ⟨s', (silent_ok.mp h).1⟩).1
  | distribute args =>
    have hdistribute : distribute env ctx s args = .ok (s', out) := h
    simp only [distribute, bind_ok, requireAuth_ok] at hdistribute
    exact hdistribute.elim fun _ hauth => hauth.1
  | settoken args => exact (settoken_iff s).mp ⟨s', (silent_ok.mp h).1⟩
  | removetoken tokenSymbol => exact ((removetoken_iff s).mp ⟨s', (silent_ok.mp h).1⟩).1

/-- Actions without the authority of the contract play no part: they change
nothing and send nothing, whatever comes before and after them. -/
theorem unauthorized_ignored (env : Env) (actions : List Action) :
    run env (actions.filter fun a => a.ctx.hasAuth env.self) = run env actions ∧
      events env (actions.filter fun a => a.ctx.hasAuth env.self) = events env actions :=
  History.drop_refused (fun _ _ _ h => exec_auth h) actions

end GameRewards

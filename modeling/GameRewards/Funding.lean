import GameRewards.Acceptance
import GameRewards.Payouts

/-!
# What is due and funded can be paid

Whatever happened at the contract and at the token contracts, a call that is
due can be made after setting what the configuration lacks for it, if the
contract holds what it pays. It stays possible until it is made; and it takes
nothing that other calls need, so that all calls that are due can be made one
after the other, in any order, from what they pay together.
-/

namespace GameRewards.System

-- ---------------------------------------------------------------------------
-- Configuring
-- ---------------------------------------------------------------------------

def quietly (setup : List Action) : List Request := setup.map fun a => .contract a .quiet

theorem exec_configuring (h : a.call.configures = true)
    (hx : GameRewards.exec env w.contract a = .ok (s, out)) :
    exec env w (.contract a .quiet) = .ok ({ w with contract := s }, ⟨[], []⟩) := by
  obtain rfl : out = [] := by
    cases exec_effect hx with
    | configured _ _ => rfl
    | _ => cases h
  rw [exec, hx]
  rfl

theorem quietly_served {setup : List Action} (h : ∀ a ∈ setup, a.call.configures = true)
    (hs : History.Served (GameRewards.exec env) w.contract setup s) :
    History.Served (exec env) w (quietly setup) { w with contract := s } := by
  induction setup generalizing w with
  | nil =>
    obtain rfl : w.contract = s := hs.final
    exact .nil
  | cons a setup ih =>
    obtain ⟨ha, hrest⟩ := List.forall_mem_cons.mp h
    obtain ⟨s₁, out, hx, hs₁⟩ := hs.uncons
    exact .cons (exec_configuring ha hx) (ih (w := { w with contract := s₁ }) hrest hs₁)

-- ---------------------------------------------------------------------------
-- One call
-- ---------------------------------------------------------------------------

structure Outstanding where
  ctx : Context
  args : DistributeArgs

def Outstanding.amountOf (code : Name) (symCode : UInt64) (o : Outstanding) : Int :=
  if o.args.tokenContract = code ∧ symCode = o.args.totalReward.symbol.code then
    o.args.totalReward.amount.toInt
  else 0

def Outstanding.requests (destination : Name) (o : Outstanding) : List Request :=
  quietly (setupFor o.ctx o.args destination) ++ [.contract ⟨o.ctx, .distribute o.args⟩ .quiet]

/-- The contract holds what a call is to pay, in a token that exists, and the
payouts can go to `destination`. -/
structure Funded (env : Env) (ctx : Context) (l : Ledgers) (args : DistributeArgs)
    (destination : Name) : Prop where
  token : ∃ st, (l args.tokenContract).stats args.totalReward.symbol.code = some st ∧
    args.totalReward.symbol = st.row.supply.symbol
  funds : args.totalReward.amount.toInt ≤
    (l args.tokenContract).balanceOf env.self args.totalReward.symbol.code
  other : destination ≠ env.self
  isAccount : ctx.isAccount destination = true

theorem Funded.payable (h : Funded env ctx l args destination)
    (hd : Distribution env ctx s args s' out global tokenConfig distConfig row)
    (hdist : distConfig = ⟨args.gameId, destination, placeholder, false⟩) :
    Payable env ctx (l args.tokenContract) args.totalReward.symbol out where
  recipient := by
    intro t ht
    obtain ⟨player, -, _, _, -, rfl⟩ := hd.settlement.sent ht
    have hmemo := memoFor_length_le placeholder player
    subst hdist
    exact ⟨h.other, h.isAccount, hmemo.trans (by decide)⟩
  token _ := h.token
  funds := by
    rw [Settlement.sum_sent hd.settlement]
    exact hd.total_le.trans h.funds

structure Made (env : Env) (o : Outstanding) (w w' : System) : Prop where
  globals : w'.contract.globalconfig = w.contract.globalconfig
  closed : ∀ g c, w'.contract.Closed g c ↔
    w.contract.Closed g c ∨ o.args.gameId = g ∧ o.args.cycleNumber = c
  contenders : ∀ args, (w'.contract.contenders args).length = (w.contract.contenders args).length
  stats : ∀ code symCode, (w'.tokens code).stats symCode = (w.tokens code).stats symCode
  funds : ∀ code symCode, (w.tokens code).balanceOf env.self symCode ≤
    (w'.tokens code).balanceOf env.self symCode + o.amountOf code symCode

theorem contenders_settled {s s' : State} {g : UInt8} {c : UInt32}
    (h : s'.gamerecords.rows = s.gamerecords.rows.map (settleRow g c)) (args : DistributeArgs) :
    (s'.contenders args).length = (s.contenders args).length := by
  have hsame : ∀ r : GameRecords, (settleRow g c r).gameId = r.gameId ∧
      (settleRow g c r).cycleNumber = r.cycleNumber ∧
      (settleRow g c r).statsNames = r.statsNames := by
    intro r
    rw [settleRow_eq]
    exact ⟨rfl, rfl, rfl⟩
  unfold State.contenders
  rw [h, List.filter_map, List.length_map]
  simp only [Function.comp_def, hsame]

theorem made_by_payout (hs : SoundTokens w.tokens) {o : Outstanding}
    (hledger : SameLedger w.contract s)
    (hd : Distribution env o.ctx s o.args w'.contract out global token distConfig row)
    (hpaid : payOut o.ctx .quiet w.tokens out = .ok (w'.tokens, requests))
    (hother : ∀ t ∈ out, t.recipient ≠ env.self) : Made env o w w' where
  globals := by
    rw [hd.frame, ← hledger.globals]
  closed g c := by
    rw [hd.closed_iff, State.Closed, State.Closed, hledger.rewards]
  contenders args := by
    rw [contenders_settled hd.records_rows, State.contenders, State.contenders, hledger.records]
  stats code symCode := (payOut_quiet_moves hs hpaid code symCode).1
  funds code symCode := by
    have hkind := Settlement.kind hd.settlement hd.total_pos
    rw [(payOut_quiet_moves hs hpaid code symCode).2, Outstanding.amountOf]
    split
    · rename_i hsame
      obtain ⟨rfl, rfl⟩ := hsame
      have hnone : sentTo env.self out = 0 := by
        have hfilter : out.filter (fun t => t.recipient = env.self) = [] :=
          List.filter_eq_nil_iff.mpr fun t ht => by simpa using hother t ht
        rw [sentTo, hfilter]
        rfl
      rw [sum_net hkind (Settlement.sender hd.settlement), Settlement.sum_sent hd.settlement, hnone,
        if_pos rfl]
      have htotal := hd.total_le
      omega
    · rename_i hsame
      rw [sum_net_other hkind hsame]
      omega

theorem outstanding_served (env : Env) (requests : List Request) (o : Outstanding)
    (hdue : Due env o.ctx (run env requests).contract o.args global)
    (hfunded : Funded env o.ctx (run env requests).tokens o.args destination) :
    ∃ w, History.Served (exec env) (run env requests) (o.requests destination) w ∧
      Made env o (run env requests) w := by
  have hserved := run_contract env requests
  let before := actions (events env requests)
  let setup := setupFor o.ctx o.args destination
  have hconfigures : ∀ a ∈ setup, a.call.configures = true := fun a ha => (setupFor_configures a ha).2
  have hcontract : GameRewards.run env before = (run env requests).contract := hserved.final
  have hactive : (run env requests).contract.GamesActive := hcontract ▸ run_games_active env before
  obtain ⟨s, hsetup, hconf, hdist⟩ :=
    configured_after_setup hdue.auth hfunded.isAccount hactive o.args
  have hledger : SameLedger (run env requests).contract s :=
    hsetup.final ▸ run_configures hconfigures
  have hrun : GameRewards.run env (before ++ setup) = s := by
    rw [GameRewards.run, History.run_append, ← hsetup.final, ← hcontract]
    rfl
  have hready : (∃ g, Due env o.ctx (GameRewards.run env (before ++ setup)) o.args g) ∧
      Configured (GameRewards.run env (before ++ setup)) o.args := by
    rw [hrun]
    exact ⟨⟨global, hdue.congr hledger⟩, hconf⟩
  obtain ⟨⟨s', out⟩, hx⟩ := (run_distribute_iff env (before ++ setup) o.ctx o.args).mpr hready
  rw [hrun] at hx
  obtain ⟨_, _, distConfig, _, hd⟩ := distribute_ok hx
  obtain ⟨hmem, hkey⟩ := (MultiIndex.Table.find_eq_some _).mp hdist
  have hfound : distConfig = ⟨o.args.gameId, destination, placeholder, false⟩ :=
    MultiIndex.Table.key_inj _ hd.dist_mem hmem (congrArg UInt8.toUInt64 hd.dist_game)
  have hpayable := hfunded.payable hd hfound
  let configured : System := { run env requests with contract := s }
  obtain ⟨⟨w, output⟩, hpayout⟩ : ∃ r, exec env configured
      (.contract ⟨o.ctx, .distribute o.args⟩ .quiet) = .ok r :=
    payout_exists (run_sound env requests) hx hpayable
  obtain ⟨hexec, hpaid⟩ := exec_contract hpayout
  cases hexec.symm.trans hx
  refine ⟨w, (quietly_served hconfigures hsetup).append (.cons hpayout .nil), ?_⟩
  exact made_by_payout (run_sound env requests) hledger hd hpaid fun t ht =>
    (hpayable.recipient t ht).1

-- ---------------------------------------------------------------------------
-- Until it is made
-- ---------------------------------------------------------------------------

def Request.resets : Request → Bool
  | .contract action _ => action.call.isInit
  | .token _ => false

def MadeOrDue (env : Env) (o : Outstanding) (global : GlobalConfig) (w : System) : Prop :=
  w.contract.Closed o.args.gameId o.args.cycleNumber ∨ Sturdy env o.ctx w.contract o.args global

theorem MadeOrDue.step (h : MadeOrDue env o global w) (hx : exec env w request = .ok (w', out))
    (hreset : request.resets = false) : MadeOrDue env o global w' := by
  cases request with
  | contract action reply =>
    obtain ⟨hexec, -⟩ := exec_contract hx
    rcases h with hclosed | hsturdy
    · exact .inl (((exec_effect hexec).closed_iff hreset).mpr (.inl hclosed))
    · exact hsturdy.step hexec hreset
  | token request =>
    obtain ⟨hsame, -⟩ := exec_token hx
    rw [MadeOrDue, hsame]
    exact h

theorem MadeOrDue.run (h : MadeOrDue env o global w) (hlater : ∀ r ∈ later, r.resets = false) :
    MadeOrDue env o global (History.run (exec env) w later) := by
  induction later generalizing w with
  | nil => exact h
  | cons r later ih =>
    obtain ⟨hr, hrest⟩ := List.forall_mem_cons.mp hlater
    rw [History.run_cons]
    cases hx : exec env w r with
    | error e =>
      rw [History.after_error hx]
      exact ih h hrest
    | ok result =>
      obtain ⟨w', out⟩ := result
      rw [History.after_ok hx]
      exact ih (h.step hx hr) hrest

/-- Once due, a call stays possible until its cycle is distributed: whatever
else is done short of `initcontract`, by anyone, it can then still be made with
all of its transfers as soon as the contract holds the total. -/
theorem due_until_paid (env : Env) (requests later : List Request) (o : Outstanding)
    (ctx : Context) (h : Sturdy env o.ctx (run env requests).contract o.args global)
    (hlater : ∀ r ∈ later, r.resets = false) (htime : o.ctx.now ≤ ctx.now)
    (hauth : ctx.hasAuth env.self = true) :
    (run env (requests ++ later)).contract.Closed o.args.gameId o.args.cycleNumber ∨
    ∀ destination, Funded env ctx (run env (requests ++ later)).tokens o.args destination →
      ∃ w, History.Served (exec env) (run env (requests ++ later))
          (Outstanding.requests destination ⟨ctx, o.args⟩) w ∧
        w.contract.Closed o.args.gameId o.args.cycleNumber := by
  have hstart : MadeOrDue env o global (run env requests) := .inr h
  have hend : MadeOrDue env o global (run env (requests ++ later)) := by
    rw [run, History.run_append]
    exact hstart.run hlater
  rcases hend with hclosed | hsturdy
  · exact .inl hclosed
  · refine .inr fun destination hfunded => ?_
    have hserved := run_contract env (requests ++ later)
    have hvalid : global.Valid := by
      have hinv := run_invariant env (actions (events env (requests ++ later)))
      rw [GameRewards.run, hserved.final] at hinv
      exact hinv.globals global hsturdy.due.initialized
    have hdue := hsturdy.later hvalid htime hauth
    obtain ⟨w, hmade, hleft⟩ := outstanding_served env (requests ++ later) ⟨ctx, o.args⟩ hdue hfunded
    exact ⟨w, hmade, (hleft.closed _ _).mpr (.inr ⟨rfl, rfl⟩)⟩

def afterwards : List Request :=
  quietly [Sample.block 1150 (.recordgame [Sample.result 12 70 1030]),
    Sample.block 1160 (.removetoken Sample.boid), Sample.block 1170 (.rmdistconf 1)]

theorem season_due_until_paid :
    (run Sample.env (Sample.season ++ afterwards)).contract.Closed 1 1 ∨
    ∀ destination, Funded Sample.env (Sample.context 1300)
        (run Sample.env (Sample.season ++ afterwards)).tokens (Sample.payout 1 [60, 40]) destination →
      ∃ w, History.Served (exec Sample.env) (run Sample.env (Sample.season ++ afterwards))
          (Outstanding.requests destination ⟨Sample.context 1300, Sample.payout 1 [60, 40]⟩) w ∧
        w.contract.Closed 1 1 :=
  due_until_paid Sample.env Sample.season afterwards
    ⟨Sample.context 1100, Sample.payout 1 [60, 40]⟩ (Sample.context 1300)
    (Sample.payout_sturdy rfl rfl (by decide) (by decide) (by decide)) (by decide) (by decide) rfl

-- ---------------------------------------------------------------------------
-- All of them
-- ---------------------------------------------------------------------------

/-- Calls that are due, each for another cycle and in a token that exists, with
what they pay together in the hands of the contract. -/
structure Backlog (env : Env) (destination : Name) (w : System) (global : GlobalConfig)
    (calls : List Outstanding) : Prop where
  distinct : calls.Pairwise fun o o' =>
    ¬ (o.args.gameId = o'.args.gameId ∧ o.args.cycleNumber = o'.args.cycleNumber)
  due : ∀ o ∈ calls, Due env o.ctx w.contract o.args global
  token : ∀ o ∈ calls, ∃ st, (w.tokens o.args.tokenContract).stats o.args.totalReward.symbol.code =
    some st ∧ o.args.totalReward.symbol = st.row.supply.symbol
  isAccount : ∀ o ∈ calls, o.ctx.isAccount destination = true
  funds : ∀ code symCode, (calls.map (Outstanding.amountOf code symCode)).sum ≤
    (w.tokens code).balanceOf env.self symCode

theorem Backlog.funded (h : Backlog env destination w global (o :: rest))
    (hother : destination ≠ env.self) : Funded env o.ctx w.tokens o.args destination where
  token := h.token o List.mem_cons_self
  funds := by
    have hfunds := h.funds o.args.tokenContract o.args.totalReward.symbol.code
    have hrest : 0 ≤ (rest.map (Outstanding.amountOf o.args.tokenContract
        o.args.totalReward.symbol.code)).sum := by
      refine List.sum_nonneg (List.forall_mem_map.mpr fun o' ho' => ?_)
      have hpos := (h.due o' (List.mem_cons_of_mem _ ho')).positive
      unfold Outstanding.amountOf
      split
      · exact hpos.le
      · exact le_rfl
    rw [List.map_cons, List.sum_cons, Outstanding.amountOf, if_pos ⟨rfl, rfl⟩] at hfunds
    omega
  other := hother
  isAccount := h.isAccount o List.mem_cons_self

theorem Made.due (h : Made env o w w') (hdue : Due env ctx w.contract args global)
    (hne : ¬ (o.args.gameId = args.gameId ∧ o.args.cycleNumber = args.cycleNumber)) :
    Due env ctx w'.contract args global where
  auth := hdue.auth
  initialized := h.globals.trans hdue.initialized
  positive := hdue.positive
  symbol := hdue.symbol
  tiers_le := hdue.tiers_le
  percentages := hdue.percentages
  open_cycle := by
    rw [h.closed]
    exact not_or.mpr ⟨hdue.open_cycle, hne⟩
  cycle_pos := hdue.cycle_pos
  passed := hdue.passed
  tiers := by
    rw [h.contenders]
    exact hdue.tiers

theorem Backlog.next (h : Backlog env destination w global (o :: rest)) (hmade : Made env o w w') :
    Backlog env destination w' global rest := by
  obtain ⟨hne, hdistinct⟩ := List.pairwise_cons.mp h.distinct
  constructor
  · exact hdistinct
  · exact fun o' ho' => hmade.due (h.due o' (List.mem_cons_of_mem _ ho')) (hne o' ho')
  · intro o' ho'
    rw [hmade.stats]
    exact h.token o' (List.mem_cons_of_mem _ ho')
  · exact fun o' ho' => h.isAccount o' (List.mem_cons_of_mem _ ho')
  · intro code symCode
    have hall := h.funds code symCode
    have hleft := hmade.funds code symCode
    rw [List.map_cons, List.sum_cons] at hall
    omega

/-- In every reachable state of the system a backlog can be cleared in any
order: the calls go through one after the other with all of their transfers,
each after the actions that configure for it, and these cycles are closed. -/
theorem backlog_payable (env : Env) (requests : List Request) (destination : Name)
    (calls : List Outstanding) (hother : destination ≠ env.self)
    (h : Backlog env destination (run env requests) global calls) :
    ∃ w, History.Served (exec env) (run env requests)
        (calls.flatMap (Outstanding.requests destination)) w ∧
      ∀ g c, w.contract.Closed g c ↔ (run env requests).contract.Closed g c ∨
        ∃ o ∈ calls, o.args.gameId = g ∧ o.args.cycleNumber = c := by
  induction calls generalizing requests with
  | nil => exact ⟨_, .nil, by simp⟩
  | cons o rest ih =>
    obtain ⟨w, hserved, hmade⟩ := outstanding_served env requests o
      (h.due o List.mem_cons_self) (h.funded hother)
    have hrun : run env (requests ++ o.requests destination) = w :=
      History.run_append.trans hserved.final
    rw [← hrun] at hmade hserved
    obtain ⟨w', hrest, hclosed⟩ := ih _ (h.next hmade)
    refine ⟨w', hserved.append hrest, fun g c => ?_⟩
    rw [hclosed, hmade.closed, or_assoc, List.exists_mem_cons_iff]

def fundedCycles : List Request :=
  Sample.deposits 900 ++ Sample.twoCycles.map (.contract · .quiet)

theorem two_cycles_payable :
    ∃ w, History.Served (exec Sample.env) (run Sample.env fundedCycles)
        ([⟨Sample.context 1200, Sample.payout 2 [60, 40]⟩,
          ⟨Sample.context 1200, Sample.payout 1 [60, 40]⟩].flatMap (Outstanding.requests ⟨12⟩)) w ∧
      ∀ g c, w.contract.Closed g c ↔ (run Sample.env fundedCycles).contract.Closed g c ∨
        ∃ o ∈ [Outstanding.mk (Sample.context 1200) (Sample.payout 2 [60, 40]),
          ⟨Sample.context 1200, Sample.payout 1 [60, 40]⟩],
          o.args.gameId = g ∧ o.args.cycleNumber = c := by
  have hdue : ∀ c : UInt32, 0 < c → c < Sample.globals.cycleAt 1200 →
      Due Sample.env (Sample.context 1200) (run Sample.env fundedCycles).contract
        (Sample.payout c [60, 40]) Sample.globals :=
    fun c hpos hpassed => (Sample.payout_sturdy rfl rfl hpos hpassed (by decide)).due
  have hbacklog : Backlog Sample.env ⟨12⟩ (run Sample.env fundedCycles) Sample.globals
      [⟨Sample.context 1200, Sample.payout 2 [60, 40]⟩,
        ⟨Sample.context 1200, Sample.payout 1 [60, 40]⟩] := by
    constructor
    · decide
    · simp only [List.forall_mem_cons]
      exact ⟨hdue 2 (by decide) (by decide), hdue 1 (by decide) (by decide), nofun⟩
    · simp only [List.forall_mem_cons]
      exact ⟨⟨_, rfl, rfl⟩, ⟨_, rfl, rfl⟩, nofun⟩
    · simp only [List.forall_mem_cons]
      exact ⟨rfl, rfl, nofun⟩
    · intro code symCode
      by_cases hsame : (⟨6⟩ : Name) = code ∧ symCode = Sample.boid.code
      · obtain ⟨rfl, rfl⟩ := hsame
        decide
      · have hnone : ∀ c, Outstanding.amountOf code symCode
            ⟨Sample.context 1200, Sample.payout c [60, 40]⟩ = 0 := fun _ => if_neg hsame
        have hnonneg := (run_sound Sample.env fundedCycles code).balanceOf_nonneg
          Sample.env.self symCode
        simpa [hnone] using hnonneg
  exact backlog_payable Sample.env fundedCycles ⟨12⟩ _ (by decide) hbacklog

end GameRewards.System

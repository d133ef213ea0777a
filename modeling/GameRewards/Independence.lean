import GameRewards.Admission
import Mathlib.Data.List.Perm.Subperm
import Mathlib.Data.List.Range

/-!
# Distributions of different cycles

A distribution decides on the row and the transfers before it writes. What it
reads for that, a distribution of another cycle leaves as it was; and what the
two write commutes, but for the ids in the log.
-/

namespace GameRewards

open MultiIndex (Table Handle)
open MultiIndex.Handle (firstFree noAvailablePrimaryKey)

-- ---------------------------------------------------------------------------
-- Deciding and writing
-- ---------------------------------------------------------------------------

def RewardsRecorded.withoutId (d : RewardsRecorded) : RewardsRecorded := { d with id := 0 }

/-- What `distribute` settles before it stores anything: the row to log, still
without its id, and the transfers. -/
def decision (env : Env) (ctx : Context) (s : State) (args : DistributeArgs) :
    Result (RewardsRecorded × List Transfer) := do
  let found ← admission env ctx s args
  let playerScores ← collectScores args.statName (s.bucket args.gameId args.cycleNumber)
  let topScores := (env.sorter.sort playerScores).take found.1.maxRewardTiers.toNat
  let distributedTotal ← Asset.make 0 args.totalReward.symbol
  let p ← payTiers env args found.2 topScores
    { currentTier := 0
      rewardedPlayers := []
      playerRewards := []
      remainingReward := args.totalReward
      distributedTotal := distributedTotal
      transfers := [] }
  pure (
    { id := 0
      gameId := args.gameId
      cycleNumber := args.cycleNumber
      statName := args.statName
      totalReward := p.distributedTotal
      rewardedPlayers := p.rewardedPlayers
      playerRewards := p.playerRewards
      distributionTime := ctx.now }, p.transfers)

theorem distribute_eq_decision (env : Env) (ctx : Context) (s : State) (args : DistributeArgs) :
    distribute env ctx s args = (do
      let decided ← decision env ctx s args
      let available ← need (Handle.ofTable s.rewardsrec).availablePrimaryKey
        "next primary key in table is at autoincrement limit"
      let rewardsRecords ← need
        (available.2.emplace { decided.1 with id := available.1 }) keyTaken
      let gamerecords := (s.gamerecords.modifyScan GameRecords.byGameCycle
        (cycleKey args.gameId args.cycleNumber)
        (GameRecords.inCycle args.gameId args.cycleNumber) markDistributed markDistributed_id).2
      pure ({ s with gamerecords := gamerecords, rewardsrec := rewardsRecords.table },
        decided.2)) := by
  rw [distribute_eq]
  simp only [decision, bind_assoc, pure_bind]
  refine bind_congr fun found => ?_
  simp only [settle, distributeRewards, State.scan_eq_bucket, bind_assoc, pure_bind]

theorem decision_key (h : decision env ctx s args = .ok (row, out)) :
    row.gameId = args.gameId ∧ row.cycleNumber = args.cycleNumber ∧ row.withoutId = row := by
  simp only [decision, bind_ok, pure_ok, Prod.mk.injEq] at h
  obtain ⟨_, -, _, -, _, -, _, -, rfl, -⟩ := h
  exact ⟨rfl, rfl, rfl⟩

structure Written (args : DistributeArgs) (decided : Result (RewardsRecorded × List Transfer))
    (s s' : State) : Prop where
  records : s'.gamerecords.rows = s.gamerecords.rows.map fun r =>
    if decided.isOk then settleRow args.gameId args.cycleNumber r else r
  log : ∃ new, s'.rewardsrec.rows = s.rewardsrec.rows ++ new ∧
    new.map RewardsRecorded.withoutId = decided.toOption.toList.map Prod.fst
  frame : s' = { s with gamerecords := s'.gamerecords, rewardsrec := s'.rewardsrec }

theorem distribute_decided (hd : decision env ctx s args = .ok (row, out))
    (h : distribute env ctx s args = .ok (s', out')) :
    out' = out ∧ firstFree s.rewardsrec < noAvailablePrimaryKey ∧
      s'.rewardsrec.rows = s.rewardsrec.rows ++ [{ row with id := firstFree s.rewardsrec }] ∧
      Written args (decision env ctx s args) s s' := by
  simp only [distribute_eq_decision, bind_ok, need_ok, pure_ok, Prod.mk.injEq] at h
  obtain ⟨_, hd', ⟨id, h₁⟩, hid, h₂, hstored, rfl, rfl⟩ := h
  cases hd.symm.trans hd'
  obtain ⟨rfl, hfree, hrows, -⟩ := Handle.store_spec (Handle.ofTable_coherent _)
    (fun id => { row with id := id }) (fun _ => rfl) hid hstored
  refine ⟨rfl, hfree, hrows, ?_, ⟨_, hrows, ?_⟩, rfl⟩
  · rw [hd]
    exact modifyScan_rows ..
  · rw [hd]
    obtain ⟨-, -, hid⟩ := decision_key hd
    exact congrArg (· :: []) hid

theorem distribute_decides (h : distribute env ctx s args = .ok r) :
    ∃ row out, decision env ctx s args = .ok (row, out) := by
  rw [distribute_eq_decision, bind_ok] at h
  obtain ⟨⟨row, out⟩, hd, -⟩ := h
  exact ⟨row, out, hd⟩

-- ---------------------------------------------------------------------------
-- The log never fills up
-- ---------------------------------------------------------------------------

def LogCounted (s : State) : Prop := (firstFree s.rewardsrec).toNat = s.rewardsrec.rows.length

theorem LogCounted.step (h : LogCounted s) (hx : exec env s a = .ok (s', out)) : LogCounted s' := by
  cases exec_effect hx with
  | reset _ => rfl
  | configured _ hs =>
    unfold LogCounted
    rw [hs.rewards]
    exact h
  | recorded _ => exact h
  | cleared _ => exact h
  | @distributed ctx args _ _ _ _ _ _ _ =>
    have hx : distribute env ctx s args = .ok (s', out) := hx
    obtain ⟨row, out', hd⟩ := distribute_decides hx
    obtain ⟨-, hfree, hrows, -⟩ := distribute_decided hd hx
    have hnext : firstFree s'.rewardsrec = Handle.successor (firstFree s.rewardsrec) :=
      Handle.firstFree_append hrows
    rw [LogCounted, hnext, Handle.successor_toNat hfree, h, hrows, List.length_append,
      List.length_singleton]

/-- There are 2^40 pairs of game and cycle, and one row for each at most. -/
theorem Invariant.log_length_le (h : Invariant s) : s.rewardsrec.rows.length ≤ 2 ^ 40 := by
  have hnodup : (s.rewardsrec.rows.map fun d =>
      d.gameId.toNat * 2 ^ 32 + d.cycleNumber.toNat).Nodup := by
    refine List.Nodup.map_on (fun d hd d' hd' hsame => ?_) s.rewardsrec.nodup
    have hlt := d.cycleNumber.toNat_lt
    have hlt' := d'.cycleNumber.toNat_lt
    exact h.once d hd d' hd' (UInt8.toNat_inj.mp (by omega)) (UInt32.toNat_inj.mp (by omega))
  have hsub : s.rewardsrec.rows.map (fun d => d.gameId.toNat * 2 ^ 32 + d.cycleNumber.toNat) ⊆
      List.range (2 ^ 40) := by
    intro n hn
    obtain ⟨d, -, rfl⟩ := List.mem_map.mp hn
    have hgame := d.gameId.toNat_lt
    have hcycle := d.cycleNumber.toNat_lt
    exact List.mem_range.mpr (by omega)
  have hlen := (List.subperm_of_subset hnodup hsub).length_le
  rwa [List.length_map, List.length_range] at hlen

theorem run_log_room (env : Env) (actions : List Action) :
    firstFree (run env actions).rewardsrec < noAvailablePrimaryKey := by
  have hdeployed : LogCounted State.deployed := rfl
  have hcounted : LogCounted (run env actions) :=
    History.run_invariant hdeployed (fun _ _ _ _ h hx => h.step hx) actions
  have hlen := (run_invariant env actions).log_length_le
  rw [UInt64.lt_iff_toNat_lt, hcounted]
  exact Nat.lt_of_le_of_lt hlen (by decide)

-- ---------------------------------------------------------------------------
-- What a decision reads and what it writes
-- ---------------------------------------------------------------------------

def State.distributed (env : Env) (ctx : Context) (s : State) (args : DistributeArgs) : State :=
  History.after (exec env) s ⟨ctx, .distribute args⟩

theorem distribute_outcome (env : Env) (ctx : Context) (args : DistributeArgs)
    (hroom : firstFree s.rewardsrec < noAvailablePrimaryKey) :
    Prod.snd <$> distribute env ctx s args = Prod.snd <$> decision env ctx s args ∧
      Written args (decision env ctx s args) s (s.distributed env ctx args) := by
  cases hd : decision env ctx s args with
  | error e =>
    have hfails : exec env s ⟨ctx, .distribute args⟩ = .error e := by
      refine (distribute_eq_decision env ctx s args).trans ?_
      rw [hd]
      rfl
    constructor
    · exact congrArg (Prod.snd <$> ·) hfails
    · rw [State.distributed, History.after_error hfails]
      exact ⟨by simp [Except.isOk, Except.toBool], ⟨[], by simp, rfl⟩, rfl⟩
  | ok decided =>
    obtain ⟨row, out⟩ := decided
    obtain ⟨h₁, h₂, hid, hstored⟩ := Handle.store_exists
      (Handle.ofTable_coherent s.rewardsrec) (fun id => { row with id := id })
      (fun _ => rfl) hroom
    obtain ⟨⟨s', out'⟩, hx⟩ : ∃ r, distribute env ctx s args = .ok r := by
      simp only [distribute_eq_decision, bind_ok, need_ok, pure_ok]
      exact ⟨_, _, hd, _, hid, h₂, hstored, rfl⟩
    obtain ⟨rfl, -, -, hwritten⟩ := distribute_decided hd hx
    constructor
    · rw [hx]
      rfl
    · have hx : exec env s ⟨ctx, .distribute args⟩ = .ok (s', out') := hx
      rw [State.distributed, History.after_ok hx, ← hd]
      exact hwritten

structure Elsewhere (gameId : UInt8) (cycleNumber : UInt32) (s s' : State) : Prop where
  frame : s' = { s with gamerecords := s'.gamerecords, rewardsrec := s'.rewardsrec }
  bucket : s'.bucket gameId cycleNumber = s.bucket gameId cycleNumber
  closed : (s'.rewardsrec.findBy RewardsRecorded.byGameCycle (cycleKey gameId cycleNumber) = none) ↔
    s.rewardsrec.findBy RewardsRecorded.byGameCycle (cycleKey gameId cycleNumber) = none

theorem Elsewhere.decision_eq (h : Elsewhere args.gameId args.cycleNumber s s') (env : Env)
    (ctx : Context) : decision env ctx s' args = decision env ctx s args := by
  have hadmission : admission env ctx s' args = admission env ctx s args := by
    simp only [admission, check_congr h.closed]
    rw [h.frame]
  rw [decision, hadmission, h.bucket]
  rfl

theorem GameRecords.inCycle_settleRow (g g' : UInt8) (c c' : UInt32) (r : GameRecords) :
    (settleRow g' c' r).inCycle g c = r.inCycle g c := by
  rw [settleRow_eq]
  rfl

theorem settleRow_elsewhere {r : GameRecords} (hne : ¬ (g' = g ∧ c' = c))
    (h : r.inCycle g c = true) : settleRow g' c' r = r := by
  obtain ⟨rfl, rfl⟩ := GameRecords.inCycle_iff.mp h
  refine if_neg fun h' => hne ?_
  obtain ⟨hgame, hcycle⟩ := GameRecords.inCycle_iff.mp h'
  exact ⟨hgame.symm, hcycle.symm⟩

theorem settleRow_comm (g g' : UInt8) (c c' : UInt32) (r : GameRecords) :
    settleRow g c (settleRow g' c' r) = settleRow g' c' (settleRow g c r) := by
  simp only [settleRow_eq, GameRecords.inCycle, Bool.or_left_comm]

theorem Written.elsewhere (h : Written args (decision env ctx s args) s s')
    (hne : ¬ (args.gameId = g ∧ args.cycleNumber = c)) : Elsewhere g c s s' where
  frame := h.frame
  bucket := by
    have hsame : ∀ r ∈ s.gamerecords.rows.filter (GameRecords.inCycle g c),
        (if (decision env ctx s args).isOk then settleRow args.gameId args.cycleNumber r else r) =
          r := by
      intro r hr
      rw [settleRow_elsewhere hne (List.mem_filter.mp hr).2, ite_self]
    have hcond : (GameRecords.inCycle g c ∘ fun r => if (decision env ctx s args).isOk then
        settleRow args.gameId args.cycleNumber r else r) = GameRecords.inCycle g c := by
      funext r
      rw [Function.comp_apply]
      split
      · exact GameRecords.inCycle_settleRow ..
      · rfl
    rw [State.bucket, h.records, List.filter_map, hcond, List.map_congr_left hsame, List.map_id']
    rfl
  closed := by
    obtain ⟨new, hrows, hnew⟩ := h.log
    have hother : ∀ d ∈ new, d.byGameCycle ≠ cycleKey g c := by
      intro d hd hkey
      have hmem : d.withoutId ∈ (decision env ctx s args).toOption.toList.map Prod.fst :=
        hnew ▸ List.mem_map_of_mem hd
      cases hdecided : decision env ctx s args with
      | error e =>
        rw [hdecided] at hmem
        cases hmem
      | ok decided =>
        rw [hdecided] at hmem
        obtain ⟨hgame, hcycle, -⟩ := decision_key hdecided
        have hrow : d.withoutId = decided.1 := List.mem_singleton.mp hmem
        rw [← hrow] at hgame hcycle
        obtain ⟨rfl, rfl⟩ := cycleKey_inj.mp hkey
        exact hne ⟨hgame.symm, hcycle.symm⟩
    rw [s'.rewardsrec.findBy_eq_none, s.rewardsrec.findBy_eq_none, hrows]
    constructor
    · exact fun hnone d hd => hnone d (List.mem_append_left _ hd)
    · intro hnone d hd
      rcases List.mem_append.mp hd with hd | hd
      · exact hnone d hd
      · exact hother d hd

-- ---------------------------------------------------------------------------
-- Either order
-- ---------------------------------------------------------------------------

theorem run_distributed (env : Env) (actions : List Action) (ctx : Context)
    (args : DistributeArgs) :
    (run env actions).distributed env ctx args =
      run env (actions ++ [⟨ctx, .distribute args⟩]) := by
  rw [run, run, History.run_append]
  rfl

theorem Written.commute (h₁ : Written args₁ d₁ s s₁) (h₁₂ : Written args₂ d₂ s₁ s₁₂)
    (h₂ : Written args₂ d₂ s s₂) (h₂₁ : Written args₁ d₁ s₂ s₂₁) :
    ∃ log new new', s₂₁ = { s₁₂ with rewardsrec := log } ∧
      s₁₂.rewardsrec.rows = s.rewardsrec.rows ++ new ∧ log.rows = s.rewardsrec.rows ++ new' ∧
      (new.map RewardsRecorded.withoutId).Perm (new'.map RewardsRecorded.withoutId) := by
  obtain ⟨new₁, hrows₁, hnew₁⟩ := h₁.log
  obtain ⟨new₂, hrows₂, hnew₂⟩ := h₂.log
  obtain ⟨new₁₂, hrows₁₂, hnew₁₂⟩ := h₁₂.log
  obtain ⟨new₂₁, hrows₂₁, hnew₂₁⟩ := h₂₁.log
  refine ⟨s₂₁.rewardsrec, new₁ ++ new₁₂, new₂ ++ new₂₁, ?_, ?_, ?_, ?_⟩
  · have hrecords : s₂₁.gamerecords = s₁₂.gamerecords := by
      refine Table.ext_rows ?_
      rw [h₂₁.records, h₂.records, h₁₂.records, h₁.records, List.map_map, List.map_map]
      refine List.map_congr_left fun r _ => ?_
      simp only [Function.comp_apply]
      split <;> split <;> first | rfl | exact settleRow_comm ..
    have hframe : s₁₂ = { s with gamerecords := s₁₂.gamerecords, rewardsrec := s₁₂.rewardsrec } :=
      h₁₂.frame.trans (by rw [h₁.frame])
    have hframe' : s₂₁ = { s with gamerecords := s₂₁.gamerecords, rewardsrec := s₂₁.rewardsrec } :=
      h₂₁.frame.trans (by rw [h₂.frame])
    rw [hframe]
    exact hrecords ▸ hframe'
  · rw [hrows₁₂, hrows₁, List.append_assoc]
  · rw [hrows₂₁, hrows₂, List.append_assoc]
  · rw [List.map_append, List.map_append, hnew₁, hnew₁₂, hnew₂, hnew₂₁]
    exact List.perm_append_comm

theorem second_distribution (env : Env) (actions : List Action) (ctx ctx' : Context)
    (args args' : DistributeArgs)
    (hne : ¬ (args'.gameId = args.gameId ∧ args'.cycleNumber = args.cycleNumber)) :
    Prod.snd <$> distribute env ctx ((run env actions).distributed env ctx' args') args =
      Prod.snd <$> distribute env ctx (run env actions) args ∧
    Written args (decision env ctx (run env actions) args)
      ((run env actions).distributed env ctx' args')
      (((run env actions).distributed env ctx' args').distributed env ctx args) := by
  obtain ⟨-, hfirst⟩ := distribute_outcome env ctx' args' (run_log_room env actions)
  obtain ⟨halone, -⟩ := distribute_outcome env ctx args (run_log_room env actions)
  have hroom := run_log_room env (actions ++ [⟨ctx', .distribute args'⟩])
  rw [← run_distributed] at hroom
  obtain ⟨hout, hwritten⟩ := distribute_outcome env ctx args hroom
  rw [(hfirst.elsewhere hne).decision_eq] at hout hwritten
  exact ⟨hout.trans halone.symm, hwritten⟩

/-- Two distributions of different cycles come out the same in either order:
each with the same transfers or the same failure, and together with the same
state, but for the ids of their rows in the log. -/
theorem distributions_independent (env : Env) (actions : List Action) (ctx₁ ctx₂ : Context)
    (args₁ args₂ : DistributeArgs)
    (hne : ¬ (args₁.gameId = args₂.gameId ∧ args₁.cycleNumber = args₂.cycleNumber)) :
    Prod.snd <$> distribute env ctx₁ ((run env actions).distributed env ctx₂ args₂) args₁ =
      Prod.snd <$> distribute env ctx₁ (run env actions) args₁ ∧
    Prod.snd <$> distribute env ctx₂ ((run env actions).distributed env ctx₁ args₁) args₂ =
      Prod.snd <$> distribute env ctx₂ (run env actions) args₂ ∧
    ∃ log new new',
      ((run env actions).distributed env ctx₂ args₂).distributed env ctx₁ args₁ =
        { ((run env actions).distributed env ctx₁ args₁).distributed env ctx₂ args₂ with
          rewardsrec := log } ∧
      (((run env actions).distributed env ctx₁ args₁).distributed env ctx₂ args₂).rewardsrec.rows =
        (run env actions).rewardsrec.rows ++ new ∧
      log.rows = (run env actions).rewardsrec.rows ++ new' ∧
      (new.map RewardsRecorded.withoutId).Perm (new'.map RewardsRecorded.withoutId) := by
  have hne' : ¬ (args₂.gameId = args₁.gameId ∧ args₂.cycleNumber = args₁.cycleNumber) :=
    fun h => hne ⟨h.1.symm, h.2.symm⟩
  have hroom := run_log_room env actions
  obtain ⟨-, h₁⟩ := distribute_outcome env ctx₁ args₁ hroom
  obtain ⟨-, h₂⟩ := distribute_outcome env ctx₂ args₂ hroom
  obtain ⟨hout₁, h₂₁⟩ := second_distribution env actions ctx₁ ctx₂ args₁ args₂ hne'
  obtain ⟨hout₂, h₁₂⟩ := second_distribution env actions ctx₂ ctx₁ args₂ args₁ hne
  exact ⟨hout₁, hout₂, h₁.commute h₁₂ h₂ h₂₁⟩

def Sample.twoCycles : List Action :=
  Sample.setup 1000 1000 100 ++ [Sample.block 1150
    (.recordgame [Sample.result 10 50 1010, Sample.result 11 40 1110])]

def Sample.afterOne (c : UInt32) : State :=
  (run Sample.env Sample.twoCycles).distributed Sample.env (Sample.context 1200)
    (Sample.payout c [60, 40])

def Sample.afterBoth (c c' : UInt32) : State :=
  (Sample.afterOne c).distributed Sample.env (Sample.context 1200) (Sample.payout c' [60, 40])

theorem two_cycles_either_order :
    Prod.snd <$> distribute Sample.env (Sample.context 1200) (Sample.afterOne 2)
        (Sample.payout 1 [60, 40]) =
      Prod.snd <$> distribute Sample.env (Sample.context 1200) (run Sample.env Sample.twoCycles)
        (Sample.payout 1 [60, 40]) ∧
    Prod.snd <$> distribute Sample.env (Sample.context 1200) (Sample.afterOne 1)
        (Sample.payout 2 [60, 40]) =
      Prod.snd <$> distribute Sample.env (Sample.context 1200) (run Sample.env Sample.twoCycles)
        (Sample.payout 2 [60, 40]) ∧
    ∃ log new new',
      Sample.afterBoth 2 1 = { Sample.afterBoth 1 2 with rewardsrec := log } ∧
      (Sample.afterBoth 1 2).rewardsrec.rows =
        (run Sample.env Sample.twoCycles).rewardsrec.rows ++ new ∧
      log.rows = (run Sample.env Sample.twoCycles).rewardsrec.rows ++ new' ∧
      (new.map RewardsRecorded.withoutId).Perm (new'.map RewardsRecorded.withoutId) :=
  distributions_independent Sample.env Sample.twoCycles (Sample.context 1200) (Sample.context 1200)
    (Sample.payout 1 [60, 40]) (Sample.payout 2 [60, 40]) (by decide)

end GameRewards

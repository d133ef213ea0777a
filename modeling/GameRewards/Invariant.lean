import GameRewards.Contract

/-!
# What holds in every reachable state

`Invariant` gathers the laws of the records and of the log of distributions.
Every action keeps it, whatever its arguments and its block time.
-/

namespace GameRewards

open MultiIndex (Table)

def State.Closed (s : State) (gameId : UInt8) (cycleNumber : UInt32) : Prop :=
  ∃ d ∈ s.rewardsrec.rows, d.gameId = gameId ∧ d.cycleNumber = cycleNumber

instance : Decidable (State.Closed s g c) := inferInstanceAs (Decidable (∃ d ∈ _, _))

structure Recorded (g : GlobalConfig) (r : GameRecords) : Prop where
  lengths : r.statsNames.length = r.statsValues.length
  started : g.cyclesInitiationTime ≤ r.gameCompletionTime
  cycle : r.cycleNumber = (r.gameCompletionTime - g.cyclesInitiationTime) / g.cycleLengthSec + 1

structure Invariant (s : State) : Prop where
  globals : ∀ g, s.globalconfig = some g → g.Valid
  records : ∀ r ∈ s.gamerecords.rows, ∃ g, s.globalconfig = some g ∧ Recorded g r
  distinct : ∀ r ∈ s.gamerecords.rows, ∀ r' ∈ s.gamerecords.rows, r.SameResult r' → r = r'
  once : ∀ d ∈ s.rewardsrec.rows, ∀ d' ∈ s.rewardsrec.rows,
    d.gameId = d'.gameId → d.cycleNumber = d'.cycleNumber → d = d'
  flagged : ∀ r ∈ s.gamerecords.rows, r.rewardsDistributed = true → s.Closed r.gameId r.cycleNumber

theorem Invariant.stats_lengths (h : Invariant s) :
    ∀ r ∈ s.gamerecords.rows, r.statsNames.length = r.statsValues.length := by
  intro r hr
  obtain ⟨g, -, hrec⟩ := h.records r hr
  exact hrec.lengths

theorem Invariant.deployed : Invariant State.deployed where
  globals := by intro g h; cases h
  records := by intro r h; cases h
  distinct := by intro r h; cases h
  once := by intro d h; cases h
  flagged := by intro r h; cases h

theorem Invariant.reset (h : InitArgs.Accepted args now) :
    Invariant { State.deployed with globalconfig := some args.toGlobal } where
  globals := by
    intro g hg
    cases hg
    exact h.valid
  records := by intro r h; cases h
  distinct := by intro r h; cases h
  once := by intro d h; cases h
  flagged := by intro r h; cases h

theorem Invariant.configured (h : Invariant s) (hs : SameLedger s s') : Invariant s' := by
  obtain ⟨hg, hr, hw⟩ := hs
  constructor
  · rw [hg]; exact h.globals
  · rw [hg, hr]; exact h.records
  · rw [hr]; exact h.distinct
  · rw [hw]; exact h.once
  · unfold State.Closed
    rw [hr, hw]
    exact h.flagged

/-- Two results in one cycle of the current globals cannot differ in their
cycle: the check of one bucket is a check of the whole table. -/
theorem Invariant.new (h : Invariant s) (hg : s.globalconfig = some g) (hrow : Recorded g row)
    (hnew : ∀ r ∈ s.gamerecords.rows, r.cycleNumber = row.cycleNumber → ¬ r.SameResult row) :
    ∀ r ∈ s.gamerecords.rows, ¬ r.SameResult row := by
  intro r hr hsame
  obtain ⟨g', hg', hrec⟩ := h.records r hr
  rw [hg] at hg'
  cases hg'
  refine hnew r hr ?_ hsame
  rw [hrec.cycle, hrow.cycle, hsame.time]

theorem Invariant.stored (h : Invariant { s with gamerecords := t }) (hrow : Stored ctx s t row)
    (hrows : t'.rows = t.rows ++ [row]) : Invariant { s with gamerecords := t' } := by
  obtain ⟨g, hg, -, hstart, hcycle⟩ := determineCycle_ok hrow.cycle
  have hrec : Recorded g row := ⟨hrow.lengths, hstart, hcycle⟩
  have hnew : ∀ r ∈ t.rows, ¬ r.SameResult row := h.new hg hrec hrow.new
  constructor
  · exact h.globals
  · simp only [hrows, List.mem_append, List.mem_singleton]
    rintro r (hr | rfl)
    · exact h.records r hr
    · exact ⟨g, hg, hrec⟩
  · simp only [hrows, List.mem_append, List.mem_singleton]
    rintro r (hr | rfl) r' (hr' | rfl) hsame
    · exact h.distinct r hr r' hr' hsame
    · exact absurd hsame (hnew r hr)
    · exact absurd hsame.symm (hnew r' hr')
    · rfl
  · exact h.once
  · simp only [hrows, List.mem_append, List.mem_singleton]
    rintro r (hr | rfl) hflag
    · exact h.flagged r hr hflag
    · simp [hrow.undistributed] at hflag

theorem Invariant.cleared (h : Invariant s) (hsub : ∀ r ∈ t.rows, r ∈ s.gamerecords.rows) :
    Invariant { s with gamerecords := t } where
  globals := h.globals
  records r hr := h.records r (hsub r hr)
  distinct r hr r' hr' := h.distinct r (hsub r hr) r' (hsub r' hr')
  once := h.once
  flagged r hr := h.flagged r (hsub r hr)

theorem GameRecords.SameResult.of_settleRow (h : (settleRow g c r).SameResult (settleRow g c r')) :
    r.SameResult r' := by
  simp only [settleRow_eq] at h
  exact ⟨h.game, h.player, h.names, h.values, h.time⟩

theorem Distribution.closed_iff
    (hd : Distribution env ctx s args s' out global token distConfig row) :
    s'.Closed g c ↔ s.Closed g c ∨ args.gameId = g ∧ args.cycleNumber = c := by
  simp only [State.Closed, hd.rewards_rows, List.mem_append, List.mem_singleton, or_and_right,
    exists_or, exists_eq_left, hd.settlement.game, hd.settlement.cycle]

theorem Invariant.distributed (h : Invariant s)
    (hd : Distribution env ctx s args s' out global token distConfig row) : Invariant s' := by
  have hglobals : s'.globalconfig = s.globalconfig := by rw [hd.frame]
  constructor
  · rw [hglobals]; exact h.globals
  · simp only [hd.records_rows, List.mem_map]
    rintro _ ⟨r, hr, rfl⟩
    obtain ⟨g, hg, hrec⟩ := h.records r hr
    rw [settleRow_eq]
    exact ⟨g, hglobals.trans hg, hrec.lengths, hrec.started, hrec.cycle⟩
  · simp only [hd.records_rows, List.mem_map]
    rintro _ ⟨r, hr, rfl⟩ _ ⟨r', hr', rfl⟩ hsame
    rw [h.distinct r hr r' hr' hsame.of_settleRow]
  · have hopen := hd.open_cycle
    rw [← hd.settlement.game, ← hd.settlement.cycle] at hopen
    simp only [hd.rewards_rows, List.mem_append, List.mem_singleton]
    rintro d (hmem | rfl) d' (hmem' | rfl) hgame hcycle
    · exact h.once d hmem d' hmem' hgame hcycle
    · exact absurd ⟨hgame, hcycle⟩ (hopen d hmem)
    · exact absurd ⟨hgame.symm, hcycle.symm⟩ (hopen d' hmem')
    · rfl
  · simp only [hd.records_rows, List.mem_map]
    rintro _ ⟨r, hr, rfl⟩ hflag
    rw [settleRow_eq] at hflag ⊢
    rw [hd.closed_iff]
    rcases Bool.or_eq_true_iff.mp hflag with hin | hflag
    · obtain ⟨hgame, hcycle⟩ := GameRecords.inCycle_iff.mp hin
      exact .inr ⟨hgame.symm, hcycle.symm⟩
    · exact .inl (h.flagged r hr hflag)

theorem Invariant.step (h : Invariant s) (he : Effect env s a s' out) : Invariant s' := by
  cases he with
  | reset haccepted => exact .reset haccepted
  | configured _ hs => exact h.configured hs
  | recorded hrec =>
    exact hrec.preserves (I := fun t => Invariant { s with gamerecords := t }) h
      fun _ _ _ ht hrow hrows => ht.stored hrow hrows
  | cleared hrows => exact h.cleared fun r hr => ((hrows r).mp hr).1
  | distributed hd => exact h.distributed hd

theorem run_invariant (env : Env) (actions : List Action) : Invariant (run env actions) :=
  History.run_invariant .deployed (fun _ _ _ _ h hx => h.step (exec_effect hx)) actions

theorem event_invariant (h : e ∈ events env actions) : Invariant e.pre := by
  obtain ⟨js, hjs⟩ := History.pre_reached h
  rw [← hjs]
  exact run_invariant env js

end GameRewards

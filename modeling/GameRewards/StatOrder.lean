import GameRewards.Batches
import GameRewards.Columns

/-!
# The order of the stats

A record with its stats in another order passes the same checks and has the
same score for every stat it gives one value. But to the search for duplicates,
which compares the vectors place by place, it is another record.
-/

namespace GameRewards

open MultiIndex (Table Handle)
open MultiIndex.Handle (firstFree noAvailablePrimaryKey)

/-- The same record with its names and values rearranged together. -/
structure Permuted (record record' : GameRecordData) : Prop where
  game : record.gameId = record'.gameId
  player : record.player = record'.player
  time : record.completionTime = record'.completionTime
  stats : Columns.Rearranged record.statsNames record.statsValues record'.statsNames
    record'.statsValues

-- ---------------------------------------------------------------------------
-- The same checks
-- ---------------------------------------------------------------------------

theorem Permuted.validRecord_eq (h : Permuted record record') (ctx : Context)
    (configs : Table GameConfig.primaryKey) :
    validRecord ctx configs record = validRecord ctx configs record' := by
  unfold validRecord
  rw [h.player, h.game]
  cases configs.find record'.gameId.toUInt64 with
  | none => rfl
  | some game =>
    simp only [← h.stats.keys_length, ← h.stats.values_length]
    by_cases hlen : record.statsNames.length = record.statsValues.length
    · rw [(h.stats.keys_perm hlen).all_eq]
    · rw [beq_eq_false_iff_ne.mpr hlen, Bool.false_and, Bool.false_and]

theorem Permuted.acceptable_eq (h : Permuted record record') (ctx : Context) (s : State)
    (g : GlobalConfig) : acceptable ctx s g record = acceptable ctx s g record' := by
  have htime : InTime ctx g record ↔ InTime ctx g record' := by
    unfold InTime
    rw [h.time]
  rw [acceptable, acceptable, h.validRecord_eq, decide_eq_decide.mpr htime]

inductive TreatedAlike (ctx : Context) (s : State) (b : Batch) (record record' : GameRecordData) :
    Prop
  | failed : recordOne ctx s b record = .error e → recordOne ctx s b record' = .error e →
      TreatedAlike ctx s b record record'
  | skipped : recordOne ctx s b record = .ok b → recordOne ctx s b record' = .ok b →
      TreatedAlike ctx s b record record'
  | stored : recordOne ctx s b record = .ok b₁ → recordOne ctx s b record' = .ok b₂ →
      b₁.gamerecords.table.rows = b.gamerecords.table.rows ++ [row] → row.reported = record →
      b₂.gamerecords.table.rows = b.gamerecords.table.rows ++
        [{ row with statsNames := record'.statsNames, statsValues := record'.statsValues }] →
      b₁.processedCount = b₂.processedCount → TreatedAlike ctx s b record record'

section
variable {ctx : Context} {s : State} {g : GlobalConfig} {b : Batch}
  {record record' : GameRecordData}

theorem Permuted.treatedAlike_new (h : Permuted record record') (hl : LoopState s g b)
    (hacceptable : acceptable ctx s g record = true)
    (hnew : record ∉ resultsIn b.gamerecords.table)
    (hnew' : record' ∉ resultsIn b.gamerecords.table) : TreatedAlike ctx s b record record' := by
  have hacceptable' : acceptable ctx s g record' = true := h.acceptable_eq ctx s g ▸ hacceptable
  by_cases hfree : firstFree b.gamerecords.table < noAvailablePrimaryKey
  · obtain ⟨b₁, h₁⟩ := recordOne_exists hl hacceptable hnew hfree
    obtain ⟨b₂, h₂⟩ := recordOne_exists hl hacceptable' hnew' hfree
    have hgrown₁ := recordOne_takes hl hacceptable hnew h₁
    have hgrown₂ := recordOne_takes hl hacceptable' hnew' h₂
    refine .stored h₁ h₂ hgrown₁.added.rows rfl ?_ (hgrown₁.count.trans hgrown₂.count.symm)
    have hrow : ∀ k, rowOf ctx g k record' = { rowOf ctx g k record with
        statsNames := record'.statsNames, statsValues := record'.statsValues } := by
      intro k
      simp only [rowOf, h.player, h.game, h.time]
    rw [hgrown₂.added.rows, ← hrow]
    rfl
  · have hnone : b.gamerecords.availablePrimaryKey = none := by
      rw [Handle.availablePrimaryKey_eq hl.coherent, if_neg hfree]
    refine .failed (e := .check "next primary key in table is at autoincrement limit") ?_ ?_
    · rw [recordOne_new hl hacceptable hnew, hnone]
      rfl
    · rw [recordOne_new hl hacceptable' hnew', hnone]
      rfl

theorem Permuted.treatedAlike (h : Permuted record record')
    (hb : ∀ g, s.globalconfig = some g → LoopState s g b)
    (hsame : record ∈ resultsIn b.gamerecords.table ↔ record' ∈ resultsIn b.gamerecords.table) :
    TreatedAlike ctx s b record record' := by
  by_cases hrecord : validRecord ctx s.gameconfig record = true
  · have hrecord' : validRecord ctx s.gameconfig record' = true :=
      h.validRecord_eq ctx s.gameconfig ▸ hrecord
    cases hcycle : determineCycle ctx s.globalconfig record.completionTime with
    | error e =>
      refine .failed (e := e) ?_ ?_
      · rw [recordOne, if_pos hrecord, hcycle]
        rfl
      · rw [recordOne, if_pos hrecord', ← h.time, hcycle]
        rfl
    | ok c =>
      obtain ⟨g, hg, hnow, hstart, -⟩ := determineCycle_ok hcycle
      have hl := hb g hg
      have hin : InTime ctx g record := ⟨hstart, hnow⟩
      have hin' : InTime ctx g record' := by rwa [InTime, ← h.time]
      by_cases hstored : record ∈ resultsIn b.gamerecords.table
      · refine .skipped ?_ ?_
        · exact recordOne_skip hl (fun _ => hin) (.inr hstored)
        · exact recordOne_skip hl (fun _ => hin') (.inr (hsame.mp hstored))
      · have hacceptable : acceptable ctx s g record = true := by simp [acceptable, hrecord, hin]
        have hstored' : record' ∉ resultsIn b.gamerecords.table := fun h' => hstored (hsame.mpr h')
        exact h.treatedAlike_new hl hacceptable hstored hstored'
  · have hrecord' : ¬ validRecord ctx s.gameconfig record' = true :=
      h.validRecord_eq ctx s.gameconfig ▸ hrecord
    refine .skipped ?_ ?_
    · rw [recordOne, if_neg hrecord]
      rfl
    · rw [recordOne, if_neg hrecord']
      rfl

end

theorem score_eq_lookup (r : GameRecords) (statName : Name) :
    r.score statName = Columns.lookup r.statsNames r.statsValues statName := rfl

theorem Permuted.score_eq (h : Permuted (GameRecords.reported r) (GameRecords.reported r'))
    (hlen : r.statsNames.length = r.statsValues.length)
    (hone : ∀ v v', (statName, v) ∈ r.statsNames.zip r.statsValues →
      (statName, v') ∈ r.statsNames.zip r.statsValues → v = v') :
    r.score statName = r'.score statName := by
  rw [score_eq_lookup, score_eq_lookup]
  exact h.stats.lookup_eq hlen hone

theorem foldlM_loopState (env : Env) (actions : List Action)
    (h : List.foldlM (recordOne ctx (run env actions))
      ⟨.ofTable (run env actions).gamerecords, 0⟩ before = .ok b)
    (hg : (run env actions).globalconfig = some g) : LoopState (run env actions) g b := by
  have hl := LoopState.start (run_invariant env actions) hg
  obtain ⟨-, hgrown⟩ := foldlM_recordOne_grown hl h
  exact hl.grown hgrown

/-- At any place in a batch, a record and its permutation pass the same checks;
each is a duplicate of itself in the same order only, and when this does not
part them they are treated alike. Stored, they have the same score for every stat
they give one value. -/
theorem stats_order_parts_duplicates_only (env : Env) (actions : List Action) (ctx : Context)
    (before : List GameRecordData) (b : Batch) (record record' : GameRecordData)
    (hb : before.foldlM (recordOne ctx (run env actions))
      ⟨.ofTable (run env actions).gamerecords, 0⟩ = .ok b) (h : Permuted record record') :
    validRecord ctx (run env actions).gameconfig record =
      validRecord ctx (run env actions).gameconfig record' ∧
    (∀ c, determineCycle ctx (run env actions).globalconfig record.completionTime = .ok c →
      (isDuplicateEntry b.gamerecords.table record c = true ↔
        ∃ r ∈ b.gamerecords.table.rows, r.reported = record) ∧
      (isDuplicateEntry b.gamerecords.table record' c = true ↔
        ∃ r ∈ b.gamerecords.table.rows, r.reported = record')) ∧
    (((∃ r ∈ b.gamerecords.table.rows, r.reported = record) ↔
        ∃ r ∈ b.gamerecords.table.rows, r.reported = record') →
      TreatedAlike ctx (run env actions) b record record') ∧
    ∀ later, ∀ r ∈ (run env later).gamerecords.rows, ∀ r' ∈ (run env later).gamerecords.rows,
      r.reported = record → r'.reported = record' → ∀ statName,
      (∀ v v', (statName, v) ∈ record.statsNames.zip record.statsValues →
        (statName, v') ∈ record.statsNames.zip record.statsValues → v = v') →
      r.score statName = r'.score statName := by
  have hstored : ∀ record, record ∈ resultsIn b.gamerecords.table ↔
      ∃ r ∈ b.gamerecords.table.rows, r.reported = record := fun _ => List.mem_map
  have hloop : ∀ g, (run env actions).globalconfig = some g → LoopState (run env actions) g b :=
    fun _ => foldlM_loopState env actions hb
  refine ⟨h.validRecord_eq _ _, fun c hc => ?_, fun hsame => ?_, ?_⟩
  · obtain ⟨g, hg, -, -, rfl⟩ := determineCycle_ok hc
    have hd := (hloop g hg).dated
    constructor
    · rw [← hstored]
      exact hd.isDuplicateEntry_iff
    · rw [← hstored, h.time]
      exact hd.isDuplicateEntry_iff
  · rw [← hstored, ← hstored] at hsame
    exact h.treatedAlike hloop hsame
  · rintro later r hr r' - rfl rfl statName hone
    exact h.score_eq ((run_invariant env later).stats_lengths r hr) hone

def Sample.deaths : Name := ⟨8⟩

def Sample.twoStats : List Action :=
  Sample.setup 1000 1000 100 ++
    [Sample.block 1001 (.setgame ⟨1, [], [], [Sample.kills, Sample.deaths]⟩)]

def Sample.listed (names : List Name) (values : List UInt64) : GameRecordData :=
  ⟨1, ⟨10⟩, names, values, 1010⟩

theorem sample_permuted : Permuted (Sample.listed [Sample.kills, Sample.deaths] [50, 3])
    (Sample.listed [Sample.deaths, Sample.kills] [3, 50]) :=
  ⟨rfl, rfl, rfl, rfl, rfl, fun _ => .swap ..⟩

def Sample.untouched : Batch := ⟨.ofTable (run Sample.env Sample.twoStats).gamerecords, 0⟩

theorem relisted_checks_equal :
    validRecord (Sample.context 1050) (run Sample.env Sample.twoStats).gameconfig
        (Sample.listed [Sample.kills, Sample.deaths] [50, 3]) =
      validRecord (Sample.context 1050) (run Sample.env Sample.twoStats).gameconfig
        (Sample.listed [Sample.deaths, Sample.kills] [3, 50]) ∧
    (∀ c, determineCycle (Sample.context 1050) (run Sample.env Sample.twoStats).globalconfig 1010 =
        .ok c →
      (isDuplicateEntry Sample.untouched.gamerecords.table
          (Sample.listed [Sample.kills, Sample.deaths] [50, 3]) c = true ↔
        ∃ r ∈ Sample.untouched.gamerecords.table.rows,
          r.reported = Sample.listed [Sample.kills, Sample.deaths] [50, 3]) ∧
      (isDuplicateEntry Sample.untouched.gamerecords.table
          (Sample.listed [Sample.deaths, Sample.kills] [3, 50]) c = true ↔
        ∃ r ∈ Sample.untouched.gamerecords.table.rows,
          r.reported = Sample.listed [Sample.deaths, Sample.kills] [3, 50])) ∧
    (((∃ r ∈ Sample.untouched.gamerecords.table.rows,
          r.reported = Sample.listed [Sample.kills, Sample.deaths] [50, 3]) ↔
        ∃ r ∈ Sample.untouched.gamerecords.table.rows,
          r.reported = Sample.listed [Sample.deaths, Sample.kills] [3, 50]) →
      TreatedAlike (Sample.context 1050) (run Sample.env Sample.twoStats) Sample.untouched
        (Sample.listed [Sample.kills, Sample.deaths] [50, 3])
        (Sample.listed [Sample.deaths, Sample.kills] [3, 50])) ∧
    ∀ later, ∀ r ∈ (run Sample.env later).gamerecords.rows,
      ∀ r' ∈ (run Sample.env later).gamerecords.rows,
      r.reported = Sample.listed [Sample.kills, Sample.deaths] [50, 3] →
      r'.reported = Sample.listed [Sample.deaths, Sample.kills] [3, 50] → ∀ statName,
      (∀ v v', (statName, v) ∈ [Sample.kills, Sample.deaths].zip [(50 : UInt64), 3] →
        (statName, v') ∈ [Sample.kills, Sample.deaths].zip [(50 : UInt64), 3] → v = v') →
      r.score statName = r'.score statName :=
  stats_order_parts_duplicates_only Sample.env Sample.twoStats (Sample.context 1050) []
    Sample.untouched _ _ rfl sample_permuted

/-- The other order is stored as well, and a stat that is named twice has the
score of its first place. -/
theorem relisted_stored_twice :
    (¬ ∀ (env : Env) (actions : List Action) (ctx : Context) (record record' : GameRecordData)
      (s' : State), Permuted record record' →
      (∃ r ∈ (run env actions).gamerecords.rows, r.reported = record) →
      recordgame env ctx (run env actions) [record'] ≠ .ok s') ∧
    ¬ ∀ (env : Env) (actions : List Action), ∀ r ∈ (run env actions).gamerecords.rows,
      ∀ r' ∈ (run env actions).gamerecords.rows, Permuted r.reported r'.reported →
      ∀ statName, r.score statName = r'.score statName := by
  constructor
  · intro h
    exact h Sample.env (Sample.twoStats ++ [Sample.block 1050
      (.recordgame [Sample.listed [Sample.kills, Sample.deaths] [50, 3]])]) (Sample.context 1050)
      _ _ _ sample_permuted ⟨_, .head _, rfl⟩ rfl
  · intro h
    have hscore := h Sample.env (Sample.setup 1000 1000 100 ++ [Sample.block 1050 (.recordgame
        [Sample.listed [Sample.kills, Sample.kills] [1, 2],
          Sample.listed [Sample.kills, Sample.kills] [2, 1]])])
      ⟨0, ⟨10⟩, 1, [Sample.kills, Sample.kills], [1, 2], 1, false, 1010, 1050⟩ (by decide)
      ⟨1, ⟨10⟩, 1, [Sample.kills, Sample.kills], [2, 1], 1, false, 1010, 1050⟩ (by decide)
      ⟨rfl, rfl, rfl, rfl, rfl, fun _ => .swap ..⟩ Sample.kills
    exact absurd hscore (by decide)

end GameRewards

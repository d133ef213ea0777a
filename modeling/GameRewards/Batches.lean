import GameRewards.Invariant
import GameRewards.Intake

/-!
# What a batch adds

`recordgame` takes in the acceptable results of its batch that are not stored
yet. A result outside the time window that passes the other checks is not
skipped: it fails the batch. How results are spread over batches makes no
difference, and their order only to the ids.
-/

namespace GameRewards

open MultiIndex (Table Handle)
open MultiIndex.Handle (firstFree noAvailablePrimaryKey numbered successor)

/-- The cycle of a completion time that `determine_cycle` lets pass. -/
def GlobalConfig.cycleAt (g : GlobalConfig) (t : TimePointSec) : UInt32 :=
  (t - g.cyclesInitiationTime) / g.cycleLengthSec + 1

def InTime (ctx : Context) (g : GlobalConfig) (record : GameRecordData) : Prop :=
  g.cyclesInitiationTime ≤ record.completionTime ∧ record.completionTime ≤ ctx.now

instance : Decidable (InTime ctx g record) := inferInstanceAs (Decidable (_ ∧ _))

def acceptable (ctx : Context) (s : State) (g : GlobalConfig) (record : GameRecordData) : Bool :=
  validRecord ctx s.gameconfig record && decide (InTime ctx g record)

def resultsIn (t : Table GameRecords.primaryKey) : List GameRecordData :=
  t.rows.map GameRecords.reported

def newResults (ctx : Context) (s : State) (g : GlobalConfig) (t : Table GameRecords.primaryKey)
    (batch : List GameRecordData) : List GameRecordData :=
  Intake.intake (acceptable ctx s g) (resultsIn t) batch

theorem newResults_append {t t' : Table GameRecords.primaryKey}
    (h : resultsIn t' = resultsIn t ++ newResults ctx s g t batch) (batch' : List GameRecordData) :
    newResults ctx s g t (batch ++ batch') =
      newResults ctx s g t batch ++ newResults ctx s g t' batch' := by
  rw [newResults, Intake.intake_append, newResults, newResults, h]
  rfl

def rowOf (ctx : Context) (g : GlobalConfig) (id : UInt64) (record : GameRecordData) :
    GameRecords where
  id := id
  player := record.player
  gameId := record.gameId
  statsNames := record.statsNames
  statsValues := record.statsValues
  cycleNumber := g.cycleAt record.completionTime
  rewardsDistributed := false
  gameCompletionTime := record.completionTime
  lastUpdated := ctx.now

@[simp] theorem rowOf_primaryKey (ctx : Context) (g : GlobalConfig) (id : UInt64)
    (record : GameRecordData) : (rowOf ctx g id record).primaryKey = id := rfl

@[simp] theorem rowOf_reported (ctx : Context) (g : GlobalConfig) (id : UInt64)
    (record : GameRecordData) : (rowOf ctx g id record).reported = record := rfl

def Dated (g : GlobalConfig) (t : Table GameRecords.primaryKey) : Prop :=
  ∀ r ∈ t.rows, r.cycleNumber = g.cycleAt r.gameCompletionTime

-- ---------------------------------------------------------------------------
-- One record
-- ---------------------------------------------------------------------------

theorem determineCycle_inTime (hg : globals = some g) (hvalid : g.Valid) (h : InTime ctx g record) :
    determineCycle ctx globals record.completionTime = .ok (g.cycleAt record.completionTime) := by
  have hlen : g.cycleLengthSec ≠ 0 := (UInt32.ne_of_lt hvalid.length_pos).symm
  simp only [determineCycle, bind_ok, need_ok, check_ok, pure_ok, div32_ok]
  exact ⟨g, hg, (), hvalid.length_pos, (), h.2, (), h.1, _, ⟨hlen, rfl⟩, rfl⟩

theorem reports_iff {r : GameRecords} :
    r.gameId = record.gameId ∧ r.reports record = true ↔ r.reported = record := by
  cases record
  simp only [GameRecords.reports, GameRecords.reported, Bool.and_eq_true, beq_iff_eq,
    GameRecordData.mk.injEq, and_assoc]

theorem Dated.isDuplicateEntry_iff {t : Table GameRecords.primaryKey} (h : Dated g t) :
    isDuplicateEntry t record (g.cycleAt record.completionTime) = true ↔ record ∈ resultsIn t := by
  simp only [GameRewards.isDuplicateEntry_iff, resultsIn, List.mem_map, ← reports_iff]
  constructor
  · rintro ⟨r, hr, hgame, -, hreports⟩
    exact ⟨r, hr, hgame, hreports⟩
  · rintro ⟨r, hr, hsame⟩
    have hreported : r.reported = record := reports_iff.mp hsame
    refine ⟨r, hr, hsame.1, ?_, hsame.2⟩
    rw [h r hr, ← hreported]
    rfl

/-- The table after the results `new` were stored. -/
structure Added (ctx : Context) (g : GlobalConfig) (t t' : Table GameRecords.primaryKey)
    (new : List GameRecordData) : Prop where
  rows : t'.rows = t.rows ++ numbered (rowOf ctx g) (firstFree t) new
  room : (firstFree t).toNat + new.length ≤ noAvailablePrimaryKey.toNat

theorem Added.refl (t : Table GameRecords.primaryKey) : Added ctx g t t [] where
  rows := by simp [numbered]
  room := UInt64.le_iff_toNat_le.mp (Handle.firstFree_le t)

theorem Added.firstFree_toNat (h : Added ctx g t t' new) :
    (firstFree t').toNat = (firstFree t).toNat + new.length := by
  rw [Handle.firstFree_numbered (rowOf_primaryKey ctx g) h.rows,
    Handle.successor_iterate_toNat h.room]

theorem Added.trans (h : Added ctx g t t₁ new) (h' : Added ctx g t₁ t' new') :
    Added ctx g t t' (new ++ new') := by
  have hroom := h'.room
  rw [h.firstFree_toNat] at hroom
  constructor
  · rw [h'.rows, h.rows, Handle.firstFree_numbered (rowOf_primaryKey ctx g) h.rows,
      Handle.numbered_append, List.append_assoc]
  · rw [List.length_append]
    omega

theorem Added.results (h : Added ctx g t t' new) : resultsIn t' = resultsIn t ++ new := by
  have hmap : (numbered (rowOf ctx g) (firstFree t) new).map GameRecords.reported = new.map id :=
    Handle.map_numbered (rowOf_reported ctx g) _ _
  rw [resultsIn, h.rows, List.map_append, hmap, List.map_id, resultsIn]

theorem Added.dated (h : Added ctx g t t' new) (hd : Dated g t) : Dated g t' := by
  intro r hr
  rw [h.rows, List.mem_append] at hr
  rcases hr with hr | hr
  · exact hd r hr
  · obtain ⟨_, _, -, rfl⟩ := Handle.mem_numbered hr
    rfl

structure Grown (ctx : Context) (g : GlobalConfig) (b b' : Batch) (new : List GameRecordData) :
    Prop where
  added : Added ctx g b.gamerecords.table b'.gamerecords.table new
  count : b'.processedCount = b.processedCount + UInt32.ofNat new.length
  coherent : b'.gamerecords.Coherent

theorem Grown.refl (h : b.gamerecords.Coherent) : Grown ctx g b b [] :=
  ⟨.refl _, by simp, h⟩

theorem Grown.trans (h : Grown ctx g b b₁ new) (h' : Grown ctx g b₁ b' new') :
    Grown ctx g b b' (new ++ new') := by
  constructor
  · exact h.added.trans h'.added
  · rw [h'.count, h.count, UInt32.add_assoc, ← UInt32.ofNat_add, ← List.length_append]
  · exact h'.coherent

structure LoopState (s : State) (g : GlobalConfig) (b : Batch) : Prop where
  globals : s.globalconfig = some g
  valid : g.Valid
  dated : Dated g b.gamerecords.table
  coherent : b.gamerecords.Coherent

theorem LoopState.start (h : Invariant s) (hg : s.globalconfig = some g) :
    LoopState s g ⟨.ofTable s.gamerecords, 0⟩ where
  globals := hg
  valid := h.globals g hg
  dated r hr := by
    obtain ⟨g', hg', hrec⟩ := h.records r hr
    obtain rfl : g' = g := Option.some.inj (hg'.symm.trans hg)
    exact hrec.cycle
  coherent := Handle.ofTable_coherent _

theorem LoopState.grown (hl : LoopState s g b) (h : Grown ctx g b b' new) : LoopState s g b' :=
  ⟨hl.globals, hl.valid, h.added.dated hl.dated, h.coherent⟩

theorem LoopState.added (hl : LoopState s g ⟨.ofTable s.gamerecords, 0⟩)
    (h : Added ctx g s.gamerecords t new) :
    LoopState { s with gamerecords := t } g ⟨.ofTable t, 0⟩ :=
  ⟨hl.globals, hl.valid, h.dated hl.dated, Handle.ofTable_coherent t⟩

section
variable {ctx : Context} {s : State} {g : GlobalConfig} {b b' : Batch}

theorem recordOne_inTime (hg : s.globalconfig = some g) (h : recordOne ctx s b record = .ok b')
    (hrecord : validRecord ctx s.gameconfig record = true) : InTime ctx g record := by
  rw [recordOne, if_pos hrecord, bind_ok] at h
  obtain ⟨c, hc, -⟩ := h
  obtain ⟨g', hg', hnow, hstart, -⟩ := determineCycle_ok hc
  obtain rfl : g' = g := Option.some.inj (hg'.symm.trans hg)
  exact ⟨hstart, hnow⟩

theorem recordOne_skip (hl : LoopState s g b)
    (htime : validRecord ctx s.gameconfig record = true → InTime ctx g record)
    (h : acceptable ctx s g record = false ∨ record ∈ resultsIn b.gamerecords.table) :
    recordOne ctx s b record = .ok b := by
  unfold recordOne
  split
  · rename_i hrecord
    have hin := htime hrecord
    have hstored : record ∈ resultsIn b.gamerecords.table := by
      simpa [acceptable, hrecord, hin] using h
    rw [determineCycle_inTime hl.globals hl.valid hin]
    exact if_pos (hl.dated.isDuplicateEntry_iff.mpr hstored)
  · rfl

theorem recordOne_new (hl : LoopState s g b) (hacceptable : acceptable ctx s g record = true)
    (hnew : record ∉ resultsIn b.gamerecords.table) :
    recordOne ctx s b record = (do
      let (id, gamerecords) ← need b.gamerecords.availablePrimaryKey
        "next primary key in table is at autoincrement limit"
      let gamerecords ← need (gamerecords.emplace (rowOf ctx g id record)) keyTaken
      pure { gamerecords := gamerecords, processedCount := b.processedCount + 1 }) := by
  simp only [acceptable, Bool.and_eq_true, decide_eq_true_eq] at hacceptable
  rw [recordOne, if_pos hacceptable.1, determineCycle_inTime hl.globals hl.valid hacceptable.2]
  exact if_neg fun hdup => hnew (hl.dated.isDuplicateEntry_iff.mp hdup)

theorem recordOne_takes (hl : LoopState s g b)
    (hacceptable : acceptable ctx s g record = true)
    (hnew : record ∉ resultsIn b.gamerecords.table) (h : recordOne ctx s b record = .ok b') :
    Grown ctx g b b' [record] := by
  rw [recordOne_new hl hacceptable hnew] at h
  simp only [bind_ok, need_ok, pure_ok] at h
  obtain ⟨⟨id, h₁⟩, hid, h₂, hstored, rfl⟩ := h
  obtain ⟨rfl, hfree, hrows, hcoherent⟩ :=
    Handle.store_spec hl.coherent (fun id => rowOf ctx g id record) (fun _ => rfl) hid hstored
  constructor
  · exact ⟨hrows, UInt64.lt_iff_toNat_lt.mp hfree⟩
  · rfl
  · exact hcoherent

theorem recordOne_exists (hl : LoopState s g b)
    (hacceptable : acceptable ctx s g record = true)
    (hnew : record ∉ resultsIn b.gamerecords.table)
    (hfree : firstFree b.gamerecords.table < noAvailablePrimaryKey) :
    ∃ b', recordOne ctx s b record = .ok b' := by
  obtain ⟨h₁, h₂, hid, hstored⟩ :=
    Handle.store_exists hl.coherent (fun id => rowOf ctx g id record) (fun _ => rfl) hfree
  rw [recordOne_new hl hacceptable hnew]
  simp only [bind_ok, need_ok, pure_ok]
  exact ⟨_, _, hid, h₂, hstored, rfl⟩

-- ---------------------------------------------------------------------------
-- The whole batch
-- ---------------------------------------------------------------------------

/-- No record that passes the checks of player, game and stats is out of time. -/
def AllInTime (ctx : Context) (s : State) (g : GlobalConfig) (batch : List GameRecordData) : Prop :=
  ∀ record ∈ batch, validRecord ctx s.gameconfig record = true → InTime ctx g record

theorem recordOne_step (hl : LoopState s g b)
    (h : recordOne ctx s b record = .ok b') :
    Grown ctx g b b' (newResults ctx s g b.gamerecords.table [record]) := by
  have htime := recordOne_inTime hl.globals h
  by_cases hnew : acceptable ctx s g record = true ∧ record ∉ resultsIn b.gamerecords.table
  · rw [newResults, Intake.intake_take hnew.1 hnew.2]
    exact recordOne_takes hl hnew.1 hnew.2 h
  · have hold : acceptable ctx s g record = false ∨ record ∈ resultsIn b.gamerecords.table := by
      simpa [or_iff_not_imp_left] using hnew
    rw [recordOne_skip hl htime hold] at h
    cases h
    rw [newResults, Intake.intake_skip hold]
    exact .refl hl.coherent

theorem foldlM_recordOne_grown (hl : LoopState s g b)
    (h : batch.foldlM (recordOne ctx s) b = .ok b') :
    AllInTime ctx s g batch ∧ Grown ctx g b b' (newResults ctx s g b.gamerecords.table batch) := by
  induction batch generalizing b with
  | nil =>
    cases pure_ok.mp h
    exact ⟨by simp [AllInTime], .refl hl.coherent⟩
  | cons record batch ih =>
    rw [List.foldlM_cons, bind_ok] at h
    obtain ⟨b₁, hone, hrest⟩ := h
    have hstep := recordOne_step hl hone
    obtain ⟨htimes, hgrown⟩ := ih (hl.grown hstep) hrest
    refine ⟨List.forall_mem_cons.mpr ⟨recordOne_inTime hl.globals hone, htimes⟩, ?_⟩
    rw [← List.singleton_append, newResults_append hstep.added.results]
    exact hstep.trans hgrown

theorem foldlM_recordOne_exists (hl : LoopState s g b)
    (htimes : AllInTime ctx s g batch)
    (hroom : (firstFree b.gamerecords.table).toNat +
      (newResults ctx s g b.gamerecords.table batch).length ≤ noAvailablePrimaryKey.toNat) :
    ∃ b', batch.foldlM (recordOne ctx s) b = .ok b' := by
  induction batch generalizing b with
  | nil => exact ⟨b, rfl⟩
  | cons record batch ih =>
    obtain ⟨htime, hrest⟩ := List.forall_mem_cons.mp htimes
    obtain ⟨b₁, hone⟩ : ∃ b₁, recordOne ctx s b record = .ok b₁ := by
      by_cases hnew : acceptable ctx s g record = true ∧ record ∉ resultsIn b.gamerecords.table
      · refine recordOne_exists hl hnew.1 hnew.2 (UInt64.lt_iff_toNat_lt.mpr ?_)
        rw [newResults, Intake.intake_take hnew.1 hnew.2, List.length_cons] at hroom
        omega
      · exact ⟨b, recordOne_skip hl htime (by simpa [or_iff_not_imp_left] using hnew)⟩
    have hstep := recordOne_step hl hone
    rw [← List.singleton_append, newResults_append hstep.added.results, List.length_append] at hroom
    obtain ⟨b', hb'⟩ := ih (hl.grown hstep) hrest (by
      rw [hstep.added.firstFree_toNat]
      omega)
    exact ⟨b', by rw [List.foldlM_cons, hone]; exact hb'⟩

structure BatchAccepted (env : Env) (ctx : Context) (s : State) (g : GlobalConfig)
    (batch : List GameRecordData) : Prop where
  auth : ctx.hasAuth env.self = true
  size : batch.length ≤ 100
  times : AllInTime ctx s g batch
  room : (firstFree s.gamerecords).toNat + (newResults ctx s g s.gamerecords batch).length ≤
    noAvailablePrimaryKey.toNat
  new : newResults ctx s g s.gamerecords batch ≠ []

/-- The counter does not wrap within one batch. -/
theorem Grown.processedCount_pos {t : Table GameRecords.primaryKey}
    (h : Grown ctx g ⟨.ofTable t, 0⟩ b (newResults ctx s g t batch)) (hsize : batch.length ≤ 100) :
    0 < b.processedCount ↔ newResults ctx s g t batch ≠ [] := by
  have hnew : (newResults ctx s g t batch).length ≤ batch.length := Intake.intake_length_le _ _
  have hcount : b.processedCount.toNat = (newResults ctx s g t batch).length := by
    rw [h.count, UInt32.zero_add, UInt32.toNat_ofNat_of_lt' (by simp only [UInt32.size]; omega)]
  rw [UInt32.lt_iff_toNat_lt, hcount, UInt32.toNat_zero, List.length_pos_iff]

theorem recordgame_added (hl : LoopState s g ⟨.ofTable s.gamerecords, 0⟩)
    (h : recordgame env ctx s batch = .ok s') :
    BatchAccepted env ctx s g batch ∧
      Added ctx g s.gamerecords s'.gamerecords (newResults ctx s g s.gamerecords batch) ∧
      s' = { s with gamerecords := s'.gamerecords } := by
  simp only [recordgame, bind_ok, requireAuth_ok, check_ok, pure_ok] at h
  obtain ⟨_, hauth, _, -, _, hsize, b, hb, _, hcount, rfl⟩ := h
  obtain ⟨htimes, hgrown⟩ := foldlM_recordOne_grown hl hb
  have hnew := (hgrown.processedCount_pos hsize).mp hcount
  exact ⟨⟨hauth, hsize, htimes, hgrown.added.room, hnew⟩, hgrown.added, rfl⟩

theorem recordgame_exists (hl : LoopState s g ⟨.ofTable s.gamerecords, 0⟩)
    (h : BatchAccepted env ctx s g batch) :
    ∃ s', recordgame env ctx s batch = .ok s' := by
  obtain ⟨b, hb⟩ := foldlM_recordOne_exists hl h.times h.room
  obtain ⟨-, hgrown⟩ := foldlM_recordOne_grown hl hb
  have hne : batch ≠ [] := by
    rintro rfl
    exact h.new rfl
  have hcount := (hgrown.processedCount_pos h.size).mpr h.new
  simp only [recordgame, bind_ok, requireAuth_ok, check_ok, pure_ok]
  exact ⟨_, (), h.auth, (), hne, (), h.size, b, hb, (), hcount, rfl⟩

end

/-- A batch with something new succeeds exactly if no record that passes the
checks of player, game and stats is out of time, and the ids suffice. Then it
adds the acceptable results that are not stored yet, each once, in batch order,
and does nothing else. -/
theorem batch_adds_new_results (env : Env) (actions : List Action) (ctx : Context)
    (batch : List GameRecordData) (hg : (run env actions).globalconfig = some g)
    (hauth : ctx.hasAuth env.self = true) (hsize : batch.length ≤ 100)
    (hnew : ∃ record ∈ batch, acceptable ctx (run env actions) g record = true ∧
      record ∉ resultsIn (run env actions).gamerecords) :
    ((∃ s', recordgame env ctx (run env actions) batch = .ok s') ↔
      AllInTime ctx (run env actions) g batch ∧
        (firstFree (run env actions).gamerecords).toNat +
            (newResults ctx (run env actions) g (run env actions).gamerecords batch).length ≤
          noAvailablePrimaryKey.toNat) ∧
    ∀ s', recordgame env ctx (run env actions) batch = .ok s' →
      s' = { run env actions with gamerecords := s'.gamerecords } ∧
      ∃ added, s'.gamerecords.rows = (run env actions).gamerecords.rows ++ added ∧
        added.map GameRecords.reported =
          newResults ctx (run env actions) g (run env actions).gamerecords batch ∧
        ∀ r ∈ added, r.cycleNumber = g.cycleAt r.gameCompletionTime ∧
          r.rewardsDistributed = false ∧ r.lastUpdated = ctx.now := by
  have hl := LoopState.start (run_invariant env actions) hg
  refine ⟨⟨?_, ?_⟩, ?_⟩
  · rintro ⟨s', h⟩
    obtain ⟨haccepted, -, -⟩ := recordgame_added hl h
    exact ⟨haccepted.times, haccepted.room⟩
  · rintro ⟨htimes, hroom⟩
    refine recordgame_exists hl ⟨hauth, hsize, htimes, hroom, ?_⟩
    obtain ⟨record, hmem, hacceptable, hunstored⟩ := hnew
    exact List.ne_nil_of_mem (Intake.mem_intake.mpr ⟨hmem, hacceptable, hunstored⟩)
  · intro s' h
    obtain ⟨-, hadded, hframe⟩ := recordgame_added hl h
    refine ⟨hframe, _, hadded.rows, ?_, fun r hr => ?_⟩
    · exact (Handle.map_numbered (rowOf_reported ctx g) _ _).trans (List.map_id _)
    · obtain ⟨_, _, -, rfl⟩ := Handle.mem_numbered hr
      exact ⟨rfl, rfl, rfl⟩

def Sample.mixed : List GameRecordData :=
  [Sample.result 10 50 1010, { Sample.result 11 40 1020 with gameId := 2 },
    Sample.result 10 50 1010]

theorem mixed_batch_succeeds :
    ∃ s', recordgame Sample.env (Sample.context 1050)
        (run Sample.env (Sample.setup 1000 1000 100)) Sample.mixed = .ok s' ∧
      s' = { run Sample.env (Sample.setup 1000 1000 100) with gamerecords := s'.gamerecords } ∧
      s'.gamerecords.rows.map GameRecords.reported = [Sample.result 10 50 1010] ∧
      ∀ r ∈ s'.gamerecords.rows,
        r.cycleNumber = 1 ∧ r.rewardsDistributed = false ∧ r.lastUpdated = 1050 := by
  have hbatch := batch_adds_new_results Sample.env (Sample.setup 1000 1000 100)
    (Sample.context 1050) Sample.mixed (g := ⟨true, 1000, 100, 1000, 10, 1⟩) rfl rfl (by decide)
    (by decide)
  obtain ⟨s', hs'⟩ := hbatch.1.mpr ⟨by unfold AllInTime; decide, by decide⟩
  obtain ⟨hframe, added, hrows, hreported, hadded⟩ := hbatch.2 s' hs'
  have hempty : (run Sample.env (Sample.setup 1000 1000 100)).gamerecords.rows = [] := rfl
  rw [hempty, List.nil_append] at hrows
  subst hrows
  have hnew : newResults (Sample.context 1050) (run Sample.env (Sample.setup 1000 1000 100))
      ⟨true, 1000, 100, 1000, 10, 1⟩ (run Sample.env (Sample.setup 1000 1000 100)).gamerecords
      Sample.mixed = [Sample.result 10 50 1010] := by decide
  have hcycle : GlobalConfig.cycleAt ⟨true, 1000, 100, 1000, 10, 1⟩ 1010 = 1 := by decide
  refine ⟨s', hs', hframe, hreported.trans hnew, fun r hr => ?_⟩
  obtain ⟨hnumber, hflag, hupdated⟩ := hadded r hr
  -- the only result of the batch that is stored was completed at 1010
  have hone : r.reported = Sample.result 10 50 1010 :=
    List.mem_singleton.mp (hreported.trans hnew ▸ List.mem_map_of_mem hr)
  have htime : r.gameCompletionTime = 1010 := congrArg GameRecordData.completionTime hone
  exact ⟨by rw [hnumber, htime, hcycle], hflag, hupdated⟩

theorem future_record_fails_batch :
    ¬ ∀ (env : Env) (actions : List Action) (ctx : Context) (batch : List GameRecordData)
      (g : GlobalConfig), (run env actions).globalconfig = some g →
      ctx.hasAuth env.self = true → batch ≠ [] → batch.length ≤ 100 →
      (∃ record ∈ batch, acceptable ctx (run env actions) g record = true ∧
        record ∉ resultsIn (run env actions).gamerecords) →
      ∃ s', recordgame env ctx (run env actions) batch = .ok s' := by
  intro h
  obtain ⟨s', hs'⟩ := h Sample.env (Sample.setup 1000 1000 100) (Sample.context 1050)
    [Sample.result 10 50 1010, Sample.result 11 40 1051] ⟨true, 1000, 100, 1000, 10, 1⟩ rfl rfl
    (by decide) (by decide) (by decide)
  have hfails : recordgame Sample.env (Sample.context 1050)
      (run Sample.env (Sample.setup 1000 1000 100))
      [Sample.result 10 50 1010, Sample.result 11 40 1051] =
      .error (.check "Game completion time cannot be in the future") := rfl
  cases hfails.symm.trans hs'

-- ---------------------------------------------------------------------------
-- Batches in parts
-- ---------------------------------------------------------------------------

def GameRecords.withoutId (r : GameRecords) : GameRecords := { r with id := 0 }

section
variable {env : Env} {ctx : Context} {s : State} {g : GlobalConfig}

theorem AllInTime.append (h : AllInTime ctx s g (batch ++ batch')) :
    AllInTime ctx s g batch ∧ AllInTime ctx s g batch' := List.forall_mem_append.mp h

theorem AllInTime.swap (h : AllInTime ctx s g (batch ++ batch')) :
    AllInTime ctx s g (batch' ++ batch) := List.forall_mem_append.mpr h.append.symm

theorem recordOne_uninitialized (hg : s.globalconfig = none)
    (h : recordOne ctx s b record = .ok b') : b' = b := by
  unfold recordOne at h
  split at h
  · rw [bind_ok] at h
    obtain ⟨c, hc, -⟩ := h
    obtain ⟨g, hg', -⟩ := determineCycle_ok hc
    cases hg.symm.trans hg'
  · exact (pure_ok.mp h).symm

theorem recordgame_initialized (h : recordgame env ctx s batch = .ok s') :
    ∃ g, s.globalconfig = some g := by
  cases hg : s.globalconfig with
  | some g => exact ⟨g, rfl⟩
  | none =>
    simp only [recordgame, bind_ok, check_ok] at h
    obtain ⟨_, -, _, -, _, -, b, hb, _, hcount, -⟩ := h
    have hcount₀ : b.processedCount = 0 :=
      foldlM_ok (P := fun b => b.processedCount = 0) hb rfl fun _ _ _ hb₁ hone =>
        recordOne_uninitialized hg hone ▸ hb₁
    rw [hcount₀] at hcount
    exact absurd hcount (UInt32.lt_irrefl 0)

theorem after_recordgame_ok (h : recordgame env ctx s batch = .ok s') :
    History.after (exec env) s ⟨ctx, .recordgame batch⟩ = s' :=
  History.after_ok (o := []) (silent_ok.mpr ⟨h, rfl⟩)

theorem after_recordgame_error (h : recordgame env ctx s batch = .error e) :
    History.after (exec env) s ⟨ctx, .recordgame batch⟩ = s := by
  have hexec : exec env s ⟨ctx, .recordgame batch⟩ = (·, []) <$> recordgame env ctx s batch := rfl
  rw [h] at hexec
  exact History.after_error hexec

theorem after_recordgame (hl : LoopState s g ⟨.ofTable s.gamerecords, 0⟩)
    (hauth : ctx.hasAuth env.self = true) (hsize : batch.length ≤ 100)
    (htimes : AllInTime ctx s g batch)
    (hroom : (firstFree s.gamerecords).toNat + (newResults ctx s g s.gamerecords batch).length ≤
      noAvailablePrimaryKey.toNat) :
    ∃ t, History.after (exec env) s ⟨ctx, .recordgame batch⟩ = { s with gamerecords := t } ∧
      Added ctx g s.gamerecords t (newResults ctx s g s.gamerecords batch) := by
  by_cases hnew : newResults ctx s g s.gamerecords batch = []
  · refine ⟨s.gamerecords, ?_, hnew ▸ .refl _⟩
    cases h : recordgame env ctx s batch with
    | error e => exact after_recordgame_error h
    | ok s' =>
      obtain ⟨haccepted, -, -⟩ := recordgame_added hl h
      exact absurd hnew haccepted.new
  · obtain ⟨s', h⟩ := recordgame_exists hl ⟨hauth, hsize, htimes, hroom, hnew⟩
    obtain ⟨-, hadded, hframe⟩ := recordgame_added hl h
    refine ⟨s'.gamerecords, ?_, hadded⟩
    rw [← hframe]
    exact after_recordgame_ok h

theorem after_two_batches (batch batch' : List GameRecordData)
    (hl : LoopState s g ⟨.ofTable s.gamerecords, 0⟩) (hauth : ctx.hasAuth env.self = true)
    (hsize : (batch ++ batch').length ≤ 100) (htimes : AllInTime ctx s g (batch ++ batch'))
    (hroom : (firstFree s.gamerecords).toNat +
      (newResults ctx s g s.gamerecords (batch ++ batch')).length ≤ noAvailablePrimaryKey.toNat) :
    ∃ t, History.after (exec env) (History.after (exec env) s ⟨ctx, .recordgame batch⟩)
        ⟨ctx, .recordgame batch'⟩ = { s with gamerecords := t } ∧
      Added ctx g s.gamerecords t (newResults ctx s g s.gamerecords (batch ++ batch')) := by
  obtain ⟨htimes₁, htimes₂⟩ := htimes.append
  rw [List.length_append] at hsize
  have hprefix : (newResults ctx s g s.gamerecords batch).length ≤
      (newResults ctx s g s.gamerecords (batch ++ batch')).length := by
    rw [newResults, newResults, Intake.intake_append, List.length_append]
    omega
  obtain ⟨t₁, hafter₁, hadded₁⟩ :=
    after_recordgame hl hauth (by omega) htimes₁ (by omega)
  rw [newResults_append hadded₁.results] at hroom ⊢
  have hroom₂ : (firstFree t₁).toNat + (newResults ctx s g t₁ batch').length ≤
      noAvailablePrimaryKey.toNat := by
    rw [List.length_append] at hroom
    rw [hadded₁.firstFree_toNat]
    omega
  obtain ⟨t₂, hafter₂, hadded₂⟩ := after_recordgame (s := { s with gamerecords := t₁ })
    (hl.added hadded₁) hauth (by omega) htimes₂ hroom₂
  rw [hafter₁]
  exact ⟨t₂, hafter₂, hadded₁.trans hadded₂⟩

end

/-- A batch that succeeds can be cut in two: the parts in order end in the same
state, and in the other order in the same rows under other ids. -/
theorem batch_cut_anywhere (env : Env) (actions : List Action) (ctx : Context)
    (batch batch' : List GameRecordData)
    (h : recordgame env ctx (run env actions) (batch ++ batch') = .ok s') :
    History.after (exec env) (History.after (exec env) (run env actions)
      ⟨ctx, .recordgame batch⟩) ⟨ctx, .recordgame batch'⟩ = s' ∧
    ∃ t added added', History.after (exec env) (History.after (exec env) (run env actions)
        ⟨ctx, .recordgame batch'⟩) ⟨ctx, .recordgame batch⟩ = { s' with gamerecords := t } ∧
      s'.gamerecords.rows = (run env actions).gamerecords.rows ++ added ∧
      t.rows = (run env actions).gamerecords.rows ++ added' ∧
      (added.map GameRecords.withoutId).Perm (added'.map GameRecords.withoutId) := by
  obtain ⟨g, hg⟩ := recordgame_initialized h
  have hl := LoopState.start (run_invariant env actions) hg
  obtain ⟨haccepted, hadded, hframe⟩ := recordgame_added hl h
  have hperm : (newResults ctx (run env actions) g (run env actions).gamerecords
      (batch ++ batch')).Perm (newResults ctx (run env actions) g (run env actions).gamerecords
      (batch' ++ batch)) := Intake.intake_comm _ _ _
  have hsize' := haccepted.size
  have hroom' := haccepted.room
  rw [List.length_append, Nat.add_comm, ← List.length_append] at hsize'
  rw [hperm.length_eq] at hroom'
  obtain ⟨t₁, hafter₁, hadded₁⟩ := after_two_batches batch batch' hl haccepted.auth
    haccepted.size haccepted.times haccepted.room
  obtain ⟨t₂, hafter₂, hadded₂⟩ := after_two_batches batch' batch hl haccepted.auth
    hsize' haccepted.times.swap hroom'
  refine ⟨?_, t₂, _, _, ?_, hadded.rows, hadded₂.rows, ?_⟩
  · rw [hafter₁, hframe, Table.ext_rows (hadded₁.rows.trans hadded.rows.symm)]
  · rw [hafter₂, hframe]
  · have hstored : ∀ k record, (rowOf ctx g k record).withoutId = rowOf ctx g 0 record :=
      fun _ _ => rfl
    rw [Handle.map_numbered hstored, Handle.map_numbered hstored]
    exact hperm.map _

/-- One result, and a batch that repeats it with another one. -/
def Sample.first : List GameRecordData := [Sample.result 10 50 1010]

def Sample.rest : List GameRecordData := [Sample.result 10 50 1010, Sample.result 11 40 1020]

def Sample.afterBatches (batch batch' : List GameRecordData) : State :=
  History.after (exec Sample.env) (History.after (exec Sample.env)
    (run Sample.env (Sample.setup 1000 1000 100)) ⟨Sample.context 1050, .recordgame batch⟩)
    ⟨Sample.context 1050, .recordgame batch'⟩

def Sample.recorded : State :=
  run Sample.env (Sample.setup 1000 1000 100 ++
    [Sample.block 1050 (.recordgame (Sample.first ++ Sample.rest))])

theorem sample_batch_cut :
    Sample.afterBatches Sample.first Sample.rest = Sample.recorded ∧
    ∃ t added added',
      Sample.afterBatches Sample.rest Sample.first = { Sample.recorded with gamerecords := t } ∧
      Sample.recorded.gamerecords.rows =
        (run Sample.env (Sample.setup 1000 1000 100)).gamerecords.rows ++ added ∧
      t.rows = (run Sample.env (Sample.setup 1000 1000 100)).gamerecords.rows ++ added' ∧
      (added.map GameRecords.withoutId).Perm (added'.map GameRecords.withoutId) :=
  batch_cut_anywhere Sample.env (Sample.setup 1000 1000 100) (Sample.context 1050) Sample.first
    Sample.rest rfl

end GameRewards

import GameRewards.Actions.GameRecord

/-!
# What `recordgame` and `clearrecord` do to the records

`Recording` says how a batch grows the table: one stored row after the other,
each `Stored` against the table it found. Skipped records leave no trace.
-/

namespace GameRewards

open MultiIndex (Table Handle)

structure GameRecords.SameResult (r r' : GameRecords) : Prop where
  game : r.gameId = r'.gameId
  player : r.player = r'.player
  names : r.statsNames = r'.statsNames
  values : r.statsValues = r'.statsValues
  time : r.gameCompletionTime = r'.gameCompletionTime

theorem GameRecords.SameResult.symm (h : GameRecords.SameResult r r') :
    GameRecords.SameResult r' r :=
  ⟨h.game.symm, h.player.symm, h.names.symm, h.values.symm, h.time.symm⟩

/-- The result a row holds, as it was reported. -/
def GameRecords.reported (r : GameRecords) : GameRecordData where
  gameId := r.gameId
  player := r.player
  statsNames := r.statsNames
  statsValues := r.statsValues
  completionTime := r.gameCompletionTime

theorem determineCycle_ok (h : determineCycle ctx globals t = .ok c) :
    ∃ g, globals = some g ∧ t ≤ ctx.now ∧ g.cyclesInitiationTime ≤ t ∧
      c = (t - g.cyclesInitiationTime) / g.cycleLengthSec + 1 := by
  simp only [determineCycle, bind_ok, need_ok, check_ok, pure_ok, div32_ok] at h
  obtain ⟨g, hg, _, -, _, hnow, _, hstart, _, ⟨-, rfl⟩, rfl⟩ := h
  exact ⟨g, hg, hnow, hstart, rfl⟩

/-- Under valid globals the division is never reached with a zero divisor. -/
theorem determineCycle_ne_divideByZero : determineCycle ctx globals t ≠ .error .divideByZero := by
  intro h
  cases globals with
  | none => simp [determineCycle, need, bind, Except.bind] at h
  | some g =>
    by_cases hlen : 0 < g.cycleLengthSec
    · have hne : g.cycleLengthSec ≠ 0 := (UInt32.ne_of_lt hlen).symm
      by_cases hnow : t ≤ ctx.now <;> by_cases hstart : g.cyclesInitiationTime ≤ t <;>
        simp [determineCycle, need, check, div32, bind, Except.bind, pure, Except.pure, hlen, hne,
          hnow, hstart] at h
    · simp [determineCycle, need, check, bind, Except.bind, hlen] at h

theorem isDuplicateEntry_iff {t : Table GameRecords.primaryKey} :
    isDuplicateEntry t record c = true ↔
      ∃ r ∈ t.rows, r.gameId = record.gameId ∧ r.cycleNumber = c ∧ r.reports record = true := by
  unfold isDuplicateEntry
  rw [t.scan_eq_filter fun r _ => r.inCycle_eq_key]
  simp [GameRecords.inCycle_iff, and_assoc]

theorem validRecord_length (h : validRecord ctx configs record = true) :
    record.statsNames.length = record.statsValues.length := by
  simp only [validRecord, Bool.and_eq_true] at h
  obtain ⟨-, h⟩ := h
  split at h
  · cases h
  · simp only [Bool.and_eq_true, beq_iff_eq] at h
    exact h.1

structure Stored (ctx : Context) (s : State) (t : Table GameRecords.primaryKey)
    (row : GameRecords) : Prop where
  lengths : row.statsNames.length = row.statsValues.length
  cycle : determineCycle ctx s.globalconfig row.gameCompletionTime = .ok row.cycleNumber
  new : ∀ r ∈ t.rows, r.cycleNumber = row.cycleNumber → ¬ r.SameResult row
  undistributed : row.rewardsDistributed = false

inductive Recording (ctx : Context) (s : State) :
    Table GameRecords.primaryKey → Table GameRecords.primaryKey → Prop
  | done : Recording ctx s t t
  | store : Recording ctx s t t₁ → Stored ctx s t₁ row → t₂.rows = t₁.rows ++ [row] →
      Recording ctx s t t₂

theorem Recording.preserves {I : Table GameRecords.primaryKey → Prop}
    (h : Recording ctx s t t') (ht : I t)
    (hstep : ∀ t₁ t₂ row, I t₁ → Stored ctx s t₁ row → t₂.rows = t₁.rows ++ [row] → I t₂) :
    I t' := by
  induction h with
  | done => exact ht
  | store _ hs hrows ih => exact hstep _ _ _ ih hs hrows

theorem recordOne_ok (hf : b.gamerecords.Fresh) (h : recordOne ctx s b record = .ok b') :
    b'.gamerecords.Fresh ∧ (b'.gamerecords.table = b.gamerecords.table ∨
      ∃ row, Stored ctx s b.gamerecords.table row ∧
        b'.gamerecords.table.rows = b.gamerecords.table.rows ++ [row]) := by
  unfold recordOne at h
  split at h
  · rename_i hvalid
    simp only [bind_ok] at h
    obtain ⟨c, hc, h⟩ := h
    split at h
    · cases pure_ok.mp h
      exact ⟨hf, .inl rfl⟩
    · rename_i hdup
      simp only [bind_ok, need_ok, pure_ok] at h
      obtain ⟨⟨id, h₁⟩, hid, h₂, hrow, rfl⟩ := h
      obtain ⟨htable, hnext, -, hgt⟩ := Handle.availablePrimaryKey_spec hf hid
      rw [← htable] at hgt
      obtain ⟨hrows, hfresh⟩ := Handle.emplace_spec hnext hgt hrow
      rw [htable] at hrows
      refine ⟨hfresh, .inr ⟨_, ⟨validRecord_length hvalid, hc, ?_, rfl⟩, hrows⟩⟩
      intro r hr hcycle hsame
      refine hdup (isDuplicateEntry_iff.mpr ⟨r, hr, hsame.game, hcycle, ?_⟩)
      simp [GameRecords.reports, hsame.player, hsame.names, hsame.values, hsame.time]
  · cases pure_ok.mp h
    exact ⟨hf, .inl rfl⟩

theorem foldlM_recordOne_ok {b b' : Batch} {records : List GameRecordData}
    (hf : b.gamerecords.Fresh) (h : records.foldlM (recordOne ctx s) b = .ok b')
    (hb : Recording ctx s t b.gamerecords.table) : Recording ctx s t b'.gamerecords.table := by
  have hkept : b'.gamerecords.Fresh ∧ Recording ctx s t b'.gamerecords.table := by
    refine foldlM_ok (P := fun b => b.gamerecords.Fresh ∧ Recording ctx s t b.gamerecords.table)
      h ⟨hf, hb⟩ ?_
    rintro b₁ record b₂ ⟨hf₁, hb₁⟩ hone
    obtain ⟨hf₂, hsame | ⟨row, hstored, hrows⟩⟩ := recordOne_ok hf₁ hone
    · exact ⟨hf₂, hsame ▸ hb₁⟩
    · exact ⟨hf₂, .store hb₁ hstored hrows⟩
  exact hkept.2

theorem recordgame_ok (h : recordgame env ctx s records = .ok s') :
    ∃ t, Recording ctx s s.gamerecords t ∧ s' = { s with gamerecords := t } := by
  simp only [recordgame, bind_ok, requireAuth_ok, check_ok, pure_ok] at h
  obtain ⟨_, -, _, -, _, -, b, hb, _, -, rfl⟩ := h
  exact ⟨_, foldlM_recordOne_ok (Handle.ofTable_fresh _) hb .done, rfl⟩

theorem clearOne_rows (acc : Table GameRecords.primaryKey × UInt64) (id : UInt64) :
    r ∈ (clearOne acc id).1.rows ↔ r ∈ acc.1.rows ∧ r.id ≠ id := by
  unfold clearOne
  split
  · rename_i hnone
    have hids := acc.1.find_eq_none.mp hnone
    exact ⟨fun hr => ⟨hr, hids r hr⟩, And.left⟩
  · rename_i row hrow
    have hid : row.id = id := (acc.1.find_eq_some.mp hrow).2
    rw [Table.mem_erase, GameRecords.primaryKey, GameRecords.primaryKey, hid]

theorem foldl_clearOne_rows (ids : List UInt64) (acc : Table GameRecords.primaryKey × UInt64) :
    r ∈ (ids.foldl clearOne acc).1.rows ↔ r ∈ acc.1.rows ∧ r.id ∉ ids := by
  induction ids generalizing acc with
  | nil => simp
  | cons id ids ih =>
    rw [List.foldl_cons, ih, clearOne_rows, List.mem_cons, not_or, and_assoc]

theorem clearrecord_ok (h : clearrecord env ctx s ids = .ok s') :
    ∃ t, (∀ r, r ∈ t.rows ↔ r ∈ s.gamerecords.rows ∧ r.id ∉ ids) ∧
      s' = { s with gamerecords := t } := by
  simp only [clearrecord, bind_ok, requireAuth_ok, check_ok, pure_ok] at h
  obtain ⟨_, -, _, -, _, -, _, -, rfl⟩ := h
  exact ⟨_, fun r => foldl_clearOne_rows ids _, rfl⟩

end GameRewards

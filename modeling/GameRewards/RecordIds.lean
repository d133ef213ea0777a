import GameRewards.RecordHistory

/-!
# The ids of records

A new record gets the id after the highest stored one. So an id is given again
when the records that had it and every higher one are gone.
-/

namespace GameRewards

structure Stores (e : Event) (r : GameRecords) : Prop where
  call : ∃ records, e.request.call = .recordgame records
  new : r ∉ e.pre.gamerecords.rows
  stored : r ∈ e.post.gamerecords.rows

def Call.clears (id : UInt64) : Call → Bool
  | .clearrecord recordIds => recordIds.contains id
  | _ => false

theorem Effect.stored_above (he : Effect env s a s' out) (hcall : a.call = .recordgame records)
    (hr : r ∈ s'.gamerecords.rows) (hnew : r ∉ s.gamerecords.rows) :
    ∀ q ∈ s.gamerecords.rows, q.id < r.id := by
  cases he with
  | recorded hrec => exact (hrec.new hr hnew).2.2
  | configured hconf _ =>
    obtain rfl := hcall
    cases hconf
  | _ => cases hcall

theorem Effect.keeps_id {id : UInt64} (he : Effect env s a s' out) (hreset : a.call.isInit = false)
    (hclear : a.call.clears id = false) (h : ∃ q ∈ s.gamerecords.rows, q.id = id) :
    ∃ q ∈ s'.gamerecords.rows, q.id = id := by
  obtain ⟨q, hq, rfl⟩ := h
  cases he with
  | reset _ => cases hreset
  | configured _ hs => exact ⟨q, hs.records ▸ hq, rfl⟩
  | recorded hrec => exact ⟨q, hrec.mono q hq, rfl⟩
  | cleared hrows =>
    refine ⟨q, (hrows q).mpr ⟨hq, ?_⟩, rfl⟩
    simpa [Call.clears] using hclear
  | distributed hd =>
    refine ⟨settleRow _ _ q, hd.records_rows ▸ List.mem_map_of_mem hq, ?_⟩
    rw [settleRow_eq]

theorem run_keeps_id {id : UInt64}
    (hreset : ∀ e ∈ History.events (exec env) s actions, e.request.call.isInit = false)
    (hclear : ∀ e ∈ History.events (exec env) s actions, e.request.call.clears id = false)
    (h : ∃ q ∈ s.gamerecords.rows, q.id = id) :
    ∃ q ∈ (History.run (exec env) s actions).gamerecords.rows, q.id = id := by
  refine History.history_induction
    (P := fun evs t => (∀ e ∈ evs, e.request.call.isInit = false) →
      (∀ e ∈ evs, e.request.call.clears id = false) →
      ∃ q ∈ (State.gamerecords t).rows, q.id = id)
    (fun _ _ => h) ?_ actions hreset hclear
  intro evs t a t' out ih hx hinit hnone
  rw [List.forall_mem_append, List.forall_mem_singleton] at hinit hnone
  exact (exec_effect hx).keeps_id hinit.2 hnone.2 (ih hinit.1 hnone.1)

/-- One call gives an id to one record. A later call gives it again only after
that record and every record stored at that time under a higher id were deleted
by `clearrecord`. -/
theorem id_reused_after_clearing (env : Env) (actions : List Action)
    (before between later : List Event) (e e' : Event) (r r' : GameRecords)
    (hsplit : events env actions = before ++ e :: (between ++ e' :: later))
    (hreset : ∀ i ∈ between, i.request.call.isInit = false)
    (h : Stores e r) (h' : Stores e' r') (hid : r'.id = r.id) :
    (∀ q, Stores e q → q.id = r.id → q = r) ∧
    (∃ i ∈ between, i.request.call.clears r.id = true) ∧
    (∀ q ∈ e.post.gamerecords.rows, r.id < q.id →
      ∃ i ∈ between, i.request.call.clears q.id = true) ∧
    ∀ q ∈ e'.pre.gamerecords.rows, q.id < r.id := by
  have he' : e' ∈ events env actions := by simp [hsplit]
  obtain ⟨records, hcall⟩ := h'.call
  have habove := (event_effect he').stored_above hcall h'.stored h'.new
  rw [hid] at habove
  have hcleared : ∀ q ∈ e.post.gamerecords.rows, r.id ≤ q.id →
      ∃ i ∈ between, i.request.call.clears q.id = true := by
    intro q hq hle
    by_contra hnone
    have hclear : ∀ i ∈ between, i.request.call.clears q.id = false := by simpa using hnone
    obtain ⟨_, _, -, -, -, hrest, -⟩ := History.segment hsplit
    obtain ⟨_, _, -, hbetween, hpre, -, -⟩ := History.segment hrest
    rw [← hbetween] at hreset hclear
    obtain ⟨q', hq', hsame⟩ := run_keeps_id hreset hclear ⟨q, hq, rfl⟩
    rw [hpre] at hq'
    have hlt := habove q' hq'
    rw [hsame] at hlt
    exact absurd hle hlt.not_ge
  refine ⟨fun q hq => ?_, hcleared r h.stored le_rfl, fun q hq hlt => hcleared q hq hlt.le, habove⟩
  exact e.post.gamerecords.key_inj hq.stored h.stored

def Sample.reused : List Action :=
  Sample.setup 1000 1000 100 ++ [
    Sample.block 1050 (.recordgame [Sample.result 10 50 1010]),
    Sample.block 1051 (.clearrecord [0]),
    Sample.block 1052 (.recordgame [Sample.result 11 60 1020])]

def Sample.recording (actions : List Action) (now : TimePointSec) (record : GameRecordData) :
    Event where
  pre := run Sample.env actions
  request := Sample.block now (.recordgame [record])
  output := []
  post := run Sample.env (actions ++ [Sample.block now (.recordgame [record])])

theorem reused_split : events Sample.env Sample.reused =
    (events Sample.env Sample.reused).take 4 ++
      Sample.recording (Sample.reused.take 4) 1050 (Sample.result 10 50 1010) ::
        (((events Sample.env Sample.reused).drop 5).take 1 ++
          Sample.recording (Sample.reused.take 6) 1052 (Sample.result 11 60 1020) :: []) := rfl

theorem reused_stores_first :
    Stores (Sample.recording (Sample.reused.take 4) 1050 (Sample.result 10 50 1010))
      ⟨0, ⟨10⟩, 1, [Sample.kills], [50], 1, false, 1010, 1050⟩ :=
  ⟨⟨_, rfl⟩, by decide, by decide⟩

theorem reused_stores_second :
    Stores (Sample.recording (Sample.reused.take 6) 1052 (Sample.result 11 60 1020))
      ⟨0, ⟨11⟩, 1, [Sample.kills], [60], 1, false, 1020, 1052⟩ :=
  ⟨⟨_, rfl⟩, by decide, by decide⟩

theorem reused_after_clearing :
    (∀ q, Stores (Sample.recording (Sample.reused.take 4) 1050 (Sample.result 10 50 1010)) q →
      q.id = 0 → q = ⟨0, ⟨10⟩, 1, [Sample.kills], [50], 1, false, 1010, 1050⟩) ∧
    (∃ i ∈ ((events Sample.env Sample.reused).drop 5).take 1, i.request.call.clears 0 = true) ∧
    (∀ q ∈ (run Sample.env (Sample.reused.take 5)).gamerecords.rows, 0 < q.id →
      ∃ i ∈ ((events Sample.env Sample.reused).drop 5).take 1,
        i.request.call.clears q.id = true) ∧
    ∀ q ∈ (run Sample.env (Sample.reused.take 6)).gamerecords.rows, q.id < 0 :=
  id_reused_after_clearing Sample.env Sample.reused _ _ _ _ _ _ _ reused_split (by decide)
    reused_stores_first reused_stores_second rfl

theorem id_given_twice :
    ¬ ∀ (env : Env) (actions : List Action) (before between later : List Event) (e e' : Event)
      (r r' : GameRecords), Timed actions →
      events env actions = before ++ e :: (between ++ e' :: later) →
      (∀ i ∈ between, i.request.call.isInit = false) → Stores e r → Stores e' r' →
      r'.id = r.id → r'.SameResult r := by
  intro h
  have hsame := h Sample.env Sample.reused _ _ _ _ _ _ _ (by decide) reused_split (by decide)
    reused_stores_first reused_stores_second rfl
  exact absurd hsame.player (by decide)

end GameRewards

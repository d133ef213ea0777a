import GameRewards.Closing

/-!
# The life of a record

`Life` says where a stored row comes from: the `recordgame` that stored it, and
that since then nothing has happened to it but being marked by the
distributions of its cycle. What the flag says of a row follows.
-/

namespace GameRewards

open MultiIndex (Table)

def GameRecords.unflagged (r : GameRecords) : GameRecords := { r with rewardsDistributed := false }

theorem GameRecords.unflagged_of_false {r : GameRecords} (h : r.rewardsDistributed = false) :
    r.unflagged = r := by
  unfold GameRecords.unflagged
  rw [← h]

/-- In the history `evs` the event `e` stored the row `r`, which has been there
ever since. -/
structure Life (evs : List Event) (r : GameRecords) (before : List Event) (e : Event)
    (since : List Event) : Prop where
  split : evs = before ++ e :: since
  call : ∃ records, e.request.call = .recordgame records
  unstored : ∀ r' ∈ e.pre.gamerecords.rows, r'.id ≠ r.id
  stored : r.unflagged ∈ e.post.gamerecords.rows
  cycle : determineCycle e.request.ctx e.pre.globalconfig r.gameCompletionTime = .ok r.cycleNumber
  present : ∀ i ∈ since, ∃ r' ∈ i.post.gamerecords.rows, r'.unflagged = r.unflagged
  uninterrupted : ∀ i ∈ since, i.request.call.isInit = false
  flag : r.rewardsDistributed = true ↔
    ∃ d ∈ since, d.request.call.distributes r.gameId r.cycleNumber = true

-- ---------------------------------------------------------------------------
-- Birth
-- ---------------------------------------------------------------------------

theorem Recording.mono (h : Recording ctx s t t') : ∀ r ∈ t.rows, r ∈ t'.rows := by
  induction h with
  | done => exact fun _ hr => hr
  | store _ _ hrows ih =>
    intro r hr
    rw [hrows]
    exact List.mem_append_left _ (ih r hr)

theorem Recording.new (h : Recording ctx s t t') (hr : r ∈ t'.rows) (hnew : r ∉ t.rows) :
    r.rewardsDistributed = false ∧
      determineCycle ctx s.globalconfig r.gameCompletionTime = .ok r.cycleNumber ∧
      ∀ r' ∈ t.rows, r'.id < r.id := by
  induction h with
  | done => exact absurd hr hnew
  | @store t₁ row t₂ hrec hstored hrows ih =>
    rw [hrows, List.mem_append, List.mem_singleton] at hr
    rcases hr with hr | rfl
    · exact ih hr
    · refine ⟨hstored.undistributed, hstored.cycle, fun r' hr' => ?_⟩
      have hsorted := t₂.sorted
      rw [hrows, List.pairwise_append] at hsorted
      exact hsorted.2.2 r' (hrec.mono r' hr') r (List.mem_singleton_self r)

theorem Life.begin (hrec : Recording ctx s s.gamerecords t) (hr : r ∈ t.rows)
    (hnew : r ∉ s.gamerecords.rows) :
    Life (evs ++ [⟨s, ⟨ctx, .recordgame records⟩, out, { s with gamerecords := t }⟩]) r evs
      ⟨s, ⟨ctx, .recordgame records⟩, out, { s with gamerecords := t }⟩ [] := by
  obtain ⟨hflag, hcycle, hid⟩ := hrec.new hr hnew
  constructor
  · rfl
  · exact ⟨records, rfl⟩
  · exact fun r' hr' => (hid r' hr').ne
  · rw [GameRecords.unflagged_of_false hflag]
    exact hr
  · exact hcycle
  · simp
  · simp
  · simp [hflag]

-- ---------------------------------------------------------------------------
-- Life
-- ---------------------------------------------------------------------------

theorem Life.extend (h : Life evs r before e since)
    (hr : r' = { r with
      rewardsDistributed := i.request.call.distributes r.gameId r.cycleNumber || r.rewardsDistributed })
    (hmem : r' ∈ i.post.gamerecords.rows) (hinit : i.request.call.isInit = false) :
    Life (evs ++ [i]) r' before e (since ++ [i]) := by
  subst hr
  constructor
  · rw [h.split, List.append_assoc, List.cons_append]
  · exact h.call
  · exact h.unstored
  · exact h.stored
  · exact h.cycle
  · exact List.forall_mem_append.mpr ⟨h.present, List.forall_mem_singleton.mpr ⟨_, hmem, rfl⟩⟩
  · exact List.forall_mem_append.mpr ⟨h.uninterrupted, List.forall_mem_singleton.mpr hinit⟩
  · simp only [Bool.or_eq_true, h.flag, List.mem_append, List.mem_singleton, or_and_right, exists_or,
      exists_eq_left, or_comm]

theorem Life.keep (h : Life evs r before e since) (hmem : r ∈ i.post.gamerecords.rows)
    (hinit : i.request.call.isInit = false) (hdist : i.request.call.isDistribute = false) :
    Life (evs ++ [i]) r before e (since ++ [i]) := by
  refine h.extend ?_ hmem hinit
  rw [Call.not_distributes hdist, Bool.false_or]

theorem Call.distributes_row {args : DistributeArgs} {r : GameRecords} :
    (Call.distribute args).distributes r.gameId r.cycleNumber =
      r.inCycle args.gameId args.cycleNumber := by
  rw [Bool.eq_iff_iff, Call.distributes_iff, GameRecords.inCycle_iff, eq_comm,
    eq_comm (a := args.cycleNumber)]

theorem life_step (h : ∀ r ∈ s.gamerecords.rows, ∃ before e since, Life evs r before e since)
    (he : Effect env s a s' out) :
    ∀ r ∈ s'.gamerecords.rows,
      ∃ before e since, Life (evs ++ [⟨s, a, out, s'⟩]) r before e since := by
  intro r hr
  cases he with
  | reset _ => cases hr
  | configured hcall hs =>
    obtain ⟨before, e, since, hlife⟩ := h r (hs.records ▸ hr)
    exact ⟨before, e, _, hlife.keep hr (Call.not_isInit hcall) (Call.not_isDistribute hcall)⟩
  | recorded hrec =>
    by_cases hold : r ∈ s.gamerecords.rows
    · obtain ⟨before, e, since, hlife⟩ := h r hold
      exact ⟨before, e, _, hlife.keep hr rfl rfl⟩
    · exact ⟨evs, _, [], .begin hrec hr hold⟩
  | cleared hrows =>
    obtain ⟨before, e, since, hlife⟩ := h r ((hrows r).mp hr).1
    exact ⟨before, e, _, hlife.keep hr rfl rfl⟩
  | distributed hd =>
    have hmem := hr
    rw [hd.records_rows] at hr
    obtain ⟨r₀, hr₀, rfl⟩ := List.mem_map.mp hr
    obtain ⟨before, e, since, hlife⟩ := h r₀ hr₀
    refine ⟨before, e, _, hlife.extend ?_ hmem rfl⟩
    rw [settleRow_eq, Call.distributes_row]

theorem run_life (env : Env) (actions : List Action) :
    ∀ r ∈ (run env actions).gamerecords.rows,
      ∃ before e since, Life (events env actions) r before e since :=
  History.history_induction
    (P := fun evs s => ∀ r ∈ s.gamerecords.rows, ∃ before e since, Life evs r before e since)
    (by intro r hr; cases hr) (fun _ _ _ _ _ h hx => life_step h (exec_effect hx)) actions

theorem run_time_le (env : Env) (actions : List Action) :
    ∀ r ∈ (run env actions).gamerecords.rows, ∃ a ∈ actions, r.gameCompletionTime ≤ a.ctx.now := by
  intro r hr
  obtain ⟨before, e, since, hlife⟩ := run_life env actions r hr
  obtain ⟨_, -, hnow, -⟩ := determineCycle_ok hlife.cycle
  have he : e ∈ events env actions := by simp [hlife.split]
  exact ⟨e.request, History.request_mem he, hnow⟩

-- ---------------------------------------------------------------------------
-- The flag
-- ---------------------------------------------------------------------------

theorem Life.stored_closed_iff (h : Life (events env actions) r before e since) :
    e.post.Closed g c ↔ e.pre.Closed g c := by
  obtain ⟨records, hcall⟩ := h.call
  have he : e ∈ events env actions := by simp [h.split]
  rw [(event_effect he).closed_iff (by rw [hcall]; rfl), hcall]
  simp [Call.distributes]

theorem Life.closed_iff (h : Life (events env actions) r before e since) :
    (run env actions).Closed r.gameId r.cycleNumber ↔
      e.pre.Closed r.gameId r.cycleNumber ∨
        ∃ d ∈ since, d.request.call.distributes r.gameId r.cycleNumber = true := by
  obtain ⟨_, rest, -, -, -, hsince, hrun⟩ := History.segment h.split
  have hreset := h.uninterrupted
  rw [← hsince] at hreset
  unfold run
  rw [← hrun, run_closed_iff hreset, h.stored_closed_iff, hsince]

theorem Life.unmarked (h : Life (events env actions) r before e since)
    (hclosed : e.pre.Closed r.gameId r.cycleNumber) : ¬ r.rewardsDistributed = true := by
  rw [h.flag]
  rintro ⟨d, hd, hdist⟩
  have hmem : d ∈ events env actions := by simp [h.split, hd]
  obtain ⟨between, later, rfl⟩ := List.append_of_mem hd
  have hreset : ∀ i ∈ between, i.request.call.isInit = false := fun i hi =>
    h.uninterrupted i (List.mem_append_left _ hi)
  have hfound : d.pre.Closed r.gameId r.cycleNumber :=
    closed_at h.split hreset (h.stored_closed_iff.mpr hclosed)
  exact ((event_effect hmem).distributes hdist).1 hfound

/-- In every run the flag of a row is set exactly when a `distribute` for its
game and cycle came after the row was stored; such a cycle is in the log; and
`distribute` changes nothing but the flags of its cycle and its own row of the
log. -/
theorem distributed_flag_exact (env : Env) (actions : List Action) :
    (∀ r ∈ (run env actions).gamerecords.rows,
      (∃ before e since, Life (events env actions) r before e since) ∧
      (r.rewardsDistributed = true → (run env actions).Closed r.gameId r.cycleNumber)) ∧
    ∀ e ∈ events env actions, ∀ args, e.request.call = .distribute args →
      (∃ row, e.post.rewardsrec.rows = e.pre.rewardsrec.rows ++ [row] ∧
        row.gameId = args.gameId ∧ row.cycleNumber = args.cycleNumber) ∧
      e.post.gamerecords.rows = e.pre.gamerecords.rows.map (fun r =>
        { r with
          rewardsDistributed := r.inCycle args.gameId args.cycleNumber || r.rewardsDistributed }) ∧
      e.post = { e.pre with gamerecords := e.post.gamerecords, rewardsrec := e.post.rewardsrec } := by
  constructor
  · intro r hr
    exact ⟨run_life env actions r hr, (run_invariant env actions).flagged r hr⟩
  · intro e he args hcall
    obtain ⟨_, _, _, row, hd⟩ := (event_effect he).of_distribute hcall
    refine ⟨⟨row, hd.rewards_rows, hd.settlement.game, hd.settlement.cycle⟩, ?_, hd.frame⟩
    rw [hd.records_rows]
    exact List.map_congr_left fun r _ => settleRow_eq _ _ r

-- ---------------------------------------------------------------------------
-- Late results
-- ---------------------------------------------------------------------------

/-- In a closed cycle the rows that are not marked are the late ones: those
stored when the cycle was already closed. -/
theorem unmarked_iff_late (env : Env) (actions : List Action) :
    ∀ r ∈ (run env actions).gamerecords.rows, (run env actions).Closed r.gameId r.cycleNumber →
      ∃ before e since, Life (events env actions) r before e since ∧
        (r.rewardsDistributed = false ↔ e.pre.Closed r.gameId r.cycleNumber) := by
  intro r hr hclosed
  obtain ⟨before, e, since, hlife⟩ := run_life env actions r hr
  refine ⟨before, e, since, hlife, ?_⟩
  rw [← Bool.not_eq_true]
  constructor
  · intro hflag
    rw [hlife.flag] at hflag
    exact (hlife.closed_iff.mp hclosed).resolve_right hflag
  · exact hlife.unmarked

def Sample.late : List Action :=
  Sample.setup 1000 1000 100 ++ [
    Sample.block 1050 (.recordgame [Sample.result 10 50 1010]),
    Sample.block 1100 (.distribute (Sample.payout 1 [100])),
    Sample.block 1101 (.recordgame [Sample.result 11 60 1050])]

theorem late_result_stranded :
    ¬ ∀ (env : Env) (actions : List Action), Timed actions →
      ∀ r ∈ (run env actions).gamerecords.rows, (run env actions).Closed r.gameId r.cycleNumber →
        r.rewardsDistributed = true := by
  intro h
  have hmarked := h Sample.env Sample.late (by decide)
    ⟨1, ⟨11⟩, 1, [Sample.kills], [60], 1, false, 1050, 1101⟩ (by decide) (by decide)
  exact absurd hmarked (by decide)

theorem first_result_marked :
    ∃ before e since, Life (events Sample.env Sample.late)
        ⟨0, ⟨10⟩, 1, [Sample.kills], [50], 1, true, 1010, 1050⟩ before e since ∧
      (true = false ↔ e.pre.Closed 1 1) :=
  unmarked_iff_late Sample.env Sample.late ⟨0, ⟨10⟩, 1, [Sample.kills], [50], 1, true, 1010, 1050⟩
    (by decide) (by decide)

end GameRewards

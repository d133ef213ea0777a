import GameRewards.Independence

/-!
# The log of distributions

Its rows are numbered from zero, in the order of time. A row is never changed,
and only `initcontract` removes it.
-/

namespace GameRewards

open MultiIndex.Handle (firstFree)

-- ---------------------------------------------------------------------------
-- One action
-- ---------------------------------------------------------------------------

theorem log_step (hcounted : LogCounted s) (h : exec env s a = .ok (s', out))
    (hinit : a.call.isInit = false) :
    s'.rewardsrec = s.rewardsrec ∨
      ∃ row, s'.rewardsrec.rows = s.rewardsrec.rows ++ [row] ∧
        row.id.toNat = s.rewardsrec.rows.length ∧ row.distributionTime = a.ctx.now := by
  cases exec_effect h with
  | reset _ => cases hinit
  | configured _ hs => exact .inl hs.rewards
  | recorded _ => exact .inl rfl
  | cleared _ => exact .inl rfl
  | @distributed ctx args _ _ _ _ _ _ _ =>
    have hx : distribute env ctx s args = .ok (s', out) := h
    obtain ⟨row, out', hd⟩ := distribute_decides hx
    obtain ⟨-, -, hrows, -⟩ := distribute_decided hd hx
    refine .inr ⟨_, hrows, hcounted, ?_⟩
    simp only [decision, bind_ok, pure_ok, Prod.mk.injEq] at hd
    obtain ⟨_, -, _, -, _, -, _, -, rfl, -⟩ := hd
    rfl

-- ---------------------------------------------------------------------------
-- Every run
-- ---------------------------------------------------------------------------

theorem run_log_counted (env : Env) (actions : List Action) : LogCounted (run env actions) := by
  have hdeployed : LogCounted State.deployed := rfl
  exact History.run_invariant hdeployed (fun _ _ _ _ h hx => h.step hx) actions

theorem log_kept (hcounted : LogCounted s) (hlater : ∀ a ∈ later, a.call.isInit = false) :
    s.rewardsrec.rows <+: (History.run (exec env) s later).rewardsrec.rows := by
  induction later generalizing s with
  | nil => exact List.prefix_refl _
  | cons a later ih =>
    obtain ⟨ha, hrest⟩ := List.forall_mem_cons.mp hlater
    rw [History.run_cons]
    cases hx : exec env s a with
    | error e =>
      rw [History.after_error hx]
      exact ih hcounted hrest
    | ok r =>
      obtain ⟨s', out⟩ := r
      rw [History.after_ok hx]
      refine List.IsPrefix.trans ?_ (ih (hcounted.step hx) hrest)
      rcases log_step hcounted hx ha with hsame | ⟨row, hrows, -⟩
      · exact (congrArg (s.rewardsrec.rows <+: ·.rows) hsame).mpr (List.prefix_refl _)
      · rw [hrows]
        exact List.prefix_append _ _

/-- The rows are numbered from zero, and each was written by an event of its
time, the later ones not before the earlier ones. -/
structure Chronicle (evs : List Event) (s : State) : Prop where
  counted : LogCounted s
  numbered : s.rewardsrec.rows.map (fun d => d.id.toNat) = List.range s.rewardsrec.rows.length
  written : ∀ d ∈ s.rewardsrec.rows, ∃ e ∈ evs, d.distributionTime = e.request.ctx.now
  ordered : s.rewardsrec.rows.Pairwise fun d d' => d.distributionTime ≤ d'.distributionTime

theorem Chronicle.empty (evs : List Event) (h : s.rewardsrec = .empty) : Chronicle evs s := by
  have hrows : s.rewardsrec.rows = [] := by
    rw [h]
    rfl
  constructor
  · rw [LogCounted, h]
    rfl
  all_goals simp [hrows]

theorem Chronicle.grow (h : Chronicle evs s) (hcounted : LogCounted s')
    (hrows : s'.rewardsrec.rows = s.rewardsrec.rows ++ [row])
    (hid : row.id.toNat = s.rewardsrec.rows.length)
    (he : row.distributionTime = e.request.ctx.now)
    (htime : ∀ e' ∈ evs, e'.request.ctx.now ≤ e.request.ctx.now) : Chronicle (evs ++ [e]) s' := by
  constructor
  · exact hcounted
  · rw [hrows, List.map_append, h.numbered, List.length_append, List.length_singleton,
      List.range_succ, List.map_singleton, hid]
  · intro d hd
    rw [hrows, List.mem_append, List.mem_singleton] at hd
    rcases hd with hd | rfl
    · obtain ⟨e', he', hsame⟩ := h.written d hd
      exact ⟨e', List.mem_append_left _ he', hsame⟩
    · exact ⟨e, by simp, he⟩
  · rw [hrows, List.pairwise_append]
    refine ⟨h.ordered, List.pairwise_singleton _ _, fun d hd d' hd' => ?_⟩
    obtain rfl := List.mem_singleton.mp hd'
    obtain ⟨e', he', hsame⟩ := h.written d hd
    rw [hsame, he]
    exact htime e' he'

theorem Chronicle.step (h : Chronicle evs s) (hx : exec env s a = .ok (s', out))
    (htime : ∀ e ∈ evs, e.request.ctx.now ≤ a.ctx.now) :
    Chronicle (evs ++ [⟨s, a, out, s'⟩]) s' := by
  cases hinit : a.call.isInit with
  | true =>
    obtain ⟨_, -, -, rfl⟩ := (exec_effect hx).of_init hinit
    exact .empty _ rfl
  | false =>
    rcases log_step h.counted hx hinit with hsame | ⟨row, hrows, hid, hnow⟩
    · constructor
      · exact h.counted.step hx
      · rw [hsame]
        exact h.numbered
      · rw [hsame]
        intro d hd
        obtain ⟨e, he, hwritten⟩ := h.written d hd
        exact ⟨e, List.mem_append_left _ he, hwritten⟩
      · rw [hsame]
        exact h.ordered
    · exact h.grow (h.counted.step hx) hrows hid hnow htime

theorem run_chronicle (env : Env) {actions : List Action} (htimed : Timed actions) :
    Chronicle (events env actions) (run env actions) := by
  refine History.history_induction_of (R := fun a a' : Action => a.ctx.now ≤ a'.ctx.now)
    (P := Chronicle) (.empty _ rfl) ?_ actions htimed
  intro evs s a s' out h htime hx
  exact h.step hx htime

/-- In every run at non-decreasing block times the rows of the log are numbered
from zero without a gap, in the order of the times of their distributions, and
whatever follows short of `initcontract` only adds rows behind them. -/
theorem log_append_only (env : Env) (actions later : List Action)
    (htimed : Timed (actions ++ later)) (hlater : ∀ a ∈ later, a.call.isInit = false) :
    (run env actions).rewardsrec.rows <+: (run env (actions ++ later)).rewardsrec.rows ∧
    (run env (actions ++ later)).rewardsrec.rows.map (fun d => d.id.toNat) =
      List.range (run env (actions ++ later)).rewardsrec.rows.length ∧
    (run env (actions ++ later)).rewardsrec.rows.Pairwise
      fun d d' => d.distributionTime ≤ d'.distributionTime := by
  have hchronicle := run_chronicle env htimed
  refine ⟨?_, hchronicle.numbered, hchronicle.ordered⟩
  rw [run, run, History.run_append]
  exact log_kept (run_log_counted env actions) hlater

def Sample.twoPayouts : List Action :=
  [Sample.block 1200 (.distribute (Sample.payout 2 [60, 40])),
    Sample.block 1210 (.distribute (Sample.payout 1 [60, 40]))]

theorem two_cycles_logged :
    (run Sample.env Sample.twoCycles).rewardsrec.rows <+:
      (run Sample.env (Sample.twoCycles ++ Sample.twoPayouts)).rewardsrec.rows ∧
    (run Sample.env (Sample.twoCycles ++ Sample.twoPayouts)).rewardsrec.rows.map
        (fun d => d.id.toNat) =
      List.range (run Sample.env (Sample.twoCycles ++ Sample.twoPayouts)).rewardsrec.rows.length ∧
    (run Sample.env (Sample.twoCycles ++ Sample.twoPayouts)).rewardsrec.rows.Pairwise
      fun d d' => d.distributionTime ≤ d'.distributionTime :=
  log_append_only Sample.env Sample.twoCycles Sample.twoPayouts (by unfold Timed; decide)
    (by decide)

end GameRewards

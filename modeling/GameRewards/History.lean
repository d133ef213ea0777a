import Mathlib.Data.List.DropRight

/-!
# Runs and histories of a machine that may refuse

`exec` serves a request, with an output, or refuses it. A refused request
leaves the state as it was and no event. The history of a run is its list of
served requests with the states around them.

`history_induction` proves a law that relates a history to the state it ends
in; `segment` cuts a history and shows that both parts are histories. An era
is the part of a history after the last reset.
-/

namespace GameRewards.History

variable {σ ι ε ο : Type}

structure Event (σ ι ο : Type) where
  pre : σ
  request : ι
  output : ο
  post : σ

variable (exec : σ → ι → Except ε (σ × ο))

/-- The state after a request; a refused one changes nothing. -/
def after (s : σ) (i : ι) : σ :=
  match exec s i with
  | .ok (s', _) => s'
  | .error _ => s

def run (s : σ) (is : List ι) : σ := is.foldl (after exec) s

def events (s : σ) : List ι → List (Event σ ι ο)
  | [] => []
  | i :: is =>
    match exec s i with
    | .ok (s', o) => ⟨s, i, o, s'⟩ :: events s' is
    | .error _ => events s is

variable {exec}

@[simp] theorem run_nil : run exec s [] = s := rfl

@[simp] theorem run_cons : run exec s (i :: is) = run exec (after exec s i) is := rfl

theorem run_append : run exec s (is ++ js) = run exec (run exec s is) js := List.foldl_append

@[simp] theorem events_nil : events exec s [] = [] := rfl

theorem events_ok (h : exec s i = .ok (s', o)) :
    events exec s (i :: is) = ⟨s, i, o, s'⟩ :: events exec s' is := by
  simp [events, h]

theorem events_error (h : exec s i = .error e) : events exec s (i :: is) = events exec s is := by
  simp [events, h]

theorem after_ok (h : exec s i = .ok (s', o)) : after exec s i = s' := by simp [after, h]

theorem after_error (h : exec s i = .error e) : after exec s i = s := by simp [after, h]

theorem events_append :
    events exec s (is ++ js) = events exec s is ++ events exec (run exec s is) js := by
  induction is generalizing s with
  | nil => rfl
  | cons i is ih =>
    rw [List.cons_append, run_cons]
    cases h : exec s i with
    | error e => rw [events_error h, events_error h, after_error h, ih]
    | ok r =>
      obtain ⟨s', o⟩ := r
      rw [events_ok h, events_ok h, after_ok h, ih, List.cons_append]

theorem requests_sublist : ((events exec s is).map Event.request).Sublist is := by
  induction is generalizing s with
  | nil => exact .slnil
  | cons i is ih =>
    cases h : exec s i with
    | error e => rw [events_error h]; exact ih.cons i
    | ok r => rw [events_ok h]; exact ih.cons_cons i

theorem request_mem (h : e ∈ events exec s is) : e.request ∈ is :=
  requests_sublist.subset (List.mem_map_of_mem h)

theorem events_pairwise {R : ι → ι → Prop} (h : is.Pairwise R) :
    (events exec s is).Pairwise fun e e' => R e.request e'.request :=
  List.pairwise_map.mp (h.sublist requests_sublist)

-- ---------------------------------------------------------------------------
-- Induction over a history
-- ---------------------------------------------------------------------------

/-- A law of histories, in runs whose requests are ordered by `R`: it holds
of the empty history and every served request extends it. -/
theorem history_induction_of {R : ι → ι → Prop} {P : List (Event σ ι ο) → σ → Prop} (h0 : P [] s₀)
    (hstep : ∀ evs s i s' o, P evs s → (∀ e ∈ evs, R e.request i) → exec s i = .ok (s', o) →
      P (evs ++ [⟨s, i, o, s'⟩]) s')
    (is : List ι) (hR : is.Pairwise R) : P (events exec s₀ is) (run exec s₀ is) := by
  induction is using List.reverseRecOn with
  | nil => exact h0
  | append_singleton is i ih =>
    obtain ⟨his, -, hcross⟩ := List.pairwise_append.mp hR
    have hP := ih his
    rw [events_append, run_append, run_cons, run_nil]
    cases h : exec (run exec s₀ is) i with
    | error e =>
      rw [events_error h, after_error h, events_nil, List.append_nil]
      exact hP
    | ok r =>
      obtain ⟨s', o⟩ := r
      rw [events_ok h, after_ok h, events_nil]
      refine hstep _ _ _ _ _ hP (fun e he => ?_) h
      exact hcross _ (request_mem he) i (by simp)

theorem history_induction {P : List (Event σ ι ο) → σ → Prop} (h0 : P [] s₀)
    (hstep : ∀ evs s i s' o, P evs s → exec s i = .ok (s', o) → P (evs ++ [⟨s, i, o, s'⟩]) s')
    (is : List ι) : P (events exec s₀ is) (run exec s₀ is) :=
  history_induction_of (R := fun _ _ => True) h0 (fun _ _ _ _ _ hP _ h => hstep _ _ _ _ _ hP h) is
    (List.pairwise_of_forall fun _ _ => trivial)

/-- An invariant of the served requests holds at the end of every run. -/
theorem run_invariant {I : σ → Prop} (h0 : I s₀)
    (hstep : ∀ s i s' o, I s → exec s i = .ok (s', o) → I s') (is : List ι) : I (run exec s₀ is) :=
  history_induction (P := fun _ s => I s) h0 (fun _ _ _ _ _ hI h => hstep _ _ _ _ hI h) is

-- ---------------------------------------------------------------------------
-- Cutting a history
-- ---------------------------------------------------------------------------

theorem events_exec (h : e ∈ events exec s is) : exec e.pre e.request = .ok (e.post, e.output) := by
  induction is generalizing s with
  | nil => cases h
  | cons i is ih =>
    cases hx : exec s i with
    | error x => rw [events_error hx] at h; exact ih h
    | ok r =>
      obtain ⟨s', o⟩ := r
      rw [events_ok hx] at h
      rcases List.mem_cons.mp h with rfl | h
      · exact hx
      · exact ih h

/-- Cut a run behind any event: the requests up to it, and the rest. -/
theorem segment (h : events exec s is = before ++ e :: rest) :
    ∃ is₁ is₂, is = is₁ ++ e.request :: is₂ ∧ events exec s is₁ = before ∧ run exec s is₁ = e.pre ∧
      events exec e.post is₂ = rest ∧ run exec e.post is₂ = run exec s is := by
  induction is generalizing s before with
  | nil => simp at h
  | cons i is ih =>
    cases hx : exec s i with
    | error x =>
      rw [events_error hx] at h
      obtain ⟨is₁, is₂, rfl, hb, hpre, hrest, hrun⟩ := ih h
      refine ⟨i :: is₁, is₂, rfl, ?_, ?_, hrest, ?_⟩
      · rw [events_error hx, hb]
      · rw [run_cons, after_error hx, hpre]
      · rw [run_cons, after_error hx, hrun]
    | ok r =>
      obtain ⟨s', o⟩ := r
      rw [events_ok hx] at h
      cases before with
      | nil =>
        obtain ⟨rfl, rfl⟩ := List.cons.inj h
        exact ⟨[], is, rfl, rfl, rfl, rfl, by rw [run_cons, after_ok hx]⟩
      | cons b before =>
        obtain ⟨rfl, htail⟩ := List.cons.inj h
        obtain ⟨is₁, is₂, rfl, hb, hpre, hrest, hrun⟩ := ih htail
        refine ⟨i :: is₁, is₂, rfl, ?_, ?_, hrest, ?_⟩
        · rw [events_ok hx, hb]
        · rw [run_cons, after_ok hx, hpre]
        · rw [run_cons, after_ok hx, hrun]

theorem pre_reached (h : e ∈ events exec s is) : ∃ js, run exec s js = e.pre := by
  obtain ⟨before, rest, h⟩ := List.append_of_mem h
  obtain ⟨js, _, -, -, hpre, -, -⟩ := segment h
  exact ⟨js, hpre⟩

-- ---------------------------------------------------------------------------
-- Runs without a refusal
-- ---------------------------------------------------------------------------

structure Served (exec : σ → ι → Except ε (σ × ο)) (s : σ) (is : List ι) (s' : σ) : Prop where
  final : run exec s is = s'
  all : (events exec s is).map Event.request = is

theorem Served.nil : Served exec s [] s := ⟨rfl, rfl⟩

theorem Served.cons (h : exec s i = .ok (s₁, o)) (hs : Served exec s₁ is s') :
    Served exec s (i :: is) s' where
  final := by rw [run_cons, after_ok h, hs.final]
  all := by rw [events_ok h, List.map_cons, hs.all]

theorem Served.uncons (h : Served exec s (i :: is) s') :
    ∃ s₁ o, exec s i = .ok (s₁, o) ∧ Served exec s₁ is s' := by
  obtain ⟨hfinal, hall⟩ := h
  cases hx : exec s i with
  | error e =>
    -- A refused request would be missing from the history.
    rw [events_error hx] at hall
    have hshort : ((events exec s is).map Event.request).Sublist is := requests_sublist
    rw [hall] at hshort
    exact absurd hshort.length_le (Nat.not_succ_le_self _)
  | ok r =>
    obtain ⟨s₁, o⟩ := r
    rw [run_cons, after_ok hx] at hfinal
    rw [events_ok hx, List.map_cons] at hall
    exact ⟨s₁, o, rfl, hfinal, (List.cons.inj hall).2⟩

theorem Served.append (h : Served exec s is s₁) (h' : Served exec s₁ js s') :
    Served exec s (is ++ js) s' where
  final := by rw [run_append, h.final, h'.final]
  all := by rw [events_append, List.map_append, h.all, h.final, h'.all]

-- ---------------------------------------------------------------------------
-- Requests that are always refused
-- ---------------------------------------------------------------------------

theorem drop_refused {p : ι → Bool} (h : ∀ s i r, exec s i = .ok r → p i = true) (is : List ι) :
    run exec s (is.filter p) = run exec s is ∧
      events exec s (is.filter p) = events exec s is := by
  induction is generalizing s with
  | nil => exact ⟨rfl, rfl⟩
  | cons i is ih =>
    cases hx : exec s i with
    | error e =>
      rw [run_cons, events_error hx, after_error hx]
      cases hp : p i with
      | false =>
        rw [List.filter_cons_of_neg (by simp [hp])]
        exact ih
      | true =>
        rw [List.filter_cons_of_pos hp, run_cons, events_error hx, after_error hx]
        exact ih
    | ok r =>
      obtain ⟨s', o⟩ := r
      rw [List.filter_cons_of_pos (h s i _ hx), run_cons, run_cons, after_ok hx, events_ok hx,
        events_ok hx, ih.1, ih.2]
      exact ⟨rfl, rfl⟩

-- ---------------------------------------------------------------------------
-- Eras
-- ---------------------------------------------------------------------------

def era (isReset : Event σ ι ο → Bool) (evs : List (Event σ ι ο)) : List (Event σ ι ο) :=
  evs.rtakeWhile fun e => !isReset e

variable {isReset : Event σ ι ο → Bool}

theorem era_reset (h : isReset e = true) : era isReset (evs ++ [e]) = [] := by
  simp [era, h]

theorem era_step (h : isReset e = false) : era isReset (evs ++ [e]) = era isReset evs ++ [e] := by
  simp [era, h]

/-- A law of the current era: a reset establishes it anew, every other served
request extends it. -/
theorem era_induction {P : List (Event σ ι ο) → σ → Prop} (h0 : P [] s₀)
    (hreset : ∀ s i s' o, exec s i = .ok (s', o) → isReset ⟨s, i, o, s'⟩ = true → P [] s')
    (hstep : ∀ evs s i s' o, P evs s → exec s i = .ok (s', o) → isReset ⟨s, i, o, s'⟩ = false →
      P (evs ++ [⟨s, i, o, s'⟩]) s')
    (is : List ι) : P (era isReset (events exec s₀ is)) (run exec s₀ is) := by
  refine history_induction (P := fun evs s => P (era isReset evs) s) h0 ?_ is
  intro evs s i s' o hP h
  cases hr : isReset ⟨s, i, o, s'⟩ with
  | true => rw [era_reset hr]; exact hreset _ _ _ _ h hr
  | false => rw [era_step hr]; exact hstep _ _ _ _ _ hP h hr

end GameRewards.History

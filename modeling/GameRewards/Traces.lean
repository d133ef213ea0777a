import GameRewards.History
import Mathlib.Data.List.Forall2

/-!
# Traces of a transition system

`Trace` lists the labels of a run of a labelled transition system. The history
of a machine that may refuse is a trace of the requests it served.

Two rules lead from one step to every trace: a simulation maps traces to traces
of another system, and a fluent, a fact that some labels make true and some
make false, holds at the end exactly if it was made true and not made false
since.
-/

namespace GameRewards.Traces

variable {σ τ ℓ μ : Type} {step : σ → ℓ → σ → Prop} {step' : τ → μ → τ → Prop}

inductive Trace (step : σ → ℓ → σ → Prop) (start : σ) : List ℓ → σ → Prop
  | done : Trace step start [] start
  | next : Trace step start ls s → step s l s' → Trace step start (ls ++ [l]) s'

/-- The steps of a machine, each labelled by its event. -/
inductive Serves {ι ε ο : Type} (exec : σ → ι → Except ε (σ × ο)) :
    σ → History.Event σ ι ο → σ → Prop
  | served : exec s i = .ok (s', o) → Serves exec s ⟨s, i, o, s'⟩ s'

theorem trace_run {ι ε ο : Type} (exec : σ → ι → Except ε (σ × ο)) (s₀ : σ) (is : List ι) :
    Trace (Serves exec) s₀ (History.events exec s₀ is) (History.run exec s₀ is) :=
  History.history_induction (P := Trace (Serves exec) s₀) .done
    (fun _ _ _ _ _ h hx => h.next (.served hx)) is

theorem Trace.invariant {I : σ → Prop} (h : Trace step s₀ ls s) (h0 : I s₀)
    (hstep : ∀ s l s', I s → step s l s' → I s') : I s := by
  induction h with
  | done => exact h0
  | next _ hl ih => exact hstep _ _ _ ih hl

/-- A simulation: under an invariant, every step is one of the other system
between the states it is seen as, with a matching label. -/
structure Simulation (step : σ → ℓ → σ → Prop) (step' : τ → μ → τ → Prop) (I : σ → Prop)
    (view : σ → τ) (R : ℓ → μ → Prop) : Prop where
  keeps : ∀ s l s', I s → step s l s' → I s'
  simulates : ∀ s l s', I s → step s l s' → ∃ m, R l m ∧ step' (view s) m (view s')

theorem Simulation.trace {I : σ → Prop} {view : σ → τ} {R : ℓ → μ → Prop}
    (hsim : Simulation step step' I view R) (h0 : I s₀) (h : Trace step s₀ ls s) :
    ∃ ms, List.Forall₂ R ls ms ∧ Trace step' (view s₀) ms (view s) := by
  induction h with
  | done => exact ⟨[], .nil, .done⟩
  | next hls hl ih =>
    obtain ⟨ms, hmatch, htrace⟩ := ih
    obtain ⟨m, hm, hstep⟩ := hsim.simulates _ _ _ (hls.invariant h0 hsim.keeps) hl
    exact ⟨ms ++ [m], List.rel_append hmatch (.cons hm .nil), htrace.next hstep⟩

-- ---------------------------------------------------------------------------
-- Fluents
-- ---------------------------------------------------------------------------

/-- Some label made it true, and none has made it false since. -/
def Since (makes breaks : ℓ → Prop) (ls : List ℓ) : Prop :=
  ∃ before l after, ls = before ++ l :: after ∧ makes l ∧ ∀ l' ∈ after, ¬ breaks l'

variable {makes breaks : ℓ → Prop}

theorem not_since_nil : ¬ Since makes breaks [] := by
  rintro ⟨before, l, after, h, -⟩
  simp at h

theorem since_append (ls : List ℓ) (l : ℓ) :
    Since makes breaks (ls ++ [l]) ↔ makes l ∨ Since makes breaks ls ∧ ¬ breaks l := by
  constructor
  · rintro ⟨before, l', after, h, hmakes, hkept⟩
    rcases List.eq_nil_or_concat after with rfl | ⟨after, last, rfl⟩
    · obtain ⟨-, hl⟩ := List.append_inj' h rfl
      cases hl
      exact .inl hmakes
    · rw [List.concat_eq_append, ← List.cons_append, ← List.append_assoc] at h
      obtain ⟨rfl, hl⟩ := List.append_inj' h rfl
      cases hl
      rw [List.concat_eq_append, List.forall_mem_append] at hkept
      exact .inr ⟨⟨before, l', after, rfl, hmakes, hkept.1⟩, hkept.2 _ List.mem_cons_self⟩
  · rintro (hmakes | ⟨⟨before, l', after, rfl, hmakes, hkept⟩, hl⟩)
    · exact ⟨ls, l, [], rfl, hmakes, by simp⟩
    · refine ⟨before, l', after ++ [l], by simp, hmakes, ?_⟩
      exact List.forall_mem_append.mpr ⟨hkept, List.forall_mem_singleton.mpr hl⟩

/-- The rule for fluents. -/
theorem Trace.holds_iff_since {I F : σ → Prop} (h : Trace step s₀ ls s) (h0 : I s₀)
    (hkeeps : ∀ s l s', I s → step s l s' → I s') (hstart : ¬ F s₀)
    (hstep : ∀ s l s', I s → step s l s' → (F s' ↔ makes l ∨ F s ∧ ¬ breaks l)) :
    F s ↔ Since makes breaks ls := by
  induction h with
  | done => exact iff_of_false hstart not_since_nil
  | next hls hl ih =>
    rw [hstep _ _ _ (hls.invariant h0 hkeeps) hl, since_append, ih]

theorem since_cons (l : ℓ) (ls : List ℓ) :
    Since makes breaks (l :: ls) ↔
      (makes l ∧ ∀ l' ∈ ls, ¬ breaks l') ∨ Since makes breaks ls := by
  constructor
  · rintro ⟨before, l', after, h, hmakes, hkept⟩
    cases before with
    | nil =>
      obtain ⟨rfl, rfl⟩ := List.cons.inj h
      exact .inl ⟨hmakes, hkept⟩
    | cons _ before =>
      obtain ⟨rfl, rfl⟩ := List.cons.inj h
      exact .inr ⟨before, l', after, rfl, hmakes, hkept⟩
  · rintro (⟨hmakes, hkept⟩ | ⟨before, l', after, rfl, hmakes, hkept⟩)
    · exact ⟨[], l, ls, rfl, hmakes, hkept⟩
    · exact ⟨l :: before, l', after, rfl, hmakes, hkept⟩

theorem forall_mem_congr {R : ℓ → μ → Prop} {p : ℓ → Prop} {q : μ → Prop} (h : List.Forall₂ R ls ms)
    (hpq : ∀ l m, R l m → (p l ↔ q m)) : (∀ l ∈ ls, p l) ↔ ∀ m ∈ ms, q m := by
  induction h with
  | nil => exact iff_of_true nofun nofun
  | cons hm _ ih => rw [List.forall_mem_cons, List.forall_mem_cons, hpq _ _ hm, ih]

theorem since_congr {R : ℓ → μ → Prop} {makes' breaks' : μ → Prop} (h : List.Forall₂ R ls ms)
    (hmakes : ∀ l m, R l m → (makes l ↔ makes' m)) (hbreaks : ∀ l m, R l m → (breaks l ↔ breaks' m)) :
    Since makes breaks ls ↔ Since makes' breaks' ms := by
  induction h with
  | nil => exact iff_of_false not_since_nil not_since_nil
  | cons hm hrest ih =>
    rw [since_cons, since_cons, ih, hmakes _ _ hm,
      forall_mem_congr hrest fun l m hlm => not_congr (hbreaks l m hlm)]

-- ---------------------------------------------------------------------------
-- Registers
-- ---------------------------------------------------------------------------

/-- The rule for a register that some labels write: it holds what was written
last. -/
theorem Trace.last_write {I : σ → Prop} (h : Trace step s₀ ls s) (view : σ → β)
    (write : ℓ → Option β) (h0 : I s₀) (hkeeps : ∀ s l s', I s → step s l s' → I s')
    (hstep : ∀ s l s', I s → step s l s' → view s' = (write l).getD (view s)) :
    view s = (ls.filterMap write).getLast?.getD (view s₀) := by
  induction h with
  | done => rfl
  | @next ls s l s' hls hl ih =>
    rw [hstep _ _ _ (hls.invariant h0 hkeeps) hl, List.filterMap_append]
    cases hw : write l with
    | none => simpa [hw] using ih
    | some v => simp [hw]

-- ---------------------------------------------------------------------------
-- Two machines in step
-- ---------------------------------------------------------------------------

section
variable {ι κ ε ο ω : Type}

/-- Two machines refuse a request for the same reason, or serve it both with
related states and outputs. -/
inductive Alike (R : σ → τ → Prop) (Q : ο → ω → Prop) :
    Except ε (σ × ο) → Except ε (τ × ω) → Prop
  | refused : Alike R Q (.error e) (.error e)
  | served : R s t → Q o w → Alike R Q (.ok (s, o)) (.ok (t, w))

theorem Alike.of_map {f : σ → α} {f' : τ → α} {g : ο → β} {g' : ω → β}
    {x : Except ε (σ × ο)} {y : Except ε (τ × ω)} (h : Prod.map f g <$> x = Prod.map f' g' <$> y) :
    Alike (fun s t => f s = f' t) (fun o w => g o = g' w) x y := by
  cases x with
  | error e =>
    cases y with
    | error e' =>
      cases h
      exact .refused
    | ok r' => cases h
  | ok r =>
    cases y with
    | error e' => cases h
    | ok r' =>
      obtain ⟨hs, ho⟩ := Prod.mk.inj (Except.ok.inj h)
      exact .served hs ho

structure InStep (S : ι → κ → Prop) (R : σ → τ → Prop) (Q : ο → ω → Prop)
    (e : History.Event σ ι ο) (e' : History.Event τ κ ω) : Prop where
  request : S e.request e'.request
  pre : R e.pre e'.pre
  output : Q e.output e'.output
  post : R e.post e'.post

theorem runs_in_step {exec : σ → ι → Except ε (σ × ο)} {exec' : τ → κ → Except ε (τ × ω)}
    {S : ι → κ → Prop} {R : σ → τ → Prop} {Q : ο → ω → Prop}
    (hstep : ∀ s t i j, R s t → S i j → Alike R Q (exec s i) (exec' t j)) (h : R s t)
    (hrequests : List.Forall₂ S is js) :
    R (History.run exec s is) (History.run exec' t js) ∧
      List.Forall₂ (InStep S R Q) (History.events exec s is) (History.events exec' t js) := by
  induction hrequests generalizing s t with
  | nil => exact ⟨h, .nil⟩
  | @cons i j is js hrequest _ ih =>
    have halike := hstep s t i j h hrequest
    rw [History.run_cons, History.run_cons]
    generalize hx : exec s i = x at halike
    generalize hy : exec' t j = y at halike
    cases halike with
    | refused =>
      rw [History.after_error hx, History.after_error hy, History.events_error hx,
        History.events_error hy]
      exact ih h
    | served hpost hout =>
      rw [History.after_ok hx, History.after_ok hy, History.events_ok hx, History.events_ok hy]
      obtain ⟨hrun, hevents⟩ := ih hpost
      exact ⟨hrun, .cons ⟨hrequest, h, hout, hpost⟩ hevents⟩

end

end GameRewards.Traces

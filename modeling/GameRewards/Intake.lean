import Mathlib.Data.List.Nodup
import Mathlib.Data.List.Perm.Basic

/-!
# Taking in a batch without repetition

`intake` is what a batch adds to a list of elements: the admissible ones that
are not there yet, each once, in the order of the batch. Cutting a batch in two
does not change what is added; swapping the parts changes the order only.
-/

namespace GameRewards.Intake

variable {α : Type} [DecidableEq α] {admissible : α → Bool}

def intake (admissible : α → Bool) (present batch : List α) : List α :=
  (batch.filter fun x => admissible x && !present.contains x).eraseDups

@[simp] theorem intake_nil : intake admissible present [] = [] := rfl

theorem intake_skip (h : admissible x = false ∨ x ∈ present) :
    intake admissible present (x :: batch) = intake admissible present batch := by
  rcases h with h | h <;> simp [intake, h]

theorem intake_take (hx : admissible x = true) (hnew : x ∉ present) :
    intake admissible present (x :: batch) =
      x :: intake admissible (present ++ [x]) batch := by
  simp only [intake, hx, hnew, List.filter_cons, List.contains_eq_mem, decide_false, Bool.not_false,
    Bool.and_self, ↓reduceIte, List.eraseDups_cons, List.filter_filter]
  congr 3
  funext y
  by_cases hy : y = x <;> simp [hy]

theorem mem_intake :
    x ∈ intake admissible present batch ↔ x ∈ batch ∧ admissible x = true ∧ x ∉ present := by
  simp [intake]

theorem nodup_intake (present batch : List α) : (intake admissible present batch).Nodup := by
  induction batch generalizing present with
  | nil => exact .nil
  | cons x batch ih =>
    by_cases h : admissible x = true ∧ x ∉ present
    · rw [intake_take h.1 h.2, List.nodup_cons]
      exact ⟨fun hx => (mem_intake.mp hx).2.2 (by simp), ih _⟩
    · rw [intake_skip (by simpa [or_iff_not_imp_left] using h)]
      exact ih present

theorem intake_append (present l m : List α) :
    intake admissible present (l ++ m) = intake admissible present l ++
      intake admissible (present ++ intake admissible present l) m := by
  induction l generalizing present with
  | nil => simp
  | cons x l ih =>
    by_cases h : admissible x = true ∧ x ∉ present
    · rw [List.cons_append, intake_take h.1 h.2, intake_take h.1 h.2, ih]
      simp
    · have hskip : admissible x = false ∨ x ∈ present := by simpa [or_iff_not_imp_left] using h
      rw [List.cons_append, intake_skip hskip, intake_skip hskip, ih]

theorem intake_comm (present l m : List α) :
    (intake admissible present (l ++ m)).Perm (intake admissible present (m ++ l)) := by
  refine (List.perm_ext_iff_of_nodup (nodup_intake _ _) (nodup_intake _ _)).mpr fun x => ?_
  simp [mem_intake, or_comm]

theorem intake_length_le (present batch : List α) :
    (intake admissible present batch).length ≤ batch.length := by
  induction batch generalizing present with
  | nil => simp
  | cons x batch ih =>
    by_cases h : admissible x = true ∧ x ∉ present
    · rw [intake_take h.1 h.2]
      exact Nat.succ_le_succ (ih _)
    · rw [intake_skip (by simpa [or_iff_not_imp_left] using h)]
      exact Nat.le_trans (ih present) (Nat.le_succ _)

end GameRewards.Intake

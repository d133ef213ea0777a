import Mathlib.Data.List.Perm.Basic
import Mathlib.Data.List.Perm.Lattice
import Mathlib.Order.Lattice

/-!
# Sorting entries and paying from the top

`Sorter` is what a sorting routine promises and nothing more: a permutation in
comparator order. Entries that tie may come out in any order. The lemmas say
what a prefix of such a list is, read an arrangement of computed entries back
as an arrangement of what they were computed from, and give the place of an
entry that ties with no other: it is the same in every arrangement.
-/

namespace GameRewards.Ranking

structure Sorter (α : Type) (comp : α → α → Bool) where
  sort : List α → List α
  perm : ∀ l, (sort l).Perm l
  ordered : ∀ l, (sort l).Pairwise (fun a b => comp b a = false)

variable {α β : Type}

theorem exists_arrangement {f : α → β} {l : List α} {m : List β} (h : m.Perm (l.map f)) :
    ∃ arr : List α, arr.Perm l ∧ arr.map f = m := by
  induction l generalizing m with
  | nil => exact ⟨[], .nil, by simpa using h.symm⟩
  | cons a l ih =>
    obtain ⟨m₁, m₂, rfl⟩ := List.append_of_mem (h.mem_iff.mpr List.mem_cons_self)
    have hrest : (m₁ ++ m₂).Perm (l.map f) := (List.perm_middle.symm.trans h).cons_inv
    obtain ⟨arr, hperm, hmap⟩ := ih hrest
    obtain ⟨arr₁, arr₂, rfl, rfl, rfl⟩ := List.map_eq_append_iff.mp hmap
    exact ⟨arr₁ ++ a :: arr₂, List.perm_middle.trans (hperm.cons a), by simp⟩

theorem filterMap_map_some (f : α → Option β) (l : List α) :
    (l.filterMap f).map some = (l.filter fun a => (f a).isSome).map f := by
  induction l with
  | nil => rfl
  | cons a l ih =>
    cases h : f a with
    | none => simpa [h] using ih
    | some b => simpa [h] using ih

/-- An arrangement of the entries is an arrangement of the sources that yield
one, each standing for its own entry. -/
theorem exists_sources {f : α → Option β} {l : List α} {m : List β} (h : m.Perm (l.filterMap f)) :
    ∃ arr : List α, arr.Perm (l.filter fun a => (f a).isSome) ∧ arr.map f = m.map some := by
  refine exists_arrangement ?_
  rw [← filterMap_map_some]
  exact h.map some

theorem take_drop_ordered {R : α → α → Prop} {l : List α} (h : l.Pairwise R) (n : Nat) :
    ∀ a ∈ l.take n, ∀ b ∈ l.drop n, R a b := by
  rw [← List.take_append_drop n l, List.pairwise_append] at h
  exact h.2.2

theorem take_take_le {l : List α} (h : n ≤ k) : (l.take k).take n = l.take n := by
  rw [List.take_take, Nat.min_eq_left h]

-- ---------------------------------------------------------------------------
-- The place of an entry without ties
-- ---------------------------------------------------------------------------

section
variable {κ : Type} [LinearOrder κ] {f : α → κ}

theorem rank_eq_countP {l : List α} (h : l.Pairwise fun a b => f b ≤ f a)
    (hone : l.countP (fun a => f a = f x) = 1) (hget : l[k]? = some x) :
    l.countP (fun a => f x < f a) = k := by
  obtain ⟨hk, hx⟩ := List.getElem?_eq_some_iff.mp hget
  have hsplit : l = l.take k ++ x :: l.drop (k + 1) := by
    rw [← hx, ← List.drop_eq_getElem_cons hk, List.take_append_drop]
  have hlen : (l.take k).length = k := by
    rw [List.length_take, Nat.min_eq_left (Nat.le_of_lt hk)]
  generalize l.take k = above at *
  generalize l.drop (k + 1) = below at *
  subst hsplit
  rw [List.pairwise_append, List.pairwise_cons] at h
  obtain ⟨-, ⟨hbelow, -⟩, habove⟩ := h
  rw [List.countP_append, List.countP_cons_of_pos (by simp)] at hone
  have hnone : above.countP (fun a => f a = f x) = 0 := by omega
  have hhigher : ∀ a ∈ above, f x < f a := by
    intro a ha
    have hne : f a ≠ f x := by simpa using List.countP_eq_zero.mp hnone a ha
    exact lt_of_le_of_ne (habove a ha x List.mem_cons_self) hne.symm
  have hcountAbove : above.countP (fun a => f x < f a) = above.length :=
    List.countP_eq_length.mpr fun a ha => by simpa using hhigher a ha
  have hcountBelow : (x :: below).countP (fun a => f x < f a) = 0 := by
    refine List.countP_eq_zero.mpr fun b hb => ?_
    rcases List.mem_cons.mp hb with rfl | hb
    · simp
    · simpa using hbelow b hb
  rw [List.countP_append, hcountAbove, hcountBelow, hlen, Nat.add_zero]

theorem getElem?_of_perm {l m : List α} {k : Nat} {x : α} (hl : l.Pairwise fun a b => f b ≤ f a)
    (hm : m.Pairwise fun a b => f b ≤ f a) (hp : l.Perm m)
    (hone : l.countP (fun a => f a = f x) = 1) (hget : l[k]? = some x) : m[k]? = some x := by
  obtain ⟨j, hj⟩ := List.mem_iff_getElem?.mp (hp.mem_iff.mp (List.mem_of_getElem? hget))
  have hrank := rank_eq_countP hl hone hget
  rw [hp.countP_eq] at hone hrank
  rw [rank_eq_countP hm hone hj] at hrank
  rw [← hrank, hj]

theorem keys_of_perm {l m : List α} (hl : l.Pairwise fun a b => f b ≤ f a)
    (hm : m.Pairwise fun a b => f b ≤ f a) (hp : l.Perm m) : l.map f = m.map f := by
  have hl' : (l.map f).Pairwise fun x y => y ≤ x := List.pairwise_map.mpr hl
  have hm' : (m.map f).Pairwise fun x y => y ≤ x := List.pairwise_map.mpr hm
  apply (hp.map f).eq_of_pairwise _ hl' hm'
  intro x y _ _ hxy hyx
  exact le_antisymm hyx hxy

end

end GameRewards.Ranking

import Mathlib.Algebra.Order.Ring.Nat

/-!
# Consecutive periods of equal length

Periods are numbered from 1; period `n` is the half-open interval from
`opens n` to `closes n`. Times, lengths and numbers are unbounded.
-/

namespace GameRewards

structure Calendar where
  start : Nat
  len : Nat
  len_pos : 0 < len

namespace Calendar

variable (c : Calendar)

def periodOf (t : Nat) : Nat := (t - c.start) / c.len + 1

def opens (n : Nat) : Nat := c.start + (n - 1) * c.len

def closes (n : Nat) : Nat := c.start + n * c.len

theorem periodOf_pos (t : Nat) : 1 ≤ c.periodOf t := Nat.le_add_left 1 _

theorem periodOf_mono (h : t ≤ u) : c.periodOf t ≤ c.periodOf u :=
  Nat.add_le_add_right (Nat.div_le_div_right (Nat.sub_le_sub_right h c.start)) 1

theorem lt_periodOf_iff (h : c.start ≤ t) : n < c.periodOf t ↔ c.closes n ≤ t := by
  have hdiv : n ≤ (t - c.start) / c.len ↔ n * c.len ≤ t - c.start := Nat.le_div_iff_mul_le c.len_pos
  unfold periodOf closes
  omega

theorem lt_closes_periodOf (h : c.start ≤ t) : t < c.closes (c.periodOf t) := by
  by_contra hge
  exact absurd ((c.lt_periodOf_iff h).mpr (Nat.not_lt.mp hge)) (lt_irrefl _)

theorem le_periodOf_iff (h : c.start ≤ t) (hn : 1 ≤ n) : n ≤ c.periodOf t ↔ c.opens n ≤ t := by
  have hdiv : n - 1 ≤ (t - c.start) / c.len ↔ (n - 1) * c.len ≤ t - c.start :=
    Nat.le_div_iff_mul_le c.len_pos
  unfold periodOf opens
  omega

theorem opens_periodOf_le (h : c.start ≤ t) : c.opens (c.periodOf t) ≤ t :=
  (c.le_periodOf_iff h (c.periodOf_pos t)).mp le_rfl

theorem closes_eq (hn : 1 ≤ n) : c.closes n = c.opens n + c.len := by
  obtain ⟨n, rfl⟩ := Nat.exists_eq_add_of_le' hn
  simp [closes, opens, Nat.add_mul, Nat.add_assoc]

end Calendar

end GameRewards

import Mathlib.Algebra.BigOperators.Group.List.Basic
import Mathlib.Algebra.Order.BigOperators.Group.List
import Mathlib.Algebra.Order.Ring.Nat

/-!
# Shares of a total, rounded down twice

`share` takes `p` parts of `den` of a total, rounds down, and rounds down
again to a multiple of `unit`. Shares never overspend; each loses less than
`unit`, and nothing at all exactly when `unit` divides it.
-/

namespace GameRewards.Shares

def share (total den unit p : Nat) : Nat := total * p / den / unit * unit

theorem share_mul_le (total den unit p : Nat) : share total den unit p * den ≤ total * p :=
  calc share total den unit p * den
      ≤ total * p / den * den := Nat.mul_le_mul_right den (Nat.div_mul_le_self _ unit)
    _ ≤ total * p := Nat.div_mul_le_self _ den

theorem sum_shares_mul_le (total den unit : Nat) (ps : List Nat) :
    (ps.map (share total den unit)).sum * den ≤ total * ps.sum := by
  induction ps with
  | nil => simp
  | cons p ps ih =>
    have hp := share_mul_le total den unit p
    simp only [List.map_cons, List.sum_cons, Nat.add_mul, Nat.mul_add]
    exact Nat.add_le_add hp ih

theorem sum_shares_le {total den unit : Nat} {ps : List Nat} (hd : 0 < den) (h : ps.sum ≤ den) :
    (ps.map (share total den unit)).sum ≤ total := by
  have hsum := sum_shares_mul_le total den unit ps
  have hall : total * ps.sum ≤ total * den := Nat.mul_le_mul_left total h
  exact Nat.le_of_mul_le_mul_right (hsum.trans hall) hd

-- ---------------------------------------------------------------------------
-- What rounding loses
-- ---------------------------------------------------------------------------

theorem lt_share_mul (hd : 0 < den) (hu : 0 < unit) (total p : Nat) :
    total * p < share total den unit p * den + unit * den := by
  have hq : total * p / den < share total den unit p + unit := Nat.lt_div_mul_add hu
  have hlt : total * p < (share total den unit p + unit) * den := (Nat.div_lt_iff_lt_mul hd).mp hq
  rwa [Nat.add_mul] at hlt

theorem sum_add_length_le (hd : 0 < den) (hu : 0 < unit) (total : Nat) (ps : List Nat) :
    total * ps.sum + ps.length ≤
      (ps.map (share total den unit)).sum * den + ps.length * (unit * den) := by
  induction ps with
  | nil => simp
  | cons p ps ih =>
    have hp := lt_share_mul hd hu total p
    simp only [List.map_cons, List.sum_cons, List.length_cons, Nat.add_mul, Nat.mul_add, Nat.one_mul]
    omega

-- ---------------------------------------------------------------------------
-- When rounding loses nothing
-- ---------------------------------------------------------------------------

theorem share_le (total den unit p : Nat) : share total den unit p ≤ total * p / den :=
  Nat.div_mul_le_self _ _

theorem share_eq_iff (total den unit p : Nat) :
    share total den unit p = total * p / den ↔ unit ∣ total * p / den :=
  ⟨fun h => h ▸ Nat.dvd_mul_left _ _, Nat.div_mul_cancel⟩

theorem sum_eq_sum_iff {f g : Nat → Nat} {ps : List Nat} (h : ∀ p ∈ ps, f p ≤ g p) :
    (ps.map f).sum = (ps.map g).sum ↔ ∀ p ∈ ps, f p = g p := by
  induction ps with
  | nil => simp
  | cons p ps ih =>
    have hp := h p List.mem_cons_self
    have hps : ∀ q ∈ ps, f q ≤ g q := fun q hq => h q (List.mem_cons_of_mem _ hq)
    have hsum : (ps.map f).sum ≤ (ps.map g).sum := List.sum_le_sum hps
    simp only [List.map_cons, List.sum_cons, List.forall_mem_cons, ← ih hps]
    omega

theorem sum_whole {total den : Nat} {ps : List Nat} (h : ∀ p ∈ ps, den ∣ total * p) :
    (ps.map fun p => total * p / den).sum * den = total * ps.sum := by
  induction ps with
  | nil => simp
  | cons p ps ih =>
    obtain ⟨hp, hps⟩ := List.forall_mem_cons.mp h
    rw [List.map_cons, List.sum_cons, List.sum_cons, Nat.add_mul, Nat.mul_add, ih hps,
      Nat.div_mul_cancel hp]

/-- Whole shares of all the parts pay out the total exactly when the unit
divides each of them. -/
theorem sum_shares_eq_iff {total den : Nat} {ps : List Nat} (unit : Nat) (hd : 0 < den)
    (hps : ps.sum = den) (hwhole : ∀ p ∈ ps, den ∣ total * p) :
    (ps.map (share total den unit)).sum = total ↔ ∀ p ∈ ps, unit ∣ total * p / den := by
  have htotal : (ps.map fun p => total * p / den).sum = total := by
    have hmul := sum_whole hwhole
    rw [hps] at hmul
    exact Nat.eq_of_mul_eq_mul_right hd hmul
  have hiff := sum_eq_sum_iff fun p (_ : p ∈ ps) => share_le total den unit p
  rw [htotal] at hiff
  simpa only [share_eq_iff] using hiff

end GameRewards.Shares

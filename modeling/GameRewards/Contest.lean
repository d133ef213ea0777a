import GameRewards.Traces
import Mathlib.Data.Set.Insert

/-!
# A contest in periods

Entries are made and withdrawn. Each entry falls into one period, and a period
is settled once, by naming the best of the entries that stand in it then.

An entry stands exactly if it was made and not withdrawn since, so the winners
are judged on what was entered and on nothing else.
-/

namespace GameRewards.Contest

open Traces (Trace Since)

variable {α κ β : Type} [LinearOrder β]

@[ext] structure State (α κ : Type) where
  standing : Set α
  settled : Set κ

def State.fresh : State α κ := ⟨∅, ∅⟩

def NoBetter (score : α → Option β) (a b : α) : Prop :=
  ∀ x y, score a = some x → score b = some y → x ≤ y

/-- The best of those in the field that have a score, best first: at most one
for each place, and nobody is left out for less. -/
structure Winners (field : Set α) (score : α → Option β) (places : Nat) (winners : List α) :
    Prop where
  nodup : winners.Nodup
  compete : ∀ w ∈ winners, w ∈ field ∧ (score w).isSome = true
  ordered : winners.Pairwise fun a b => NoBetter score b a
  places_le : winners.length ≤ places
  beaten : ∀ a ∈ field, (score a).isSome = true → a ∉ winners →
    winners.length = places ∧ ∀ w ∈ winners, NoBetter score a w

theorem Winners.of_ranking {field : Set α} {score : α → Option β} {ranking : List α}
    (hnodup : ranking.Nodup) (hmem : ∀ a, a ∈ ranking ↔ a ∈ field ∧ (score a).isSome = true)
    (hordered : ranking.Pairwise fun a b => NoBetter score b a) (places : Nat) :
    Winners field score places (ranking.take places) where
  nodup := hnodup.sublist (List.take_sublist _ _)
  compete w hw := (hmem w).mp (List.mem_of_mem_take hw)
  ordered := hordered.sublist (List.take_sublist _ _)
  places_le := List.length_take_le _ _
  beaten a ha hscore hout := by
    have hin : a ∈ ranking.take places ++ ranking.drop places := by
      rw [List.take_append_drop]
      exact (hmem a).mpr ⟨ha, hscore⟩
    have hbehind : a ∈ ranking.drop places := (List.mem_append.mp hin).resolve_left hout
    have hcut := hordered
    rw [← List.take_append_drop places ranking, List.pairwise_append] at hcut
    refine ⟨?_, fun w hw => hcut.2.2 w hw a hbehind⟩
    rw [List.length_take, Nat.min_eq_left]
    have hlen := List.length_pos_of_mem hbehind
    rw [List.length_drop] at hlen
    omega

inductive Label (α κ β : Type)
  | enter (new : Set α)
  | withdraw (gone : Set α)
  | settle (period : κ) (score : α → Option β) (places : Nat) (winners : List α)
  | restart
  | idle

inductive Step (period : α → κ) : State α κ → Label α κ β → State α κ → Prop
  | enter : Step period s (.enter new) { s with standing := s.standing ∪ new }
  | withdraw : Step period s (.withdraw gone) { s with standing := s.standing \ gone }
  | settle : k ∉ s.settled → Winners {a ∈ s.standing | period a = k} score places winners →
      Step period s (.settle k score places winners) { s with settled := insert k s.settled }
  | restart : Step period s .restart .fresh
  | idle : Step period s .idle s

def Label.Enters (a : α) : Label α κ β → Prop
  | .enter new => a ∈ new
  | _ => False

def Label.Removes (a : α) : Label α κ β → Prop
  | .withdraw gone => a ∈ gone
  | .restart => True
  | _ => False

theorem Step.standing_iff {period : α → κ} {s s' : State α κ} {l : Label α κ β}
    (h : Step period s l s') (a : α) :
    a ∈ s'.standing ↔ l.Enters a ∨ a ∈ s.standing ∧ ¬ l.Removes a := by
  cases h with
  | enter => simp [Label.Enters, Label.Removes, or_comm]
  | withdraw => simp [Label.Enters, Label.Removes]
  | settle _ _ => simp [Label.Enters, Label.Removes]
  | restart => simp [Label.Enters, Label.Removes, State.fresh]
  | idle => simp [Label.Enters, Label.Removes]

/-- An entry stands if it was made and not withdrawn since. -/
theorem standing_iff {period : α → κ} {s : State α κ} {ls : List (Label α κ β)}
    (h : Trace (Step period) .fresh ls s) (a : α) :
    a ∈ s.standing ↔ Since (Label.Enters a) (Label.Removes a) ls :=
  h.holds_iff_since (I := fun _ => True) (F := fun s => a ∈ s.standing) trivial
    (fun _ _ _ _ _ => trivial) (Set.notMem_empty a) fun _ _ _ _ hstep => hstep.standing_iff a

end GameRewards.Contest

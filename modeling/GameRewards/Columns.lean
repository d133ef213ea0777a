import Mathlib.Data.List.Perm.Basic

/-!
# Two columns read as a map

Keys and values in two lists; `lookup` gives the value at the first position of
a key. Rearranging the rows changes it only for keys with two different values.
-/

namespace GameRewards.Columns

variable {κ ν : Type}

def lookup [DecidableEq κ] (keys : List κ) (values : List ν) (key : κ) : Option ν :=
  (keys.findIdx? (· = key)).bind fun i => values[i]?

/-- The same rows in some order. Columns of different lengths have no rows. -/
structure Rearranged (keys : List κ) (values : List ν) (keys' : List κ) (values' : List ν) :
    Prop where
  keys_length : keys.length = keys'.length
  values_length : values.length = values'.length
  rows : keys.length = values.length → (keys.zip values).Perm (keys'.zip values')

variable {keys keys' : List κ} {values values' : List ν}

theorem map_fst_zip (h : keys.length = values.length) : (keys.zip values).map Prod.fst = keys :=
  List.map_fst_zip (Nat.le_of_eq h)

theorem Rearranged.keys_perm (h : Rearranged keys values keys' values')
    (hlen : keys.length = values.length) : keys.Perm keys' := by
  have hlen' : keys'.length = values'.length := by rw [← h.keys_length, hlen, h.values_length]
  have hkeys := (h.rows hlen).map Prod.fst
  rwa [map_fst_zip hlen, map_fst_zip hlen'] at hkeys

variable [DecidableEq κ]

theorem lookup_eq_find (hlen : keys.length = values.length) (key : κ) :
    lookup keys values key = ((keys.zip values).find? fun row => row.1 = key).map Prod.snd := by
  induction keys generalizing values with
  | nil => rfl
  | cons k keys ih =>
    cases values with
    | nil => cases hlen
    | cons v values =>
      by_cases hk : k = key
      · simp [lookup, hk, List.findIdx?_cons]
      · have hrest : lookup (k :: keys) (v :: values) key = lookup keys values key := by
          simp only [lookup, List.findIdx?_cons, hk, decide_false, Bool.false_eq_true, ↓reduceIte,
            Option.bind_map, Function.comp_def, List.getElem?_cons_succ]
        rw [hrest, ih (Nat.succ.inj hlen), List.zip_cons_cons, List.find?_cons_of_neg (by simpa)]

theorem lookup_mem (hlen : keys.length = values.length) (h : lookup keys values key = some v) :
    (key, v) ∈ keys.zip values := by
  rw [lookup_eq_find hlen, Option.map_eq_some_iff] at h
  obtain ⟨row, hrow, rfl⟩ := h
  have hkey : row.1 = key := by simpa using List.find?_some hrow
  rw [← hkey]
  exact List.mem_of_find?_eq_some hrow

theorem lookup_eq_none (hlen : keys.length = values.length) :
    lookup keys values key = none ↔ ∀ v, (key, v) ∉ keys.zip values := by
  rw [lookup_eq_find hlen, Option.map_eq_none_iff, List.find?_eq_none]
  constructor
  · intro h v hv
    simpa using h (key, v) hv
  · rintro h ⟨k, v⟩ hv hk
    obtain rfl : k = key := by simpa using hk
    exact h v hv

/-- A key without two different values keeps its value. -/
theorem Rearranged.lookup_eq (h : Rearranged keys values keys' values')
    (hlen : keys.length = values.length)
    (hone : ∀ v v', (key, v) ∈ keys.zip values → (key, v') ∈ keys.zip values → v = v') :
    lookup keys values key = lookup keys' values' key := by
  have hlen' : keys'.length = values'.length := by rw [← h.keys_length, hlen, h.values_length]
  have hrows := h.rows hlen
  cases hv : lookup keys values key with
  | none =>
    rw [lookup_eq_none hlen] at hv
    rw [eq_comm, lookup_eq_none hlen']
    exact fun v hmem => hv v (hrows.mem_iff.mpr hmem)
  | some v =>
    have hmem := lookup_mem hlen hv
    cases hv' : lookup keys' values' key with
    | none => exact absurd (hrows.mem_iff.mp hmem) ((lookup_eq_none hlen').mp hv' v)
    | some v' => rw [hone v v' hmem (hrows.mem_iff.mpr (lookup_mem hlen' hv'))]

end GameRewards.Columns

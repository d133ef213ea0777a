import GameRewards.MultiIndex.Table
import Mathlib.Algebra.BigOperators.Group.List.Basic
import Mathlib.Algebra.Order.BigOperators.Group.List
import Mathlib.Algebra.Order.Ring.Int
import Mathlib.Data.Prod.Lex

/-!
# Tables as maps, and what they add up to

A table is a map from keys to rows: `find` after each operation. `total` adds up
a value over the rows; each operation changes it by the row it writes and the
row it replaces. `mapRows` rewrites all rows in place, and commutes with every
operation.

Rows of one table under many scopes are one table: its key is the scope with
the key inside the scope.
-/

namespace GameRewards.MultiIndex

namespace Table

variable {α ι : Type} [LinearOrder ι] {pk : α → ι}

-- ---------------------------------------------------------------------------
-- Lookups
-- ---------------------------------------------------------------------------

theorem find_key {t : Table pk} (h : t.find k = some r) : pk r = k := (t.find_eq_some.mp h).2

theorem eq_of_append {t u v : Table pk} (h : u.rows = t.rows ++ new)
    (hv : ∀ r, r ∈ v.rows ↔ r ∈ u.rows ∧ pk r ∉ new.map pk) : v = t := by
  have hnodup := u.nodup_keys
  rw [h, List.map_append, List.nodup_append] at hnodup
  obtain ⟨-, -, hdisjoint⟩ := hnodup
  refine ext_rows (rows_ext v.sorted t.sorted fun r => ?_)
  rw [hv, h, List.mem_append]
  constructor
  · rintro ⟨hr | hr, hkept⟩
    · exact hr
    · exact absurd (List.mem_map_of_mem hr) hkept
  · exact fun hr => ⟨.inl hr, fun hgone => hdisjoint _ (List.mem_map_of_mem hr) _ hgone rfl⟩

theorem emplace_of_find {t : Table pk} (h : t.find (pk row) = none) :
    ∃ u, t.emplace row = some u :=
  ⟨_, dif_pos (t.find_eq_none.mp h)⟩

theorem find_emplace {t u : Table pk} (h : t.emplace row = some u) (k : ι) :
    u.find k = if k = pk row then some row else t.find k := by
  obtain ⟨hfree, hmem⟩ := emplace_eq_some h
  split
  · rename_i hk
    exact u.find_eq_some.mpr ⟨(hmem row).mpr (.inl rfl), hk.symm⟩
  · rename_i hk
    refine Option.ext fun r => ?_
    rw [u.find_eq_some, t.find_eq_some, hmem]
    constructor
    · rintro ⟨rfl | hr, hkey⟩
      · exact absurd hkey.symm hk
      · exact ⟨hr, hkey⟩
    · exact fun ⟨hr, hkey⟩ => ⟨.inr hr, hkey⟩

theorem find_modify (t : Table pk) (hf : ∀ r, pk (f r) = pk r) (k k' : ι) :
    (t.modify k f hf).find k' = if k' = k then (t.find k).map f else t.find k' := by
  have hkeys : ((fun r => decide (pk r = k')) ∘ fun r => if pk r = k then f r else r) =
      fun r => decide (pk r = k') := by
    funext r
    rw [Function.comp_apply]
    split <;> simp [hf]
  simp only [find, modify, List.find?_map, hkeys]
  split
  · rename_i hk
    subst hk
    refine Option.map_congr fun r hr => if_pos ?_
    simpa using List.find?_some hr
  · rename_i hk
    cases hr : t.rows.find? (fun r => decide (pk r = k')) with
    | none => rfl
    | some r =>
      have hkey : pk r = k' := by simpa using List.find?_some hr
      rw [Option.map_some, if_neg (hkey ▸ hk)]

theorem find_overwrite {t : Table pk} (hfind : t.find k = some r) (hf : ∀ r, pk (f r) = pk r)
    (k' : ι) : (t.modify (pk r) f hf).find k' = if k' = k then some (f r) else t.find k' := by
  rw [find_modify, find_key hfind, hfind, Option.map_some]

theorem find_erase (t : Table pk) (k k' : ι) :
    (t.erase k).find k' = if k' = k then none else t.find k' := by
  split
  · rename_i hk
    refine (find_eq_none _).mpr fun r hr hkey => ?_
    exact ((mem_erase t).mp hr).2 (hkey.trans hk)
  · rename_i hk
    refine Option.ext fun r => ?_
    rw [find_eq_some, find_eq_some, mem_erase]
    constructor
    · rintro ⟨⟨hr, -⟩, hkey⟩
      exact ⟨hr, hkey⟩
    · rintro ⟨hr, hkey⟩
      exact ⟨⟨hr, hkey ▸ hk⟩, hkey⟩

-- ---------------------------------------------------------------------------
-- Totals
-- ---------------------------------------------------------------------------

def total (t : Table pk) (v : α → Int) : Int := (t.rows.map v).sum

theorem total_emplace {t u : Table pk} (h : t.emplace row = some u) (v : α → Int) :
    u.total v = t.total v + v row := by
  unfold emplace at h
  split at h
  · obtain rfl := Option.some.inj h
    have hperm := (List.perm_orderedInsert (fun a b => pk a ≤ pk b) row t.rows).map v
    rw [total, hperm.sum_eq, List.map_cons, List.sum_cons, add_comm, total]
  · cases h

theorem rows_split {t : Table pk} (h : t.find k = some r) :
    ∃ before after, t.rows = before ++ r :: after ∧
      (∀ x ∈ before, pk x ≠ k) ∧ ∀ x ∈ after, pk x ≠ k := by
  obtain ⟨hr, rfl⟩ := t.find_eq_some.mp h
  obtain ⟨before, after, hrows⟩ := List.append_of_mem hr
  have hs := t.sorted
  rw [hrows, List.pairwise_append, List.pairwise_cons] at hs
  exact ⟨before, after, hrows, fun x hx => (hs.2.2 x hx r List.mem_cons_self).ne,
    fun x hx => (hs.2.1.1 x hx).ne'⟩

theorem total_modify {t : Table pk} (h : t.find k = some r) (hf : ∀ r, pk (f r) = pk r)
    (v : α → Int) : (t.modify k f hf).total v = t.total v - v r + v (f r) := by
  obtain ⟨before, after, hrows, hbefore, hafter⟩ := rows_split h
  have hkey : pk r = k := find_key h
  have hsame : ∀ l : List α, (∀ x ∈ l, pk x ≠ k) →
      l.map (fun x => if pk x = k then f x else x) = l := by
    intro l hl
    rw [List.map_congr_left fun x hx => if_neg (hl x hx), List.map_id']
  simp only [total, modify, hrows, List.map_append, List.map_cons, hsame _ hbefore,
    hsame _ hafter, hkey, ↓reduceIte, List.sum_append, List.sum_cons]
  omega

theorem total_erase {t : Table pk} (h : t.find k = some r) (v : α → Int) :
    (t.erase k).total v = t.total v - v r := by
  obtain ⟨before, after, hrows, hbefore, hafter⟩ := rows_split h
  have hkey : pk r = k := find_key h
  have hsame : ∀ l : List α, (∀ x ∈ l, pk x ≠ k) → l.filter (fun x => pk x ≠ k) = l := by
    intro l hl
    exact List.filter_eq_self.mpr fun x hx => by simpa using hl x hx
  have hgone : [r].filter (fun x => pk x ≠ k) = [] := by simp [hkey]
  rw [← List.singleton_append] at hrows
  simp only [total, erase, hrows, List.filter_append, hsame _ hbefore, hsame _ hafter, hgone,
    List.map_append, List.sum_append, List.map_cons, List.map_nil, List.sum_cons, List.sum_nil]
  omega

theorem le_total {t : Table pk} (hr : r ∈ t.rows) (hv : ∀ x ∈ t.rows, 0 ≤ v x) :
    v r ≤ t.total v := by
  refine List.single_le_sum (l := t.rows.map v) ?_ _ (List.mem_map_of_mem hr)
  exact List.forall_mem_map.mpr hv

-- ---------------------------------------------------------------------------
-- Rewriting every row
-- ---------------------------------------------------------------------------

/-- Rewrite all rows; no rewrite may move a row. -/
def mapRows (f : α → α) (hf : ∀ r, pk (f r) = pk r) (t : Table pk) : Table pk where
  rows := t.rows.map f
  sorted := by
    rw [List.pairwise_map]
    simpa only [hf] using t.sorted

section
variable {f : α → α} (hf : ∀ r, pk (f r) = pk r)

@[simp] theorem mapRows_rows (t : Table pk) : (t.mapRows f hf).rows = t.rows.map f := rfl

theorem find_mapRows (t : Table pk) (k : ι) : (t.mapRows f hf).find k = (t.find k).map f := by
  simp only [find, mapRows, List.find?_map, Function.comp_def, hf]

theorem erase_mapRows (t : Table pk) (k : ι) :
    (t.mapRows f hf).erase k = (t.erase k).mapRows f hf := by
  apply ext_rows
  simp only [erase, mapRows, List.filter_map, Function.comp_def, hf]

theorem emplace_mapRows (t : Table pk) (row : α) :
    (t.mapRows f hf).emplace (f row) = (t.emplace row).map (mapRows f hf) := by
  cases h : t.emplace row with
  | none =>
    have htaken : ¬ ∀ r ∈ t.rows, pk r ≠ pk row := fun hfree => by
      simp [emplace, dif_pos hfree] at h
    refine dif_neg fun hfree => htaken fun r hr => ?_
    have hkeys := hfree (f r) (List.mem_map_of_mem hr)
    rwa [hf, hf] at hkeys
  | some u =>
    obtain ⟨hfree, hmem⟩ := emplace_eq_some h
    have hfind : (t.mapRows f hf).find (pk (f row)) = none := by
      rw [find_mapRows, hf, hfree]
      rfl
    obtain ⟨v, hv⟩ := emplace_of_find hfind
    rw [hv, Option.map_some]
    refine congrArg some (ext_rows (rows_ext v.sorted (u.mapRows f hf).sorted fun r => ?_))
    rw [(emplace_eq_some hv).2]
    simp only [mapRows_rows, List.mem_map, hmem, or_and_right, exists_or, exists_eq_left]
    rw [eq_comm]

end

end Table

namespace Handle

variable {α : Type} {pk : α → UInt64} {f : α → α} (hf : ∀ r, pk (f r) = pk r)

def mapRows (f : α → α) (hf : ∀ r, pk (f r) = pk r) (h : Handle pk) : Handle pk :=
  ⟨h.table.mapRows f hf, h.next⟩

theorem firstFree_mapRows (t : Table pk) : firstFree (t.mapRows f hf) = firstFree t := by
  apply firstFree_congr
  simp only [Table.mapRows_rows, List.map_map, Function.comp_def, hf]

theorem availablePrimaryKey_mapRows (h : Handle pk) :
    (h.mapRows f hf).availablePrimaryKey =
      h.availablePrimaryKey.map (Prod.map id (mapRows f hf)) := by
  simp only [availablePrimaryKey, mapRows, firstFree_mapRows]
  split
  · rfl
  · rfl

theorem emplace_mapRows (h : Handle pk) (row : α) :
    (h.mapRows f hf).emplace (f row) = (h.emplace row).map (mapRows f hf) := by
  simp only [emplace, mapRows, Table.emplace_mapRows, hf, Option.map_map]
  rfl

end Handle

-- ---------------------------------------------------------------------------
-- Scopes
-- ---------------------------------------------------------------------------

structure Scoped (α : Type) where
  scope : UInt64
  row : α
  deriving DecidableEq, Repr

def Scoped.key {ι : Type} (pk : α → ι) (r : Scoped α) : UInt64 ×ₗ ι := toLex (r.scope, pk r.row)

theorem Scoped.key_eq {ι : Type} {pk : α → ι} {r : Scoped α} {scope : UInt64} {k : ι} :
    r.key pk = toLex (scope, k) ↔ r.scope = scope ∧ pk r.row = k := by
  rw [Scoped.key, toLex_inj, Prod.mk.injEq]

end GameRewards.MultiIndex

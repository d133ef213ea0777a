import Mathlib.Data.List.Sort
import Mathlib.Data.List.Nodup
import Mathlib.Logic.Function.Iterate

/-!
# Tables under a primary key

A table is the list of its rows in strictly increasing primary key order. The
order is a field, so two rows never share a key and the set of rows determines
the table. The key type is any linear order; only the automatic keys of
`Handle` need 64-bit integers.
-/

namespace GameRewards.MultiIndex

instance uint64LinearOrder : LinearOrder UInt64 where
  le_refl a := UInt64.le_refl a
  le_trans _ _ _ h k := UInt64.le_trans h k
  lt_iff_le_not_ge a b := by simp only [UInt64.lt_iff_toNat_lt, UInt64.le_iff_toNat_le]; omega
  le_antisymm _ _ h k := UInt64.le_antisymm h k
  le_total a b := UInt64.le_total a b
  toDecidableLE := inferInstance
  toDecidableEq := inferInstance
  toDecidableLT := inferInstance

structure Table {α ι : Type} [LinearOrder ι] (pk : α → ι) where
  rows : List α
  sorted : rows.Pairwise (fun a b => pk a < pk b)

variable {α ι : Type} [LinearOrder ι] {pk : α → ι}

theorem Table.ext_rows {t u : Table pk} (h : t.rows = u.rows) : t = u := by
  cases t; cases u; cases h; rfl

instance [DecidableEq α] : DecidableEq (Table pk) := fun t u =>
  decidable_of_iff (t.rows = u.rows) ⟨Table.ext_rows, fun h => h ▸ rfl⟩

namespace Table

-- ---------------------------------------------------------------------------
-- Keys
-- ---------------------------------------------------------------------------

theorem nodup_keys (t : Table pk) : (t.rows.map pk).Nodup := by
  rw [List.nodup_iff_pairwise_ne, List.pairwise_map]
  exact t.sorted.imp fun h => h.ne

theorem nodup (t : Table pk) : t.rows.Nodup := t.nodup_keys.of_map

theorem key_inj (t : Table pk) (ha : a ∈ t.rows) (hb : b ∈ t.rows) (h : pk a = pk b) : a = b :=
  List.inj_on_of_nodup_map t.nodup_keys ha hb h

theorem rows_ext {l m : List α} (hl : l.Pairwise (fun a b => pk a < pk b))
    (hm : m.Pairwise (fun a b => pk a < pk b)) (h : ∀ r, r ∈ l ↔ r ∈ m) : l = m := by
  have hp : l.Perm m := by
    refine (List.perm_ext_iff_of_nodup ?_ ?_).mpr h
    · exact (nodup ⟨l, hl⟩ : _)
    · exact (nodup ⟨m, hm⟩ : _)
  refine hp.eq_of_pairwise ?_ hl hm
  intro a b _ _ hab hba
  exact absurd hba hab.asymm

-- ---------------------------------------------------------------------------
-- Operations
-- ---------------------------------------------------------------------------

def empty : Table pk := ⟨[], .nil⟩

def find (t : Table pk) (k : ι) : Option α := t.rows.find? (fun r => pk r = k)

theorem find_eq_some (t : Table pk) : t.find k = some r ↔ r ∈ t.rows ∧ pk r = k := by
  constructor
  · intro h
    exact ⟨List.mem_of_find?_eq_some h, by simpa using List.find?_some h⟩
  · rintro ⟨hr, rfl⟩
    cases hf : t.find (pk r) with
    | none => simpa using List.find?_eq_none.mp hf r hr
    | some s =>
      have hs : pk s = pk r := by simpa using List.find?_some hf
      rw [t.key_inj (List.mem_of_find?_eq_some hf) hr hs]

theorem find_eq_none (t : Table pk) : t.find k = none ↔ ∀ r ∈ t.rows, pk r ≠ k := by
  simp [find]

def emplace (t : Table pk) (row : α) : Option (Table pk) :=
  if h : ∀ r ∈ t.rows, pk r ≠ pk row then
    some ⟨t.rows.orderedInsert (fun a b => pk a ≤ pk b) row, by
      have hle : (t.rows.orderedInsert (fun a b => pk a ≤ pk b) row).Pairwise
          (fun a b => pk a ≤ pk b) := by
        have : Std.Total (fun a b : α => pk a ≤ pk b) := ⟨fun a b => le_total _ _⟩
        have : IsTrans α (fun a b => pk a ≤ pk b) := ⟨fun _ _ _ => le_trans⟩
        exact (t.sorted.imp le_of_lt).orderedInsert row _
      have hne : (t.rows.orderedInsert (fun a b => pk a ≤ pk b) row).Pairwise
          (fun a b => pk a ≠ pk b) := by
        have hp := (List.perm_orderedInsert (fun a b => pk a ≤ pk b) row t.rows).map pk
        rw [← List.pairwise_map, ← List.nodup_iff_pairwise_ne, hp.nodup_iff]
        refine List.nodup_cons.mpr ⟨?_, t.nodup_keys⟩
        simpa using h
      exact hle.imp₂ (fun _ _ h k => lt_of_le_of_ne h k) hne⟩
  else none

theorem emplace_eq_some {t u : Table pk} (h : t.emplace row = some u) :
    t.find (pk row) = none ∧ ∀ r, r ∈ u.rows ↔ r = row ∨ r ∈ t.rows := by
  unfold emplace at h
  split at h
  · rename_i hk
    obtain rfl := Option.some.inj h
    refine ⟨t.find_eq_none.mpr hk, fun r => ?_⟩
    simp [List.mem_orderedInsert]
  · cases h

theorem emplace_append {t u : Table pk} (h : t.emplace row = some u)
    (hk : ∀ r ∈ t.rows, pk r < pk row) : u.rows = t.rows ++ [row] := by
  refine rows_ext u.sorted ?_ fun r => ?_
  · simpa [List.pairwise_append] using ⟨t.sorted, hk⟩
  · simp [(emplace_eq_some h).2 r, or_comm]

theorem emplace_exists {t : Table pk} (h : ∀ r ∈ t.rows, pk r < pk row) :
    ∃ u, t.emplace row = some u :=
  ⟨_, dif_pos fun r hr => (h r hr).ne⟩

def modify (t : Table pk) (k : ι) (f : α → α) (hf : ∀ r, pk (f r) = pk r) : Table pk where
  rows := t.rows.map fun r => if pk r = k then f r else r
  sorted := by
    rw [List.pairwise_map]
    refine t.sorted.imp fun {a b} h => ?_
    split <;> split <;> simpa [hf] using h

def erase (t : Table pk) (k : ι) : Table pk where
  rows := t.rows.filter fun r => pk r ≠ k
  sorted := t.sorted.filter _

@[simp] theorem mem_erase (t : Table pk) : r ∈ (t.erase k).rows ↔ r ∈ t.rows ∧ pk r ≠ k := by
  simp [erase]

/-- `while (it != end) it = erase(it)` from `begin`; the fuel is the number of
rows, one pass for each. -/
def clearFrom : Nat → Table pk → Table pk
  | 0, t => t
  | fuel + 1, t =>
    match t.rows.head? with
    | none => t
    | some r => clearFrom fuel (t.erase (pk r))

def clear (t : Table pk) : Table pk := clearFrom t.rows.length t

theorem erase_head (t : Table pk) (h : t.rows = r :: rest) : (t.erase (pk r)).rows = rest := by
  have hs := t.sorted
  rw [h, List.pairwise_cons] at hs
  have hrest : rest.filter (fun x => decide (pk x ≠ pk r)) = rest :=
    List.filter_eq_self.mpr fun x hx => by simpa using (hs.1 x hx).ne'
  simpa [erase, h] using hrest

theorem clearFrom_eq_empty (t : Table pk) (h : t.rows.length ≤ fuel) :
    clearFrom fuel t = empty := by
  induction fuel generalizing t with
  | zero => exact ext_rows (List.length_eq_zero_iff.mp (Nat.le_zero.mp h))
  | succ fuel ih =>
    unfold clearFrom
    cases hr : t.rows with
    | nil => exact ext_rows hr
    | cons r rest =>
      have he := t.erase_head hr
      refine ih _ ?_
      rw [he]
      simpa [hr] using h

@[simp] theorem clear_eq_empty (t : Table pk) : t.clear = empty := t.clearFrom_eq_empty le_rfl

end Table

-- ---------------------------------------------------------------------------
-- Automatic keys
-- ---------------------------------------------------------------------------

/-- An open table object. `next` caches the next automatic key; `none` stands
for a cache not filled yet. -/
structure Handle {α : Type} (pk : α → UInt64) where
  table : Table pk
  next : Option UInt64

namespace Handle

variable {pk : α → UInt64}

/-- The autoincrement limit: no automatic key reaches it. -/
def noAvailablePrimaryKey : UInt64 := 0xFFFFFFFFFFFFFFFE

def successor (k : UInt64) : UInt64 :=
  if noAvailablePrimaryKey ≤ k then noAvailablePrimaryKey else k + 1

def ofTable (t : Table pk) : Handle pk := ⟨t, none⟩

/-- One above the last key of the table, or 0 when it is empty. -/
def firstFree (t : Table pk) : UInt64 :=
  match t.rows.getLast? with
  | none => 0
  | some r => successor (pk r)

def availablePrimaryKey (h : Handle pk) : Option (UInt64 × Handle pk) :=
  let k := h.next.getD (firstFree h.table)
  if k < noAvailablePrimaryKey then some (k, { h with next := some k }) else none

def emplace (h : Handle pk) (row : α) : Option (Handle pk) :=
  (h.table.emplace row).map fun t =>
    { table := t, next := h.next.map fun n => if n ≤ pk row then successor (pk row) else n }

/-- A filled cache is above every stored key, or at the limit. -/
def Fresh (h : Handle pk) : Prop :=
  ∀ n, h.next = some n → n < noAvailablePrimaryKey → ∀ r ∈ h.table.rows, pk r < n

theorem ofTable_fresh (t : Table pk) : (ofTable t).Fresh := by
  intro n h
  cases h

theorem lt_successor (h : successor k < noAvailablePrimaryKey) : k < successor k := by
  unfold successor at *
  split at h
  · exact absurd h (lt_irrefl _)
  · rename_i hk
    rw [if_neg hk]
    simp only [noAvailablePrimaryKey, UInt64.le_iff_toNat_le, UInt64.lt_iff_toNat_lt] at *
    rw [UInt64.toNat_add]
    simp at *
    omega

theorem firstFree_gt (t : Table pk) (h : firstFree t < noAvailablePrimaryKey) :
    ∀ r ∈ t.rows, pk r < firstFree t := by
  intro r hr
  unfold firstFree at *
  rcases List.eq_nil_or_concat t.rows with hn | ⟨init, last, hc⟩
  · simp [hn] at hr
  · rw [List.concat_eq_append] at hc
    simp only [hc, List.getLast?_append, List.getLast?_singleton, Option.some_or] at h ⊢
    have hlast := lt_successor h
    have hs := t.sorted
    rw [hc, List.pairwise_append] at hs
    rw [hc, List.mem_append, List.mem_singleton] at hr
    rcases hr with hr | rfl
    · exact (hs.2.2 r hr last (by simp)).trans hlast
    · exact hlast

theorem availablePrimaryKey_table {h h' : Handle pk} (ha : h.availablePrimaryKey = some (k, h')) :
    h'.table = h.table := by
  simp only [availablePrimaryKey] at ha
  split at ha
  · cases ha
    rfl
  · cases ha

theorem availablePrimaryKey_spec {h h' : Handle pk} (hf : h.Fresh)
    (ha : h.availablePrimaryKey = some (k, h')) :
    h'.table = h.table ∧ h'.next = some k ∧ k < noAvailablePrimaryKey ∧
      ∀ r ∈ h.table.rows, pk r < k := by
  refine ⟨availablePrimaryKey_table ha, ?_⟩
  simp only [availablePrimaryKey] at ha
  split at ha
  · rename_i hk
    simp only [Option.some.injEq, Prod.mk.injEq] at ha
    obtain ⟨rfl, rfl⟩ := ha
    refine ⟨rfl, hk, ?_⟩
    cases hn : h.next with
    | none =>
      rw [hn] at hk
      exact firstFree_gt _ hk
    | some n =>
      rw [hn] at hk
      exact hf n hn hk
  · cases ha

theorem mem_emplace {h h' : Handle pk} (he : h.emplace row = some h') :
    r ∈ h'.table.rows ↔ r = row ∨ r ∈ h.table.rows := by
  simp only [emplace, Option.map_eq_some_iff] at he
  obtain ⟨t, ht, rfl⟩ := he
  exact (Table.emplace_eq_some ht).2 r

theorem emplace_spec {h h' : Handle pk} (hn : h.next = some (pk row))
    (hk : ∀ r ∈ h.table.rows, pk r < pk row) (he : h.emplace row = some h') :
    h'.table.rows = h.table.rows ++ [row] ∧ h'.Fresh := by
  simp only [emplace, Option.map_eq_some_iff] at he
  obtain ⟨t, ht, rfl⟩ := he
  have hrows := Table.emplace_append ht hk
  refine ⟨hrows, ?_⟩
  intro n hnext hlim r hr
  simp only [hn, Option.map_some, le_refl, ↓reduceIte, Option.some.injEq] at hnext
  subst hnext
  have hrow := lt_successor hlim
  simp only [hrows, List.mem_append, List.mem_singleton] at hr
  rcases hr with hr | rfl
  · exact (hk r hr).trans hrow
  · exact hrow

theorem emplace_exists {h : Handle pk} (hk : ∀ r ∈ h.table.rows, pk r < pk row) :
    ∃ h', h.emplace row = some h' := by
  obtain ⟨t, ht⟩ := Table.emplace_exists hk
  exact ⟨_, Option.map_eq_some_iff.mpr ⟨t, ht, rfl⟩⟩

theorem emplace_available {h h' : Handle pk} (hf : h.Fresh)
    (ha : h.availablePrimaryKey = some (k, h')) (hk : pk row = k) :
    ∃ h'', h'.emplace row = some h'' := by
  obtain ⟨htable, -, -, hfree⟩ := availablePrimaryKey_spec hf ha
  subst hk
  exact emplace_exists (htable ▸ hfree)

-- ---------------------------------------------------------------------------
-- Consecutive keys
-- ---------------------------------------------------------------------------

/-- A filled cache holds what an empty one would be filled with. -/
def Coherent (h : Handle pk) : Prop := ∀ n, h.next = some n → n = firstFree h.table

theorem ofTable_coherent (t : Table pk) : (ofTable t).Coherent := by
  intro n h
  cases h

theorem firstFree_append {t u : Table pk} (h : u.rows = t.rows ++ [row]) :
    firstFree u = successor (pk row) := by
  simp [firstFree, h]

theorem firstFree_congr {t u : Table pk} (h : t.rows.map pk = u.rows.map pk) :
    firstFree t = firstFree u := by
  have hkeys : ∀ t : Table pk,
      firstFree t = ((t.rows.map pk).getLast?.map successor).getD 0 := by
    intro t
    rw [List.getLast?_map]
    unfold firstFree
    cases t.rows.getLast? with
    | none => rfl
    | some r => rfl
  rw [hkeys, hkeys, h]

theorem availablePrimaryKey_eq {h : Handle pk} (hc : h.Coherent) :
    h.availablePrimaryKey = if firstFree h.table < noAvailablePrimaryKey then
      some (firstFree h.table, ⟨h.table, some (firstFree h.table)⟩) else none := by
  have hnext : h.next.getD (firstFree h.table) = firstFree h.table := by
    cases hn : h.next with
    | none => rfl
    | some n => exact hc n hn
  simp only [availablePrimaryKey, hnext]

theorem store_exists {h : Handle pk} (hc : h.Coherent) (mk : UInt64 → α) (hmk : ∀ k, pk (mk k) = k)
    (hfree : firstFree h.table < noAvailablePrimaryKey) :
    ∃ h₁ h₂, h.availablePrimaryKey = some (firstFree h.table, h₁) ∧
      h₁.emplace (mk (firstFree h.table)) = some h₂ := by
  have ha := availablePrimaryKey_eq hc
  rw [if_pos hfree] at ha
  have hgt : ∀ r ∈ h.table.rows, pk r < pk (mk (firstFree h.table)) := by
    rw [hmk]
    exact firstFree_gt _ hfree
  obtain ⟨h₂, hstored⟩ := emplace_exists (h := ⟨h.table, some (firstFree h.table)⟩) hgt
  exact ⟨_, h₂, ha, hstored⟩

theorem store_spec {h h₁ h₂ : Handle pk} (hc : h.Coherent) (mk : UInt64 → α)
    (hmk : ∀ k, pk (mk k) = k) (ha : h.availablePrimaryKey = some (k, h₁))
    (hstored : h₁.emplace (mk k) = some h₂) :
    k = firstFree h.table ∧ k < noAvailablePrimaryKey ∧
      h₂.table.rows = h.table.rows ++ [mk k] ∧ h₂.Coherent := by
  rw [availablePrimaryKey_eq hc] at ha
  split at ha
  · rename_i hfree
    cases ha
    have hgt := firstFree_gt _ hfree
    simp only [emplace, Option.map_eq_some_iff] at hstored
    obtain ⟨t, ht, rfl⟩ := hstored
    have hrows := Table.emplace_append ht (by rw [hmk]; exact hgt)
    refine ⟨rfl, hfree, hrows, fun n hn => ?_⟩
    rw [firstFree_append hrows, hmk]
    simpa [hmk] using hn.symm
  · cases ha

theorem successor_toNat (h : k < noAvailablePrimaryKey) : (successor k).toNat = k.toNat + 1 := by
  rw [successor, if_neg (UInt64.not_le.mpr h), UInt64.toNat_add]
  simp only [noAvailablePrimaryKey, UInt64.lt_iff_toNat_lt] at h
  simp at *
  omega

theorem successor_iterate_toNat (h : k.toNat + n ≤ noAvailablePrimaryKey.toNat) :
    (successor^[n] k).toNat = k.toNat + n := by
  induction n with
  | zero => rfl
  | succ n ih =>
    have hn := ih (by omega)
    rw [Function.iterate_succ_apply', successor_toNat, hn, Nat.add_assoc]
    rw [UInt64.lt_iff_toNat_lt, hn]
    omega

theorem firstFree_le (t : Table pk) : firstFree t ≤ noAvailablePrimaryKey := by
  have hle : ∀ k, successor k ≤ noAvailablePrimaryKey := by
    intro k
    unfold successor
    split
    · exact le_rfl
    · rename_i hk
      have hsucc := successor_toNat (UInt64.not_le.mp hk)
      have hlt := UInt64.lt_iff_toNat_lt.mp (UInt64.not_le.mp hk)
      rw [successor, if_neg hk] at hsucc
      rw [UInt64.le_iff_toNat_le, hsucc]
      exact hlt
  unfold firstFree
  split
  · decide
  · exact hle _

def numbered (mk : UInt64 → β → α) : UInt64 → List β → List α
  | _, [] => []
  | k, x :: xs => mk k x :: numbered mk (successor k) xs

variable {mk : UInt64 → β → α}

theorem numbered_append (k : UInt64) (xs ys : List β) :
    numbered mk k (xs ++ ys) = numbered mk k xs ++ numbered mk (successor^[xs.length] k) ys := by
  induction xs generalizing k with
  | nil => rfl
  | cons x xs ih => simp [numbered, ih]

theorem map_numbered {f : α → γ} {g : β → γ} (h : ∀ k x, f (mk k x) = g x) (k : UInt64)
    (xs : List β) : (numbered mk k xs).map f = xs.map g := by
  induction xs generalizing k with
  | nil => rfl
  | cons x xs ih => simp [numbered, ih, h]

theorem mem_numbered (h : r ∈ numbered mk k xs) : ∃ k', ∃ x ∈ xs, r = mk k' x := by
  induction xs generalizing k with
  | nil => cases h
  | cons x xs ih =>
    rcases List.mem_cons.mp h with rfl | h
    · exact ⟨k, x, List.mem_cons_self, rfl⟩
    · obtain ⟨k', y, hy, rfl⟩ := ih h
      exact ⟨k', y, List.mem_cons_of_mem _ hy, rfl⟩

theorem firstFree_numbered {t u : Table pk} (hmk : ∀ k x, pk (mk k x) = k)
    (h : u.rows = t.rows ++ numbered mk (firstFree t) xs) :
    firstFree u = successor^[xs.length] (firstFree t) := by
  rcases List.eq_nil_or_concat xs with rfl | ⟨init, last, rfl⟩
  · have hsame : u = t := Table.ext_rows (by simpa [numbered] using h)
    rw [hsame]
    rfl
  · rw [List.concat_eq_append, numbered_append] at h
    have hlast : u.rows.getLast? = some (mk (successor^[init.length] (firstFree t)) last) := by
      simp [h, numbered]
    simp [firstFree, hlast, hmk, Function.iterate_succ_apply']

end Handle

end GameRewards.MultiIndex

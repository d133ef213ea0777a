import GameRewards.MultiIndex.Table
import Mathlib.Data.List.TakeWhile
import Mathlib.Data.Prod.Lex

/-!
# Secondary indexes and the loops over them

An index on `key` lists the rows by `(key, primary key)`. A cursor is the row
it stands on: `next` looks the successor up in the table as it is now, so a
loop that rewrites rows while it runs is the loop over the live index.

The two loops walk a bucket, the rows of one key value. `scan_eq_filter` and
`modifyScan_eq` say what they visit: each row of the bucket once, in primary
key order, and no other row.
-/

namespace GameRewards.MultiIndex

instance bitVecLinearOrder : LinearOrder (BitVec w) where
  le_refl a := BitVec.le_refl a
  le_trans _ _ _ h k := BitVec.le_trans h k
  lt_iff_le_not_ge a b := by simp only [BitVec.lt_def, BitVec.le_def]; omega
  le_antisymm _ _ h k := BitVec.le_antisymm h k
  le_total a b := BitVec.le_total a b
  toDecidableLE := inferInstance
  toDecidableEq := inferInstance
  toDecidableLT := inferInstance

namespace Table

variable {α ι κ : Type} [LinearOrder ι] [LinearOrder κ] {pk : α → ι}

def position (pk : α → ι) (key : α → κ) (r : α) : κ ×ₗ ι := toLex (key r, pk r)

def before (pk : α → ι) (key : α → κ) (a b : α) : Prop := position pk key a < position pk key b

def notAfter (pk : α → ι) (key : α → κ) (a b : α) : Prop := position pk key a ≤ position pk key b

theorem before_iff {key : α → κ} :
    before pk key a b ↔ key a < key b ∨ key a = key b ∧ pk a < pk b := by
  unfold before position
  exact Prod.Lex.toLex_lt_toLex

theorem notAfter_iff {key : α → κ} :
    notAfter pk key a b ↔ key a < key b ∨ key a = key b ∧ pk a ≤ pk b := by
  unfold notAfter position
  exact Prod.Lex.toLex_le_toLex

instance {key : α → κ} : DecidableRel (before pk key) := fun _ _ => decidable_of_iff' _ before_iff

instance {key : α → κ} : DecidableRel (notAfter pk key) := fun _ _ => decidable_of_iff' _ notAfter_iff

def index (t : Table pk) (key : α → κ) : List α := t.rows.insertionSort (notAfter pk key)

def lowerBound (t : Table pk) (key : α → κ) (lo : κ) : Option α :=
  (t.index key).find? fun r => lo ≤ key r

/-- `++it`: the row after `r` in the index. -/
def next (t : Table pk) (key : α → κ) (r : α) : Option α :=
  (t.index key).find? fun s => before pk key r s

def findBy (t : Table pk) (key : α → κ) (k : κ) : Option α :=
  match t.lowerBound key k with
  | none => none
  | some r => if key r = k then some r else none

/-- Rows visited by `for (; it != end && cond(*it); ++it)` from a cursor. -/
def visit (t : Table pk) (key : α → κ) (cond : α → Bool) : Nat → Option α → List α
  | 0, _ => []
  | _, none => []
  | fuel + 1, some r => if cond r then r :: t.visit key cond fuel (t.next key r) else []

/-- The whole loop, from `lower_bound(lo)`. Each pass moves on by one row, so
the number of rows is fuel enough. -/
def scan (t : Table pk) (key : α → κ) (lo : κ) (cond : α → Bool) : List α :=
  t.visit key cond t.rows.length (t.lowerBound key lo)

/-- The same loop with `modify(*it, f)` as its body: the rows visited and the
table left behind. -/
def modifyVisit (key : α → κ) (cond : α → Bool) (f : α → α) (hf : ∀ r, pk (f r) = pk r) :
    Nat → Option α → Table pk → List α × Table pk
  | 0, _, t => ([], t)
  | _, none, t => ([], t)
  | fuel + 1, some r, t =>
    if cond r then
      let t' := t.modify (pk r) f hf
      let rest := modifyVisit key cond f hf fuel (t'.next key r) t'
      (r :: rest.1, rest.2)
    else ([], t)

def modifyScan (t : Table pk) (key : α → κ) (lo : κ) (cond : α → Bool) (f : α → α)
    (hf : ∀ r, pk (f r) = pk r) : List α × Table pk :=
  modifyVisit key cond f hf t.rows.length (t.lowerBound key lo) t

-- ---------------------------------------------------------------------------
-- The index is the table in index order
-- ---------------------------------------------------------------------------

variable {key : α → κ}

theorem index_perm (t : Table pk) (key : α → κ) : (t.index key).Perm t.rows :=
  List.perm_insertionSort _ _

@[simp] theorem mem_index (t : Table pk) : r ∈ t.index key ↔ r ∈ t.rows :=
  (t.index_perm key).mem_iff

theorem index_sorted (t : Table pk) (key : α → κ) : (t.index key).Pairwise (before pk key) := by
  have : Std.Total (notAfter pk key) := ⟨fun a b => le_total (position pk key a) (position pk key b)⟩
  have : IsTrans α (notAfter pk key) := ⟨fun _ _ _ => le_trans⟩
  have hle := List.pairwise_insertionSort (notAfter pk key) t.rows
  have hne : (t.index key).Pairwise (fun a b => pk a ≠ pk b) := by
    rw [← List.pairwise_map, ← List.nodup_iff_pairwise_ne, ((t.index_perm key).map pk).nodup_iff]
    exact t.nodup_keys
  refine hle.imp₂ (fun a b h k => lt_of_le_of_ne h fun he => k ?_) hne
  exact congrArg (fun p => (ofLex p).2) he

/-- In a list sorted by index order, the successor of a row is the row behind
it. -/
theorem find?_before {l pre rest : List α} (hl : l.Pairwise (before pk key))
    (h : l = pre ++ r :: rest) :
    l.find? (fun s => before pk key r s) = rest.head? := by
  subst h
  obtain ⟨-, hrest, hcross⟩ := List.pairwise_append.mp hl
  have hpre : pre.find? (fun s => before pk key r s) = none := by
    refine List.find?_eq_none.mpr fun s hs => ?_
    have hsr : before pk key s r := hcross s hs r (by simp)
    simpa using (show ¬ before pk key r s from lt_asymm hsr)
  have hr : ¬ before pk key r r := lt_irrefl _
  simp only [List.find?_append, hpre, Option.none_or, List.find?_cons, hr, decide_false]
  cases rest with
  | nil => rfl
  | cons s rest =>
    have hs : before pk key r s := (List.pairwise_cons.mp hrest).1 s (by simp)
    simp [hs]

theorem index_split (t : Table pk) (key : α → κ) (lo : κ) :
    t.index key = (t.index key).takeWhile (fun r => !decide (lo ≤ key r)) ++
      (t.index key).dropWhile fun r => !decide (lo ≤ key r) :=
  List.takeWhile_append_dropWhile.symm

theorem lowerBound_eq (t : Table pk) :
    t.lowerBound key lo = ((t.index key).dropWhile fun r => !decide (lo ≤ key r)).head? :=
  List.find?_eq_head?_dropWhile_not _ _

-- ---------------------------------------------------------------------------
-- The reading loop
-- ---------------------------------------------------------------------------

theorem visit_suffix (t : Table pk) (cond : α → Bool) (h : t.index key = pre ++ rest)
    (hfuel : rest.length ≤ fuel) : t.visit key cond fuel rest.head? = rest.takeWhile cond := by
  induction rest generalizing pre fuel with
  | nil => cases fuel <;> rfl
  | cons r rest ih =>
    cases fuel with
    | zero => simp at hfuel
    | succ fuel =>
      have hnext : t.next key r = rest.head? := find?_before (t.index_sorted key) h
      simp only [List.head?_cons, visit, hnext, List.takeWhile_cons]
      split
      · rw [ih (show t.index key = (pre ++ [r]) ++ rest by simpa using h) (by simpa using hfuel)]
      · rfl

theorem takeWhile_dropWhile {l : List α} (hl : l.Pairwise (before pk key)) :
    (l.dropWhile fun r => !decide (lo ≤ key r)).takeWhile (fun r => key r = lo) =
      l.filter fun r => key r = lo := by
  induction l with
  | nil => rfl
  | cons r rest ih =>
    obtain ⟨hr, hrest⟩ := List.pairwise_cons.mp hl
    rcases lt_trichotomy (key r) lo with h | h | h
    · have hdrop : ¬ lo ≤ key r := not_le.mpr h
      simpa [List.dropWhile_cons, List.filter_cons, hdrop, h.ne] using ih hrest
    · subst h
      have hkeys : ∀ s ∈ rest, key r ≤ key s := fun s hs =>
        (before_iff.mp (hr s hs)).elim le_of_lt fun h => h.1.le
      have hdrop : rest.dropWhile (fun s => !decide (key r ≤ key s)) = rest := by
        cases rest with
        | nil => rfl
        | cons s rest => simp [hkeys s (by simp)]
      have hrec := ih hrest
      rw [hdrop] at hrec
      simp [hrec]
    · have hkeys : ∀ s ∈ rest, key s ≠ lo := fun s hs =>
        (h.trans_le ((before_iff.mp (hr s hs)).elim le_of_lt fun h => h.1.le)).ne'
      have hf : rest.filter (fun s => decide (key s = lo)) = [] := by
        simpa [List.filter_eq_nil_iff] using hkeys
      simp [h.le, h.ne', hf]

theorem index_filter (t : Table pk) :
    (t.index key).filter (fun r => key r = lo) = t.rows.filter (fun r => key r = lo) := by
  refine rows_ext ?_ (t.sorted.filter _) fun r => by simp
  refine ((t.index_sorted key).filter _).imp_of_mem fun {a b} ha hb h => ?_
  have ha : key a = lo := by simpa using (List.mem_filter.mp ha).2
  have hb : key b = lo := by simpa using (List.mem_filter.mp hb).2
  rcases before_iff.mp h with h | h
  · exact absurd (ha.trans hb.symm) h.ne
  · exact h.2

theorem takeWhile_congr {l : List α} {p q : α → Bool} (h : ∀ r ∈ l, p r = q r) :
    l.takeWhile p = l.takeWhile q := by
  induction l with
  | nil => rfl
  | cons r l ih =>
    simp only [List.takeWhile_cons, h r (by simp), ih fun s hs => h s (by simp [hs])]

/-- The bucket of `lo` as the index loop finds it: a block in the middle of
the index. -/
theorem index_block (t : Table pk) {cond : α → Bool}
    (hcond : ∀ r ∈ t.rows, cond r = decide (key r = lo)) :
    ((t.index key).dropWhile fun r => !decide (lo ≤ key r)).takeWhile cond = t.rows.filter cond := by
  have hdrop : ∀ r ∈ (t.index key).dropWhile (fun r => !decide (lo ≤ key r)), r ∈ t.rows := fun r hr =>
    t.mem_index.mp ((List.dropWhile_sublist _).subset hr)
  rw [takeWhile_congr fun r hr => hcond r (hdrop r hr), takeWhile_dropWhile (t.index_sorted key),
    index_filter]
  exact List.filter_congr fun r hr => (hcond r hr).symm

theorem length_from_bound_le (t : Table pk) (key : α → κ) (lo : κ) :
    ((t.index key).dropWhile fun r => !decide (lo ≤ key r)).length ≤ t.rows.length :=
  (List.dropWhile_sublist _).length_le.trans (t.index_perm key).length_eq.le

/-- The reading loop visits its bucket: each row with the key once, in
primary key order, and no other. More fuel than one pass for each row changes
nothing: the loop has left by itself. -/
theorem visit_eq_filter (t : Table pk) {cond : α → Bool}
    (hcond : ∀ r ∈ t.rows, cond r = decide (key r = lo)) (hfuel : t.rows.length ≤ fuel) :
    t.visit key cond fuel (t.lowerBound key lo) = t.rows.filter cond := by
  have hsplit := t.index_split key lo
  rw [lowerBound_eq, visit_suffix t cond hsplit ((t.length_from_bound_le key lo).trans hfuel),
    index_block t hcond]

theorem scan_eq_filter (t : Table pk) {cond : α → Bool}
    (hcond : ∀ r ∈ t.rows, cond r = decide (key r = lo)) :
    t.scan key lo cond = t.rows.filter cond := t.visit_eq_filter hcond le_rfl

theorem findBy_eq_none (t : Table pk) : t.findBy key k = none ↔ ∀ r ∈ t.rows, key r ≠ k := by
  have hsplit := t.index_split key k
  have hblock : ((t.index key).dropWhile fun r => !decide (k ≤ key r)).takeWhile
      (fun r => key r = k) = t.rows.filter fun r => key r = k := t.index_block fun _ _ => rfl
  unfold findBy
  rw [lowerBound_eq]
  constructor
  · intro h r hr hk
    have hmem : r ∈ t.rows.filter (fun r => key r = k) := List.mem_filter.mpr ⟨hr, by simpa using hk⟩
    rw [← hblock] at hmem
    cases hd : (t.index key).dropWhile (fun r => !decide (k ≤ key r)) with
    | nil => simp [hd] at hmem
    | cons s rest =>
      rw [hd] at hmem h
      by_cases hs : key s = k
      · simp [hs] at h
      · simp [hs] at hmem
  · intro h
    cases hd : (t.index key).dropWhile (fun r => !decide (k ≤ key r)) with
    | nil => rfl
    | cons s rest =>
      have hs : s ∈ t.rows :=
        t.mem_index.mp ((List.dropWhile_sublist _).subset (hd ▸ List.mem_cons_self))
      simp [h s hs]

theorem findBy_none_congr {t u : Table pk} (h : t.rows.map key = u.rows.map key) (k : κ) :
    t.findBy key k = none ↔ u.findBy key k = none := by
  have hkeys : ∀ t : Table pk, t.findBy key k = none ↔ ∀ x ∈ t.rows.map key, x ≠ k := by
    intro t
    rw [findBy_eq_none, List.forall_mem_map]
  rw [hkeys, hkeys, h]

-- ---------------------------------------------------------------------------
-- The rewriting loop
-- ---------------------------------------------------------------------------

variable {f : α → α}

theorem index_modify (t : Table pk) (hf : ∀ r, pk (f r) = pk r) (hk : ∀ r, key (f r) = key r) :
    (t.modify k f hf).index key = (t.index key).map fun r => if pk r = k then f r else r := by
  refine (List.map_insertionSort _ _ _ _ fun a _ b _ => ?_).symm
  have hpos : ∀ r, position pk key (if pk r = k then f r else r) = position pk key r := by
    intro r
    unfold position
    split <;> simp [hf, hk]
  simp only [notAfter, hpos]

/-- Starting anywhere in the index, the loop visits the rows ahead as they
were, and rewrites exactly these. -/
theorem modifyVisit_suffix (t : Table pk) (cond : α → Bool) (hf : ∀ r, pk (f r) = pk r)
    (hk : ∀ r, key (f r) = key r) (h : t.index key = pre ++ rest) (hfuel : rest.length ≤ fuel) :
    (modifyVisit key cond f hf fuel rest.head? t).1 = rest.takeWhile cond ∧
    (modifyVisit key cond f hf fuel rest.head? t).2.rows =
      t.rows.map fun r => if pk r ∈ (rest.takeWhile cond).map pk then f r else r := by
  induction rest generalizing pre fuel t with
  | nil => cases fuel <;> simp [modifyVisit]
  | cons r rest ih =>
    cases fuel with
    | zero => simp at hfuel
    | succ fuel =>
      simp only [List.head?_cons, modifyVisit, List.takeWhile_cons]
      split
      · have hsorted := t.index_sorted key
        have hkeys : ((pre ++ r :: rest).map pk).Nodup := by
          rw [← h, ((t.index_perm key).map pk).nodup_iff]
          exact t.nodup_keys
        -- The live index: the same rows, with `r` rewritten where it stands.
        have hindex : (t.modify (pk r) f hf).index key = pre ++ f r :: rest := by
          have hne : ∀ s, s ∈ pre ∨ s ∈ rest → (if pk s = pk r then f s else s) = s := by
            intro s hs
            have : pk s ≠ pk r := by
              rw [List.map_append, List.map_cons, List.nodup_append, List.nodup_cons] at hkeys
              rcases hs with hs | hs
              · exact hkeys.2.2 _ (List.mem_map_of_mem hs) _ (by simp)
              · exact fun he => hkeys.2.1.1 (he ▸ List.mem_map_of_mem hs)
            simp [this]
          rw [index_modify t hf hk, h, List.map_append, List.map_cons]
          simp only [if_true]
          rw [List.map_congr_left fun s hs => hne s (.inl hs),
            List.map_congr_left fun s hs => hne s (.inr hs)]
          simp
        have hnext : (t.modify (pk r) f hf).next key r = rest.head? := by
          have hpos : ∀ s, before pk key r s = before pk key (f r) s := by
            intro s
            simp [before, position, hf, hk]
          unfold next
          simp only [hpos]
          exact find?_before ((t.modify (pk r) f hf).index_sorted key) hindex
        have hrec := ih (t.modify (pk r) f hf)
          (show (t.modify (pk r) f hf).index key = (pre ++ [f r]) ++ rest by simpa using hindex)
          (by simpa using hfuel)
        rw [hnext]
        refine ⟨by rw [hrec.1], ?_⟩
        rw [hrec.2]
        simp only [modify, List.map_map]
        refine List.map_congr_left fun s hs => ?_
        have hr : pk r ∉ (rest.takeWhile cond).map pk := by
          rw [List.map_append, List.map_cons, List.nodup_append, List.nodup_cons] at hkeys
          intro hm
          obtain ⟨x, hx, he⟩ := List.mem_map.mp hm
          exact hkeys.2.1.1 (he ▸ List.mem_map_of_mem ((List.takeWhile_sublist _).subset hx))
        by_cases hs : pk s = pk r
        · simp only [Function.comp_apply, hs, if_true, hf, List.map_cons, List.mem_cons, true_or]
          rw [if_neg hr]
        · simp [hs]
      · simp

/-- The rewriting loop visits its bucket in primary key order and rewrites
exactly the rows of the bucket, and leaves by itself. -/
theorem modifyVisit_eq (t : Table pk) {cond : α → Bool} (hf : ∀ r, pk (f r) = pk r)
    (hk : ∀ r, key (f r) = key r) (hcond : ∀ r ∈ t.rows, cond r = decide (key r = lo))
    (hfuel : t.rows.length ≤ fuel) :
    (modifyVisit key cond f hf fuel (t.lowerBound key lo) t).1 = t.rows.filter cond ∧
    (modifyVisit key cond f hf fuel (t.lowerBound key lo) t).2.rows =
      t.rows.map fun r => if cond r then f r else r := by
  have hsplit := t.index_split key lo
  have hvisit :=
    modifyVisit_suffix t cond hf hk hsplit ((t.length_from_bound_le key lo).trans hfuel)
  rw [index_block t hcond] at hvisit
  rw [lowerBound_eq]
  refine ⟨hvisit.1, hvisit.2.trans ?_⟩
  refine List.map_congr_left fun r hr => ?_
  have hmem : pk r ∈ (t.rows.filter cond).map pk ↔ cond r = true := by
    constructor
    · intro hm
      obtain ⟨s, hs, he⟩ := List.mem_map.mp hm
      obtain ⟨hs, hc⟩ := List.mem_filter.mp hs
      exact t.key_inj hs hr he ▸ hc
    · exact fun hc => List.mem_map_of_mem (List.mem_filter.mpr ⟨hr, hc⟩)
  simp only [hmem]

theorem modifyScan_eq (t : Table pk) {cond : α → Bool} (hf : ∀ r, pk (f r) = pk r)
    (hk : ∀ r, key (f r) = key r) (hcond : ∀ r ∈ t.rows, cond r = decide (key r = lo)) :
    (t.modifyScan key lo cond f hf).1 = t.rows.filter cond ∧
    (t.modifyScan key lo cond f hf).2.rows = t.rows.map fun r => if cond r then f r else r :=
  t.modifyVisit_eq hf hk hcond le_rfl

end Table

end GameRewards.MultiIndex

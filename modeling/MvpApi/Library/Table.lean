import Mathlib.Algebra.BigOperators.Group.Finset.Basic
import Mathlib.Algebra.Order.BigOperators.Group.Finset
import Mathlib.Data.Finset.Sort
import Mathlib.Data.List.Sort

/-!
# Finite tables

`Table key` is the type of finite tables of rows of type `ρ`, in which a row `r` is
stored under its primary key `key r`, of type `κ`. A table is a partial function from
keys to rows together with the finite set of the keys it is defined at, so that a table
has at most one row for each key, and two tables with the same rows are equal.

A row is written with `put`, removed with `erase`, and all the rows satisfying a
condition are removed with `filter` and changed with `map`. `merge` replays on one table
the rows in which two others differ. `Same p` says that two tables agree on the rows
satisfying `p`, and so do the queries that look at no others. `sum` adds up a number over the
rows of a table.
-/

set_option autoImplicit false

/-- A finite table of rows, each stored under its own key. -/
structure Table {κ ρ : Type} (key : ρ → κ) where
  /-- The row stored under a key. -/
  get : κ → Option ρ
  /-- The keys under which a row is stored. -/
  keys : Finset κ
  mem_keys : ∀ k, k ∈ keys ↔ (get k).isSome
  key_get : ∀ k r, get k = some r → key r = k

namespace Table

variable {κ ρ : Type} {key : ρ → κ}

instance : Membership ρ (Table key) where
  mem t r := t.get (key r) = some r

theorem mem_def {t : Table key} {r : ρ} :
  r ∈ t ↔ t.get (key r) = some r
  := Iff.rfl

/-- A row found under a key is a row of the table with that key. -/
theorem get_eq_some_iff {t : Table key} {k : κ} {r : ρ} :
  t.get k = some r ↔ r ∈ t ∧ key r = k
  := by
  constructor
  · intro h
    have hk := t.key_get k r h
    subst hk
    exact ⟨h, rfl⟩
  · rintro ⟨h, rfl⟩
    exact h

/-- No row is found under a key exactly when no row of the table has it. -/
theorem get_eq_none_iff {t : Table key} {k : κ} :
  t.get k = none ↔ ∀ r ∈ t, key r ≠ k
  := by
  constructor
  · rintro h r hr rfl
    rw [mem_def.mp hr] at h
    cases h
  · intro h
    cases hk : t.get k with
    | none => rfl
    | some r =>
        obtain ⟨hr, hkey⟩ := get_eq_some_iff.mp hk
        exact absurd hkey (h r hr)

/-- Rows of one table with the same key are equal. -/
theorem eq_of_key {t : Table key} {r r' : ρ} (h : r ∈ t) (h' : r' ∈ t) (hk : key r = key r') :
  r = r'
  := by
  rw [mem_def, hk, mem_def.mp h'] at h
  exact (Option.some.inj h).symm

/-- A row is stored under a key exactly when the key is one of the table's. -/
theorem mem_keys_iff {t : Table key} {k : κ} :
  k ∈ t.keys ↔ ∃ r ∈ t, key r = k
  := by
  rw [t.mem_keys, Option.isSome_iff_exists]
  simp only [get_eq_some_iff]

/-- Tables that store the same rows are equal. -/
@[ext]
theorem ext {t t' : Table key} (h : ∀ k, t.get k = t'.get k) :
  t = t'
  := by
  obtain ⟨get, keys, hkeys, hget⟩ := t
  obtain ⟨get', keys', hkeys', hget'⟩ := t'
  obtain rfl : get = get' := funext h
  obtain rfl : keys = keys' := by
    apply Finset.ext
    intro k
    rw [hkeys, hkeys']
  rfl

/-- Tables with the same members are equal. -/
theorem ext_mem {t t' : Table key} (h : ∀ r, r ∈ t ↔ r ∈ t') :
  t = t'
  := by
  apply ext
  intro k
  apply Option.ext
  intro r
  rw [get_eq_some_iff, get_eq_some_iff, h]

/-- The table without rows. -/
def empty : Table key where
  get _ := none
  keys := ∅
  mem_keys := by simp
  key_get := by simp

@[simp]
theorem not_mem_empty (r : ρ) :
  r ∉ (empty : Table key)
  := by
  simp [mem_def, empty]

@[simp]
theorem get_empty (k : κ) :
  (empty : Table key).get k = none
  := rfl

/-! ### Writing and removing rows -/

section Write

variable [DecidableEq κ]

/-- Write the row `r` under its key, in place of the one stored there. -/
def put (t : Table key) (r : ρ) : Table key where
  get k := if k = key r then some r else t.get k
  keys := insert (key r) t.keys
  mem_keys k := by
    by_cases h : k = key r
    · simp [h]
    · simp [h, t.mem_keys]
  key_get k r' h := by
    split at h
    · next hk =>
        obtain rfl := Option.some.inj h
        exact hk.symm
    · exact t.key_get k r' h

/-- Remove the row stored under `k`. -/
def erase (t : Table key) (k : κ) : Table key where
  get k' := if k' = k then none else t.get k'
  keys := t.keys.erase k
  mem_keys k' := by
    by_cases h : k' = k
    · simp [h]
    · simp [h, t.mem_keys]
  key_get k' r h := by
    split at h
    · cases h
    · exact t.key_get k' r h

theorem get_put (t : Table key) (r : ρ) (k : κ) :
  (t.put r).get k = if k = key r then some r else t.get k
  := rfl

@[simp]
theorem get_put_self (t : Table key) (r : ρ) :
  (t.put r).get (key r) = some r
  := if_pos rfl

theorem get_put_of_ne (t : Table key) {r : ρ} {k : κ} (h : k ≠ key r) :
  (t.put r).get k = t.get k
  := if_neg h

/-- A row that is in a table is there after another is written. -/
theorem isSome_get_put {t : Table key} {k : κ} (r : ρ) (h : (t.get k).isSome) :
  ((t.put r).get k).isSome
  := by
  rw [get_put]
  split
  · rfl
  · exact h

theorem get_erase (t : Table key) (k k' : κ) :
  (t.erase k).get k' = if k' = k then none else t.get k'
  := rfl

@[simp]
theorem get_erase_self (t : Table key) (k : κ) :
  (t.erase k).get k = none
  := if_pos rfl

theorem get_erase_of_ne (t : Table key) {k k' : κ} (h : k' ≠ k) :
  (t.erase k).get k' = t.get k'
  := if_neg h

/-- The rows after a write: the row written, and the others with another key. -/
@[simp]
theorem mem_put {t : Table key} {r r' : ρ} :
  r' ∈ t.put r ↔ r' = r ∨ (r' ∈ t ∧ key r' ≠ key r)
  := by
  rw [mem_def, get_put]
  by_cases h : key r' = key r
  · rw [if_pos h]
    constructor
    · intro h'
      exact Or.inl (Option.some.inj h').symm
    · rintro (rfl | ⟨_, hne⟩)
      · rfl
      · exact absurd h hne
  · rw [if_neg h, ← mem_def]
    constructor
    · intro h'
      exact Or.inr ⟨h', h⟩
    · rintro (rfl | ⟨h', _⟩)
      · exact absurd rfl h
      · exact h'

/-- A write under a key not in use keeps all the rows and adds one. -/
theorem mem_put_of_get {t : Table key} {r r' : ρ} (h : t.get (key r) = none) :
  r' ∈ t.put r ↔ r' = r ∨ r' ∈ t
  := by
  rw [mem_put]
  constructor
  · rintro (rfl | ⟨h', _⟩)
    · exact Or.inl rfl
    · exact Or.inr h'
  · rintro (rfl | h')
    · exact Or.inl rfl
    · exact Or.inr ⟨h', get_eq_none_iff.mp h r' h'⟩

@[simp]
theorem mem_erase {t : Table key} {k : κ} {r : ρ} :
  r ∈ t.erase k ↔ r ∈ t ∧ key r ≠ k
  := by
  rw [mem_def, get_erase]
  by_cases h : key r = k
  · simp [h]
  · simp [h, mem_def]

/-- Writing a row that is stored already changes nothing. -/
theorem put_of_mem {t : Table key} {r : ρ} (h : r ∈ t) :
  t.put r = t
  := by
  apply ext
  intro k
  by_cases hk : k = key r
  · subst hk
    rw [get_put_self, mem_def.mp h]
  · rw [get_put_of_ne t hk]

/-- A row that is there after some were written, one after the other, was written or was there. -/
theorem mem_foldl_put {written : List ρ} {t : Table key} {r : ρ} (h : r ∈ written.foldl put t) :
  r ∈ written ∨ r ∈ t
  := by
  induction written generalizing t with
  | nil => exact Or.inr h
  | cons r' written ih =>
      rcases ih h with h | h
      · exact Or.inl (List.mem_cons_of_mem _ h)
      · rcases mem_put.mp h with rfl | ⟨h, _⟩
        · exact Or.inl List.mem_cons_self
        · exact Or.inr h

end Write

/-! ### Conditions on rows -/

section Condition

/-- Keep the rows satisfying `p`. -/
def filter (t : Table key) (p : ρ → Bool) : Table key where
  get k := (t.get k).filter p
  keys := t.keys.filter fun k => (t.get k).any p
  mem_keys k := by
    rw [Finset.mem_filter, t.mem_keys]
    cases t.get k <;> simp [Option.filter_some, Option.any_some]
  key_get k r h := t.key_get k r (Option.filter_eq_some_iff.mp h).1

@[simp]
theorem get_filter (t : Table key) (p : ρ → Bool) (k : κ) :
  (t.filter p).get k = (t.get k).filter p
  := rfl

@[simp]
theorem mem_filter {t : Table key} {p : ρ → Bool} {r : ρ} :
  r ∈ t.filter p ↔ r ∈ t ∧ p r
  := by
  rw [mem_def, mem_def, get_filter, Option.filter_eq_some_iff]

/-- What is stored under a key stays when it is kept. -/
theorem get_filter_of_kept {t : Table key} {p : ρ → Bool} {k : κ}
    (kept : ∀ r ∈ t, key r = k → p r = true) :
  (t.filter p).get k = t.get k
  := by
  rw [get_filter]
  cases hget : t.get k with
  | none => rfl
  | some r =>
      obtain ⟨hr, hk⟩ := get_eq_some_iff.mp hget
      exact Option.filter_some_pos (kept r hr hk)

/-- Keeping all rows keeps the table. -/
theorem filter_eq_self {t : Table key} {p : ρ → Bool} (h : ∀ r ∈ t, p r = true) :
  t.filter p = t
  := ext_mem fun r => by rw [mem_filter, and_iff_left_of_imp (h r)]

/-- Change every row by `f`, which keeps the keys. -/
def map (t : Table key) (f : ρ → ρ) (hf : ∀ r, key (f r) = key r) : Table key where
  get k := (t.get k).map f
  keys := t.keys
  mem_keys k := by
    rw [t.mem_keys, Option.isSome_map]
  key_get k r h := by
    obtain ⟨r', hr', rfl⟩ := Option.map_eq_some_iff.mp h
    rw [hf]
    exact t.key_get k r' hr'

@[simp]
theorem get_map (t : Table key) (f : ρ → ρ) (hf : ∀ r, key (f r) = key r) (k : κ) :
  (t.map f hf).get k = (t.get k).map f
  := rfl

@[simp]
theorem mem_map {t : Table key} {f : ρ → ρ} {hf : ∀ r, key (f r) = key r} {r : ρ} :
  r ∈ t.map f hf ↔ ∃ r' ∈ t, f r' = r
  := by
  rw [mem_def, get_map, Option.map_eq_some_iff]
  constructor
  · rintro ⟨r', hr', rfl⟩
    exact ⟨r', (get_eq_some_iff.mp hr').1, rfl⟩
  · rintro ⟨r', hr', rfl⟩
    use r'
    rw [hf]
    exact ⟨hr', rfl⟩

/-- Whether some row satisfies `p`. -/
def any (t : Table key) (p : ρ → Bool) : Bool :=
  decide (∃ k ∈ t.keys, (t.get k).any p)

@[simp]
theorem any_eq_true {t : Table key} {p : ρ → Bool} :
  t.any p = true ↔ ∃ r ∈ t, p r
  := by
  rw [any, decide_eq_true_eq]
  constructor
  · rintro ⟨k, _, h⟩
    cases hk : t.get k with
    | none => simp [hk] at h
    | some r =>
        rw [hk, Option.any_some] at h
        exact ⟨r, (get_eq_some_iff.mp hk).1, h⟩
  · rintro ⟨r, hr, hp⟩
    use key r
    rw [mem_keys_iff, mem_def.mp hr]
    exact ⟨⟨r, hr, rfl⟩, hp⟩

theorem any_eq_false {t : Table key} {p : ρ → Bool} :
  t.any p = false ↔ ∀ r ∈ t, p r = false
  := by
  rw [← Bool.not_eq_true, any_eq_true]
  simp

instance {t : Table key} {p : ρ → Prop} [DecidablePred p] : Decidable (∀ r ∈ t, p r) :=
  decidable_of_iff (t.any (fun r => !decide (p r)) = false) (by simp [any_eq_false])

end Condition

/-! ### Reading the rows in the order of their keys -/

section Rows

variable [LinearOrder κ]

/-- The elements of a finite set of keys, from the least to the greatest. -/
def ascending (s : Finset κ) : List κ :=
  Quot.liftOn s.val (fun l => l.insertionSort (· ≤ ·)) (by
    intro l l' h
    have hperm := (List.perm_insertionSort (· ≤ ·) l).trans
      (h.trans (List.perm_insertionSort (· ≤ ·) l').symm)
    exact hperm.eq_of_pairwise' (List.pairwise_insertionSort _ l)
      (List.pairwise_insertionSort _ l'))

@[simp]
theorem mem_ascending {s : Finset κ} {k : κ} :
  k ∈ ascending s ↔ k ∈ s
  := by
  obtain ⟨⟨l⟩, hl⟩ := s
  apply (List.perm_insertionSort (· ≤ ·) l).mem_iff

/-- The rows of a table, in the order of their keys. -/
def rows (t : Table key) : List ρ :=
  (ascending t.keys).filterMap t.get

@[simp]
theorem mem_rows {t : Table key} {r : ρ} :
  r ∈ t.rows ↔ r ∈ t
  := by
  rw [rows, List.mem_filterMap]
  constructor
  · rintro ⟨k, _, hk⟩
    exact (get_eq_some_iff.mp hk).1
  · intro h
    use key r
    rw [mem_ascending, mem_keys_iff]
    exact ⟨⟨r, h, rfl⟩, h⟩

theorem nodup_ascending (s : Finset κ) :
  (ascending s).Nodup
  := by
  obtain ⟨⟨l⟩, hl⟩ := s
  exact (List.perm_insertionSort (· ≤ ·) l).nodup_iff.mpr hl

/-- No row is listed twice. -/
theorem nodup_rows (t : Table key) :
  t.rows.Nodup
  := by
  apply (nodup_ascending t.keys).filterMap
  intro k k' r hr hr'
  exact (t.key_get k r hr).symm.trans (t.key_get k' r hr')

theorem sorted_ascending (s : Finset κ) :
  (ascending s).Pairwise (· < ·)
  := by
  have hle : (ascending s).Pairwise (· ≤ ·) := by
    obtain ⟨⟨l⟩, hl⟩ := s
    exact List.pairwise_insertionSort _ l
  exact (hle.and (nodup_ascending s)).imp fun h => lt_of_le_of_ne h.1 h.2

/-- The rows are listed in the order of their keys. -/
theorem sorted_rows (t : Table key) :
  t.rows.Pairwise fun r r' => key r < key r'
  := by
  refine List.pairwise_filterMap.mpr ((sorted_ascending t.keys).imp ?_)
  intro k k' h r hr r' hr'
  rw [t.key_get k r hr, t.key_get k' r' hr']
  exact h

/-- Lists of rows in the order of their keys are equal when they have the same rows. -/
theorem eq_of_sorted {l l' : List ρ} (sorted : l.Pairwise fun r r' => key r < key r')
    (sorted' : l'.Pairwise fun r r' => key r < key r') (h : ∀ r, r ∈ l ↔ r ∈ l') :
  l = l'
  := by
  refine List.Perm.eq_of_pairwise (fun r r' _ _ hlt hgt => absurd hgt (lt_asymm hlt)) sorted
    sorted' ((List.perm_ext_iff_of_nodup ?_ ?_).mpr h)
  · exact sorted.imp fun hlt => ne_of_apply_ne key hlt.ne
  · exact sorted'.imp fun hlt => ne_of_apply_ne key hlt.ne

/-- The rows that are kept, in the order of their keys. -/
theorem rows_filter (t : Table key) (p : ρ → Bool) :
  (t.filter p).rows = t.rows.filter p
  := by
  refine eq_of_sorted (sorted_rows _) ((sorted_rows t).filter p) fun r => ?_
  rw [mem_rows, mem_filter, List.mem_filter, mem_rows]

/-- The first row satisfying `p`, in the order of the keys. -/
def find? (t : Table key) (p : ρ → Bool) : Option ρ :=
  t.rows.find? p

theorem mem_of_find?_eq_some {t : Table key} {p : ρ → Bool} {r : ρ} (h : t.find? p = some r) :
  r ∈ t ∧ p r
  := ⟨mem_rows.mp (List.mem_of_find?_eq_some h), List.find?_some h⟩

theorem find?_eq_none_iff {t : Table key} {p : ρ → Bool} :
  t.find? p = none ↔ ∀ r ∈ t, ¬ p r
  := by
  rw [find?, List.find?_eq_none]
  simp only [mem_rows]

/-- A row satisfying `p` is found when it is the only one that does. -/
theorem find?_eq_some_of_unique {t : Table key} {p : ρ → Bool} {r : ρ} (h : r ∈ t) (hp : p r)
    (unique : ∀ r' ∈ t, p r' → r' = r) :
  t.find? p = some r
  := by
  cases hf : t.find? p with
  | none => exact absurd hp (find?_eq_none_iff.mp hf r h)
  | some r' =>
      obtain ⟨hr', hp'⟩ := mem_of_find?_eq_some hf
      rw [unique r' hr' hp']

end Rows

/-! ### Rows that stay -/

section Same

/-- The rows satisfying `p` are the same in both tables. -/
def Same (p : ρ → Prop) (t t' : Table key) : Prop :=
  ∀ r, p r → (r ∈ t' ↔ r ∈ t)

variable {p : ρ → Prop} {t t' t'' : Table key}

theorem Same.refl (p : ρ → Prop) (t : Table key) :
  Same p t t
  := fun _ _ => Iff.rfl

theorem Same.symm (h : Same p t t') :
  Same p t' t
  := fun r hr => (h r hr).symm

theorem Same.trans (h : Same p t t') (h' : Same p t' t'') :
  Same p t t''
  := fun r hr => (h' r hr).trans (h r hr)

/-- Fewer rows are the same if more are. -/
theorem Same.mono {q : ρ → Prop} (h : Same p t t') (hq : ∀ r, q r → p r) :
  Same q t t'
  := fun r hr => h r (hq r hr)

/-- Writing a row in place of none or of one that does not satisfy `p` either. -/
theorem Same.put [DecidableEq κ] {r : ρ} (new : ¬ p r) (old : ∀ r' ∈ t, key r' = key r → ¬ p r') :
  Same p t (t.put r)
  := by
  intro r' hr'
  rw [mem_put]
  constructor
  · rintro (rfl | ⟨h, _⟩)
    · exact absurd hr' new
    · exact h
  · intro h
    exact Or.inr ⟨h, fun hk => old r' h hk hr'⟩

/-- Writing several rows, one after the other. -/
theorem Same.foldl_put [DecidableEq κ] {written : List ρ} (new : ∀ r ∈ written, ¬ p r)
    (old : ∀ r ∈ written, ∀ r' ∈ t, key r' = key r → ¬ p r') :
  Same p t (written.foldl Table.put t)
  := by
  induction written generalizing t with
  | nil => exact .refl p t
  | cons r written ih =>
      have first : Same p t (t.put r) :=
        .put (new r List.mem_cons_self) (old r List.mem_cons_self)
      refine first.trans (ih (fun r' hr' => new r' (List.mem_cons_of_mem _ hr')) ?_)
      intro r' hr' r'' hr'' hk hp
      exact old r' (List.mem_cons_of_mem _ hr') r'' ((first r'' hp).mp hr'') hk hp

/-- Removing the row of a key. -/
theorem Same.erase [DecidableEq κ] {k : κ} (old : ∀ r ∈ t, key r = k → ¬ p r) :
  Same p t (t.erase k)
  := by
  intro r hr
  rw [mem_erase]
  constructor
  · exact And.left
  · intro h
    exact ⟨h, fun hk => old r h hk hr⟩

/-- Keeping at least the rows satisfying `p`. -/
theorem Same.filter {q : ρ → Bool} (kept : ∀ r ∈ t, p r → q r = true) :
  Same p t (t.filter q)
  := by
  intro r hr
  rw [mem_filter]
  constructor
  · exact And.left
  · intro h
    exact ⟨h, kept r h hr⟩

/-- Changing rows that do not satisfy `p`, before or after. -/
theorem Same.map {f : ρ → ρ} {hf : ∀ r, key (f r) = key r}
    (old : ∀ r ∈ t, f r = r ∨ (¬ p r ∧ ¬ p (f r))) :
  Same p t (t.map f hf)
  := by
  intro r hr
  rw [mem_map]
  constructor
  · rintro ⟨r', hr', rfl⟩
    rcases old r' hr' with h | h
    · rw [h]
      exact hr'
    · exact absurd hr h.2
  · intro h
    rcases old r h with h' | h'
    · exact ⟨r, h, h'⟩
    · exact absurd hr h'.1

section Queries

variable {q : ρ → Bool}

/-- A query that looks only at rows satisfying `p` has the same answer in both tables. -/
theorem Same.any (h : Same p t t') (only : ∀ r ∈ t, q r → p r) (only' : ∀ r ∈ t', q r → p r) :
  t'.any q = t.any q
  := by
  rw [Bool.eq_iff_iff, any_eq_true, any_eq_true]
  constructor
  · rintro ⟨r, hr, hq⟩
    exact ⟨r, (h r (only' r hr hq)).mp hr, hq⟩
  · rintro ⟨r, hr, hq⟩
    exact ⟨r, (h r (only r hr hq)).mpr hr, hq⟩

theorem Same.get_filter (h : Same p t t') (k : κ) (only : ∀ r ∈ t, q r → p r)
    (only' : ∀ r ∈ t', q r → p r) :
  (t'.get k).filter q = (t.get k).filter q
  := by
  refine Option.ext fun r => ?_
  simp only [Option.filter_eq_some_iff, get_eq_some_iff]
  constructor
  · rintro ⟨⟨hr, hk⟩, hq⟩
    exact ⟨⟨(h r (only' r hr hq)).mp hr, hk⟩, hq⟩
  · rintro ⟨⟨hr, hk⟩, hq⟩
    exact ⟨⟨(h r (only r hr hq)).mpr hr, hk⟩, hq⟩

theorem Same.rows_filter [LinearOrder κ] (h : Same p t t') (only : ∀ r ∈ t, q r → p r)
    (only' : ∀ r ∈ t', q r → p r) :
  t'.rows.filter q = t.rows.filter q
  := by
  refine eq_of_sorted ((sorted_rows t').filter q) ((sorted_rows t).filter q) fun r => ?_
  rw [List.mem_filter, List.mem_filter, mem_rows, mem_rows]
  constructor
  · rintro ⟨hr, hq⟩
    exact ⟨(h r (only' r hr hq)).mp hr, hq⟩
  · rintro ⟨hr, hq⟩
    exact ⟨(h r (only r hr hq)).mpr hr, hq⟩

end Queries

end Same

/-! ### Merging -/

section Merge

variable [DecidableEq κ] [DecidableEq ρ]

/-- The table `current`, with the rows in which `final` differs from `base` replaced by
those of `final`. -/
def merge (base final current : Table key) : Table key where
  get k := if final.get k = base.get k then current.get k else final.get k
  keys := (final.keys ∪ current.keys).filter fun k =>
    (if final.get k = base.get k then current.get k else final.get k).isSome
  mem_keys k := by
    rw [Finset.mem_filter, Finset.mem_union, final.mem_keys, current.mem_keys]
    constructor
    · rintro ⟨_, h⟩
      exact h
    · intro h
      refine ⟨?_, h⟩
      split at h
      · exact Or.inr h
      · exact Or.inl h
  key_get k r h := by
    split at h
    · exact current.key_get k r h
    · exact final.key_get k r h

theorem get_merge (base final current : Table key) (k : κ) :
  (merge base final current).get k
    = if final.get k = base.get k then current.get k else final.get k
  := rfl

/-- A row of a merged table is one of `final` if it was changed there, and otherwise one of
`current`. -/
theorem mem_merge {base final current : Table key} {r : ρ} :
  r ∈ merge base final current
    ↔ (final.get (key r) = base.get (key r) ∧ r ∈ current)
      ∨ (final.get (key r) ≠ base.get (key r) ∧ r ∈ final)
  := by
  rw [mem_def, get_merge]
  by_cases h : final.get (key r) = base.get (key r)
  · simp [h, mem_def]
  · simp [h, mem_def]

/-- Merging nothing changes nothing. -/
@[simp]
theorem merge_self (base current : Table key) :
  merge base base current = current
  := by
  apply ext
  intro k
  rw [get_merge, if_pos rfl]

/-- Merging into the table the changes were made to makes them. -/
@[simp]
theorem merge_base (base final : Table key) :
  merge base final base = final
  := by
  apply ext
  intro k
  rw [get_merge]
  split
  · next h => exact h.symm
  · rfl

variable {p : ρ → Prop} {base final current : Table key}

/-- Rows that only `final` may have changed are those of `final`. -/
theorem Same.merge_final (h : Same p base current) :
  Same p final (merge base final current)
  := by
  intro r hr
  rw [mem_merge, h r hr, mem_def, mem_def]
  constructor
  · rintro (⟨heq, hbase⟩ | ⟨_, hfinal⟩)
    · exact heq.trans hbase
    · exact hfinal
  · intro hfinal
    by_cases heq : final.get (key r) = base.get (key r)
    · exact Or.inl ⟨heq, heq.symm.trans hfinal⟩
    · exact Or.inr ⟨heq, hfinal⟩

/-- Rows that `final` has not changed are those of `current`, if no row was changed in both. -/
theorem Same.merge_current (h : Same p base final)
    (apart : ∀ k, final.get k = base.get k ∨ current.get k = base.get k) :
  Same p current (merge base final current)
  := by
  intro r hr
  rw [mem_merge, h r hr, mem_def, mem_def]
  constructor
  · rintro (⟨_, hcurrent⟩ | ⟨hne, hbase⟩)
    · exact hcurrent
    · exact ((apart (key r)).resolve_left hne).trans hbase
  · intro hcurrent
    by_cases heq : final.get (key r) = base.get (key r)
    · exact Or.inl ⟨heq, hcurrent⟩
    · exact Or.inr ⟨heq, ((apart (key r)).resolve_left heq).symm.trans hcurrent⟩

end Merge

/-! ### Adding up -/

section Sum

variable {M : Type} [AddCommMonoid M] {f : ρ → M} {t t' : Table key}

/-- The sum of the values of the rows. -/
def sum (t : Table key) (f : ρ → M) : M :=
  t.keys.sum fun k => (t.get k).elim 0 f

/-- The sum may be taken over more keys than those of the table. -/
theorem sum_eq_of_subset {s : Finset κ} (h : t.keys ⊆ s) :
  t.sum f = s.sum fun k => (t.get k).elim 0 f
  := by
  refine Finset.sum_subset h fun k _ hk => ?_
  rw [t.mem_keys, Option.not_isSome_iff_eq_none] at hk
  rw [hk]
  rfl

/-- The sum depends on the values of the rows only. -/
theorem sum_congr {g : ρ → M} (h : ∀ r ∈ t, f r = g r) :
  t.sum f = t.sum g
  := by
  refine Finset.sum_congr rfl fun k _ => ?_
  cases hk : t.get k with
  | none => rfl
  | some r => exact h r (get_eq_some_iff.mp hk).1

/-- What is in a sum is in the value of some row. -/
theorem mem_sum {α : Type} {f : ρ → Multiset α} {a : α} :
  a ∈ t.sum f ↔ ∃ r ∈ t, a ∈ f r
  := by
  rw [sum, Multiset.mem_sum]
  constructor
  · rintro ⟨k, _, h⟩
    cases hk : t.get k with
    | none => rw [hk] at h; exact absurd h (Multiset.notMem_zero a)
    | some r => rw [hk] at h; exact ⟨r, (get_eq_some_iff.mp hk).1, h⟩
  · rintro ⟨r, hr, h⟩
    refine ⟨key r, mem_keys_iff.mpr ⟨r, hr, rfl⟩, ?_⟩
    rw [mem_def.mp hr]
    exact h

/-- Changing the rows without changing their keys changes their values. -/
theorem sum_map {g : ρ → ρ} {hg : ∀ r, key (g r) = key r} :
  (t.map g hg).sum f = t.sum fun r => f (g r)
  := by
  have hkeys : (t.map g hg).keys = t.keys := rfl
  rw [sum, hkeys, sum]
  refine Finset.sum_congr rfl fun k _ => ?_
  rw [get_map]
  cases t.get k with
  | none => rfl
  | some r => rfl

/-- The rows that satisfy a condition, and the others, make up all the rows. -/
theorem sum_filter_add (p : ρ → Bool) :
  (t.filter p).sum f + (t.filter fun r => !p r).sum f = t.sum f
  := by
  have sub : ∀ q : ρ → Bool, (t.filter q).keys ⊆ t.keys := by
    intro q k hk
    rw [mem_keys, get_filter] at hk
    obtain ⟨r, hr⟩ := Option.isSome_iff_exists.mp hk
    rw [mem_keys, (Option.filter_eq_some_iff.mp hr).1]
    rfl
  rw [sum_eq_of_subset (sub p), sum_eq_of_subset (sub fun r => !p r), ← Finset.sum_add_distrib]
  refine Finset.sum_congr rfl fun k _ => ?_
  rw [get_filter, get_filter]
  cases t.get k with
  | none => exact add_zero 0
  | some r =>
      cases hp : p r with
      | true => simp [Option.filter, hp]
      | false => simp [Option.filter, hp]

/-- The sum over the rows that satisfy a condition. -/
theorem sum_filter (p : ρ → Bool) :
  (t.filter p).sum f = t.sum fun r => if p r then f r else 0
  := by
  have zero : (t.filter fun r => !p r).sum (fun r => if p r then f r else 0) = 0 := by
    refine Finset.sum_eq_zero fun k _ => ?_
    cases hk : (t.filter fun r => !p r).get k with
    | none => rfl
    | some r =>
        have hr := (mem_filter.mp (get_eq_some_iff.mp hk).1).2
        rw [Bool.not_eq_true'] at hr
        simp [hr]
  rw [← sum_filter_add p (f := fun r => if p r then f r else 0), zero, add_zero]
  refine sum_congr fun r hr => ?_
  rw [if_pos (mem_filter.mp hr).2]

section Write

variable [DecidableEq κ]

/-- Writing a row adds its value, and takes away that of the row it replaces. -/
theorem sum_put (r : ρ) :
  (t.put r).sum f + (t.get (key r)).elim 0 f = t.sum f + f r
  := by
  have hput : (t.put r).keys ⊆ insert (key r) t.keys := subset_of_eq rfl
  rw [sum_eq_of_subset hput, sum_eq_of_subset (Finset.subset_insert (key r) t.keys),
    ← Finset.add_sum_erase _ _ (Finset.mem_insert_self (key r) t.keys),
    ← Finset.add_sum_erase _ (fun k => (t.get k).elim 0 f) (Finset.mem_insert_self (key r) t.keys),
    get_put_self]
  have rest : ∀ k ∈ (insert (key r) t.keys).erase (key r),
      ((t.put r).get k).elim 0 f = (t.get k).elim 0 f := by
    intro k hk
    rw [get_put_of_ne t (Finset.ne_of_mem_erase hk)]
  rw [Finset.sum_congr rfl rest, add_comm ((t.get (key r)).elim 0 f)]
  exact add_rotate (f r) _ _

/-- Writing a row under a new key adds its value. -/
theorem sum_put_of_get {r : ρ} (fresh : t.get (key r) = none) :
  (t.put r).sum f = t.sum f + f r
  := by
  rw [← sum_put r, fresh]
  exact (add_zero _).symm

/-- Writing a row of the same value in place of another. -/
theorem sum_put_of_mem {M : Type} [AddCancelCommMonoid M] {f : ρ → M} {r r' : ρ} (h : r ∈ t)
    (hk : key r' = key r) (hf : f r' = f r) :
  (t.put r').sum f = t.sum f
  := by
  have hput := sum_put (t := t) (f := f) r'
  rw [hk, mem_def.mp h, Option.elim_some, hf] at hput
  exact add_right_cancel hput

/-- Erasing a row takes away its value. -/
theorem sum_erase (k : κ) :
  (t.erase k).sum f + (t.get k).elim 0 f = t.sum f
  := by
  have herase : (t.erase k).keys ⊆ insert k t.keys := by
    intro k' hk'
    rw [mem_keys, get_erase] at hk'
    split at hk'
    · cases hk'
    · exact Finset.mem_insert_of_mem ((t.mem_keys k').mpr hk')
  rw [sum_eq_of_subset herase, sum_eq_of_subset (Finset.subset_insert k t.keys),
    ← Finset.add_sum_erase _ _ (Finset.mem_insert_self k t.keys),
    ← Finset.add_sum_erase _ (fun k => (t.get k).elim 0 f) (Finset.mem_insert_self k t.keys),
    get_erase_self]
  have rest : ∀ k' ∈ (insert k t.keys).erase k,
      ((t.erase k).get k').elim 0 f = (t.get k').elim 0 f := by
    intro k' hk'
    rw [get_erase_of_ne t (Finset.ne_of_mem_erase hk')]
  rw [Finset.sum_congr rfl rest]
  exact (congrArg (· + _) (zero_add _)).trans (add_comm _ _)

/-- Writing rows under new keys, all different, adds their values. -/
theorem sum_foldl_put {l : List ρ} (distinct : (l.map key).Nodup)
    (fresh : ∀ r ∈ l, t.get (key r) = none) :
  (l.foldl put t).sum f = t.sum f + (l.map f).sum
  := by
  induction l generalizing t with
  | nil => exact (add_zero _).symm
  | cons r l ih =>
      obtain ⟨hnot, hdistinct⟩ := List.nodup_cons.mp distinct
      have fresh' : ∀ r' ∈ l, (t.put r).get (key r') = none := by
        intro r' hr'
        have hne : key r' ≠ key r := fun h => hnot (h ▸ List.mem_map_of_mem hr')
        rw [get_put_of_ne t hne]
        exact fresh r' (List.mem_cons_of_mem r hr')
      rw [List.foldl_cons, ih hdistinct fresh',
        sum_put_of_get (fresh r List.mem_cons_self), List.map_cons, List.sum_cons, add_assoc]

/-- Merging adds what was changed on both sides, if no row was changed on both. -/
theorem sum_merge [DecidableEq ρ] {base final current : Table key}
    (apart : ∀ k, final.get k = base.get k ∨ current.get k = base.get k) :
  (merge base final current).sum f + base.sum f = final.sum f + current.sum f
  := by
  let s : Finset κ := (merge base final current).keys ∪ base.keys ∪ final.keys ∪ current.keys
  have hmerge : (merge base final current).keys ⊆ s := fun k hk => by simp [s, hk]
  have hbase : base.keys ⊆ s := fun k hk => by simp [s, hk]
  have hfinal : final.keys ⊆ s := fun k hk => by simp [s, hk]
  have hcurrent : current.keys ⊆ s := fun k hk => by simp [s, hk]
  rw [sum_eq_of_subset hmerge, sum_eq_of_subset hbase, sum_eq_of_subset hfinal,
    sum_eq_of_subset hcurrent, ← Finset.sum_add_distrib, ← Finset.sum_add_distrib]
  refine Finset.sum_congr rfl fun k _ => ?_
  rw [get_merge]
  split
  · next h => rw [h, add_comm]
  · next h => rw [(apart k).resolve_left h]

end Write

section Rows

variable {κ : Type} [LinearOrder κ] {key : ρ → κ} (t : Table key)

/-- The sum over the rows, in the order of their keys. -/
theorem sum_rows {f : ρ → M} :
  (t.rows.map f).sum = t.sum f
  := by
  have hlist : ∀ l : List κ,
      ((l.filterMap t.get).map f).sum = (l.map fun k => (t.get k).elim 0 f).sum := by
    intro l
    induction l with
    | nil => rfl
    | cons k l ih =>
        cases hk : t.get k with
        | none => simp [hk, ih]
        | some r => simp [hk, ih]
  rw [rows, hlist, sum, Finset.sum]
  obtain ⟨⟨l⟩, hl⟩ := t.keys
  exact ((List.perm_insertionSort (· ≤ ·) l).map _).sum_eq

/-- The sum over the rows that satisfy a condition, in the order of their keys. -/
theorem sum_filter_rows {f : ρ → M} (p : ρ → Bool) :
  ((t.rows.filter p).map f).sum = (t.filter p).sum f
  := by
  rw [sum_filter, ← sum_rows]
  induction t.rows with
  | nil => rfl
  | cons r l ih =>
      rw [List.filter_cons, List.map_cons, List.sum_cons, ← ih]
      split
      · rw [List.map_cons, List.sum_cons]
      · rw [zero_add]

/-- How many rows satisfy a condition. -/
theorem length_filter_rows (p : ρ → Bool) :
  (t.rows.filter p).length = (t.filter p).sum fun _ => 1
  := by
  rw [← sum_filter_rows, List.map_const', List.sum_replicate_nat, mul_one]

end Rows

end Sum

/-! ### Counting changes -/

section Changes

variable {β : Type} {f : ρ → β}

/-- A table has as many keys as rows. -/
theorem card_keys (t : Table key) :
  t.keys.card = t.sum fun _ => 1
  := by
  rw [sum, Finset.card_eq_sum_ones]
  refine Finset.sum_congr rfl fun k hk => ?_
  obtain ⟨r, hr⟩ := Option.isSome_iff_exists.mp ((t.mem_keys k).mp hk)
  rw [hr]
  rfl

/-- If not more than `n` rows have a value, not more than `n` times as many rows have a value
of a list as the list is long. -/
theorem card_filter_mem_le [DecidableEq κ] [DecidableEq β] {t : Table key} (values : List β) {n : ℕ}
    (few : ∀ b ∈ values, (t.filter fun r => f r = b).keys.card ≤ n) :
  (t.filter fun r => f r ∈ values).keys.card ≤ values.length * n
  := by
  have hcover : (t.filter fun r => f r ∈ values).keys
      ⊆ values.toFinset.biUnion fun b => (t.filter fun r => f r = b).keys := by
    intro k hk
    obtain ⟨r, hr, rfl⟩ := mem_keys_iff.mp hk
    obtain ⟨hmem, hvalue⟩ := mem_filter.mp hr
    rw [Finset.mem_biUnion]
    refine ⟨f r, List.mem_toFinset.mpr (of_decide_eq_true hvalue), ?_⟩
    exact mem_keys_iff.mpr ⟨r, mem_filter.mpr ⟨hmem, decide_eq_true rfl⟩, rfl⟩
  calc (t.filter fun r => f r ∈ values).keys.card
      ≤ (values.toFinset.biUnion fun b => (t.filter fun r => f r = b).keys).card :=
        Finset.card_le_card hcover
    _ ≤ values.toFinset.card * n :=
        Finset.card_biUnion_le_card_mul _ _ n fun b hb => few b (List.mem_toFinset.mp hb)
    _ ≤ values.length * n := Nat.mul_le_mul_right n values.toFinset_card_le

/-- Not more rows have a key of a list than the list is long. -/
theorem card_filter_key_le [DecidableEq κ] {t : Table key} (keys : List κ) :
  (t.filter fun r => key r ∈ keys).keys.card ≤ keys.length
  := by
  refine (Finset.card_le_card fun k hk => ?_).trans keys.toFinset_card_le
  obtain ⟨r, hr, rfl⟩ := mem_keys_iff.mp hk
  exact List.mem_toFinset.mpr (of_decide_eq_true (mem_filter.mp hr).2)

variable [DecidableEq κ] [DecidableEq ρ]

/-- The number of the keys under which two tables differ. -/
def changes (t t' : Table key) : ℕ :=
  ((t.keys ∪ t'.keys).filter fun k => t'.get k ≠ t.get k).card

@[simp]
theorem changes_self (t : Table key) :
  t.changes t = 0
  := by
  simp [changes]

/-- Removing rows changes those that are removed. -/
theorem changes_filter (t : Table key) (p : ρ → Bool) :
  t.changes (t.filter p) = (t.filter fun r => !p r).keys.card
  := by
  rw [changes]
  congr 1
  apply Finset.ext
  intro k
  rw [Finset.mem_filter, Finset.mem_union, mem_keys, mem_keys, mem_keys, get_filter, get_filter]
  cases t.get k with
  | none => simp
  | some r =>
      cases hp : p r with
      | true => simp [Option.filter, hp]
      | false => simp [Option.filter, hp]

/-- Erasing a row changes one row. -/
theorem changes_erase {t : Table key} {k : κ} (h : (t.get k).isSome) :
  t.changes (t.erase k) = 1
  := by
  rw [changes, Finset.card_eq_one]
  refine ⟨k, Finset.ext fun k' => ?_⟩
  rw [Finset.mem_filter, Finset.mem_union, mem_keys, mem_keys, get_erase, Finset.mem_singleton]
  constructor
  · rintro ⟨_, hne⟩
    by_contra hk
    rw [if_neg hk] at hne
    exact hne rfl
  · rintro rfl
    refine ⟨Or.inl h, ?_⟩
    rw [if_pos rfl]
    exact fun heq => by rw [← heq] at h; cases h

end Changes

end Table

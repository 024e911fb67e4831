import Mathlib.Data.Int.Notation
import Mathlib.Data.List.Basic
import Mathlib.Data.List.Pairwise
import Mathlib.Data.List.Sort
import Mathlib.Order.Basic

/-!
# Tables with an `AUTOINCREMENT` key

A table is a list of rows, kept in the order of their ids, together with the id the next row gets.
Ids are never handed out twice: deleting a row does not give its id back. Both facts are fields of
the structure, so a table that breaks them cannot be built and no later invariant repeats them.

Statements are `insert`, `insertMany` (an `INSERT … SELECT`), `update` and `delete`. Later proofs
use them through the `mem_` lemmas below and never unfold a statement.

`OrderBy` is an order that is given by a key only: any arrangement that sorts by it. A program that
is correct for each of them does not depend on how rows with one key are arranged.

## Main results

* `eq_of_id` — the id is a key
* `mem_insert`, `mem_update`, `mem_delete`, `rows_insertMany` — the rows after a statement
* `filter_map_of_unseen` — a query that does not see a change
* `map_insert` — tables with fewer columns
-/

namespace Lib

/-- A row type with an id column. -/
class HasId (ρ : Type) where
  /-- The `id` column. -/
  id : ρ → ℤ

/-- A table whose key is handed out by the database. -/
structure Table (ρ : Type) [HasId ρ] where
  /-- The rows, oldest first. -/
  rows : List ρ
  /-- The id of the next row. -/
  next : ℤ
  /-- Ids grow with insertion, so no two rows share one. -/
  sorted : rows.Pairwise fun a b => HasId.id a < HasId.id b
  /-- Ids are handed out in order and never reused. -/
  lt_next : ∀ r ∈ rows, HasId.id r < next

namespace Table

variable {ρ α : Type} [HasId ρ]

/-- The empty table. -/
def empty : Table ρ := ⟨[], 1, .nil, by simp⟩

/-- The row with a given id. -/
def find? (t : Table ρ) (id : ℤ) : Option ρ := t.rows.find? fun r => HasId.id r == id

/-- `INSERT`: `mk` builds the row from its id. -/
def insert (t : Table ρ) (mk : ℤ → ρ) (hmk : ∀ n, HasId.id (mk n) = n) : Table ρ where
  rows := t.rows ++ [mk t.next]
  next := t.next + 1
  sorted := by
    refine List.pairwise_append.mpr ⟨t.sorted, List.pairwise_singleton _ _, fun a ha b hb => ?_⟩
    rw [List.mem_singleton.mp hb, hmk]
    exact t.lt_next a ha
  lt_next := by
    intro r hr
    rcases List.mem_append.mp hr with hr | hr
    · exact Int.lt_add_one_of_le (Int.le_of_lt (t.lt_next r hr))
    · rw [List.mem_singleton.mp hr, hmk]
      exact Int.lt_succ _

/-- `INSERT … SELECT`: one row for each element of `xs`, in order. -/
def insertMany (mk : α → ℤ → ρ) (hmk : ∀ x n, HasId.id (mk x n) = n) : Table ρ → List α → Table ρ
  | t, [] => t
  | t, x :: xs => insertMany mk hmk (t.insert (mk x) (hmk x)) xs

/-- `UPDATE … WHERE p`. The columns change by `f`, which leaves the id alone. -/
def update (t : Table ρ) (p : ρ → Bool) (f : ρ → ρ) (hf : ∀ r, HasId.id (f r) = HasId.id r) :
    Table ρ where
  rows := t.rows.map fun r => if p r then f r else r
  next := t.next
  sorted := by
    refine List.pairwise_map.mpr (t.sorted.imp fun h => ?_)
    split <;> split <;> simpa only [hf] using h
  lt_next := by
    intro r hr
    obtain ⟨r₀, hr₀, rfl⟩ := List.mem_map.mp hr
    split
    · rw [hf]; exact t.lt_next r₀ hr₀
    · exact t.lt_next r₀ hr₀

/-- `DELETE … WHERE p`. -/
def delete (t : Table ρ) (p : ρ → Bool) : Table ρ where
  rows := t.rows.filter fun r => !p r
  next := t.next
  sorted := t.sorted.filter _
  lt_next := fun r hr => t.lt_next r (List.mem_of_mem_filter hr)

/-- The table with fewer columns, or with others. -/
def map {ρ' : Type} [HasId ρ'] (t : Table ρ) (f : ρ → ρ') (hf : ∀ r, HasId.id (f r) = HasId.id r) :
    Table ρ' where
  rows := t.rows.map f
  next := t.next
  sorted := List.pairwise_map.mpr (t.sorted.imp fun h => by simpa only [hf] using h)
  lt_next := by
    intro r hr
    obtain ⟨r₀, hr₀, rfl⟩ := List.mem_map.mp hr
    rw [hf]
    exact t.lt_next r₀ hr₀

variable {t : Table ρ} {r r' : ρ} {p : ρ → Bool} {f : ρ → ρ} {id : ℤ}

/-! ### Rows and ids -/

/-- The id is a key. -/
theorem eq_of_id (hr : r ∈ t.rows) (hr' : r' ∈ t.rows) (h : HasId.id r = HasId.id r') :
    r = r' := by
  by_contra hne
  have : Std.Symm fun a b : ρ => HasId.id a ≠ HasId.id b := ⟨fun _ _ h => h.symm⟩
  exact List.Pairwise.forall (t.sorted.imp fun hlt => Int.ne_of_lt hlt) hr hr' hne h

@[simp] theorem rows_empty : (empty : Table ρ).rows = [] := rfl

theorem find?_eq_some_iff : t.find? id = some r ↔ r ∈ t.rows ∧ HasId.id r = id := by
  constructor
  · intro h
    exact ⟨List.mem_of_find?_eq_some h, by simpa using List.find?_some h⟩
  · rintro ⟨hr, rfl⟩
    cases h : t.find? (HasId.id r) with
    | none => simpa using List.find?_eq_none.mp h r hr
    | some r₀ =>
      have hid : HasId.id r₀ = HasId.id r := by simpa using List.find?_some h
      rw [eq_of_id (List.mem_of_find?_eq_some h) hr hid]

theorem find?_eq_none_iff : t.find? id = none ↔ ∀ r ∈ t.rows, HasId.id r ≠ id := by
  simp [find?]

/-! ### Statements -/

@[simp] theorem rows_insert (mk : ℤ → ρ) (hmk) :
    (t.insert mk hmk).rows = t.rows ++ [mk t.next] := rfl

@[simp] theorem next_insert (mk : ℤ → ρ) (hmk) : (t.insert mk hmk).next = t.next + 1 := rfl

@[simp] theorem rows_map {ρ' : Type} [HasId ρ'] (f : ρ → ρ') (hf) :
    (t.map f hf).rows = t.rows.map f := rfl

/-- A row is inserted with its columns before or after some of them are left out. -/
theorem map_insert {ρ' : Type} [HasId ρ'] (f : ρ → ρ') (hf) (mk : ℤ → ρ) (hmk) :
    (t.insert mk hmk).map f hf =
      (t.map f hf).insert (fun n => f (mk n)) fun n => (hf (mk n)).trans (hmk n) := by
  have hrows : (t.rows ++ [mk t.next]).map f = t.rows.map f ++ [f (mk t.next)] := by
    rw [List.map_append, List.map_singleton]
  simp only [map, insert, hrows]

theorem mem_insert (mk : ℤ → ρ) (hmk) :
    r ∈ (t.insert mk hmk).rows ↔ r ∈ t.rows ∨ r = mk t.next := by
  simp

@[simp] theorem next_update (p : ρ → Bool) (f : ρ → ρ) (hf) : (t.update p f hf).next = t.next :=
  rfl

theorem mem_update (hf) :
    r ∈ (t.update p f hf).rows ↔ ∃ r₀ ∈ t.rows, (if p r₀ then f r₀ else r₀) = r := by
  simp [update]

/-- An `UPDATE` of rows that are not there. -/
theorem rows_update_of_absent (hf) (h : ∀ r ∈ t.rows, p r = false) :
    (t.update p f hf).rows = t.rows := by
  have hmap : ∀ r ∈ t.rows, (if p r then f r else r) = id r := fun r hr => by
    rw [h r hr]
    rfl
  exact (List.map_congr_left hmap).trans (List.map_id t.rows)

theorem update_of_absent (hf) (h : ∀ r ∈ t.rows, p r = false) : t.update p f hf = t := by
  have hrows := rows_update_of_absent hf h
  obtain ⟨rows, next, sorted, lt_next⟩ := t
  simp only [update] at hrows ⊢
  simp only [hrows]

/-- An `UPDATE` of the row inserted last. -/
theorem rows_update_insert {mk : ℤ → ρ} (hmk) (hf)
    (hp : ∀ r, p r = true ↔ HasId.id r = t.next) :
    ((t.insert mk hmk).update p f hf).rows = t.rows ++ [f (mk t.next)] := by
  have hold : (t.update p f hf).rows = t.rows := rows_update_of_absent hf fun r hr =>
    Bool.eq_false_iff.mpr fun hpr => Int.ne_of_lt (t.lt_next r hr) ((hp r).mp hpr)
  have hnew : (if p (mk t.next) then f (mk t.next) else mk t.next) = f (mk t.next) :=
    if_pos ((hp _).mpr (hmk _))
  have hmap : ((t.insert mk hmk).update p f hf).rows =
      (t.update p f hf).rows ++ [if p (mk t.next) then f (mk t.next) else mk t.next] :=
    List.map_append
  rw [hmap, hold, hnew]

theorem mem_update_insert {mk : ℤ → ρ} {hmk} {hf} (hp : ∀ r, p r = true ↔ HasId.id r = t.next) :
    r ∈ ((t.insert mk hmk).update p f hf).rows ↔ r ∈ t.rows ∨ r = f (mk t.next) := by
  rw [rows_update_insert hmk hf hp, List.mem_append, List.mem_singleton]

/-- An `UPDATE` changes no id. -/
theorem map_id_update (hf) :
    (t.update p f hf).rows.map HasId.id = t.rows.map HasId.id := by
  simp only [update, List.map_map]
  refine List.map_congr_left fun r _ => ?_
  simp only [Function.comp_apply]
  split
  · exact hf r
  · rfl

theorem exists_id_update (hf) :
    (∃ r ∈ (t.update p f hf).rows, HasId.id r = id) ↔ ∃ r ∈ t.rows, HasId.id r = id := by
  rw [← List.mem_map, map_id_update, List.mem_map]

/-- A query does not see a row-wise change that leaves alone every row it picks up before or
after. -/
theorem filter_map_of_unseen {l : List α} {f : α → α} {q : α → Bool}
    (h : ∀ r ∈ l, f r = r ∨ q r = false ∧ q (f r) = false) :
    (l.map f).filter q = l.filter q := by
  induction l with
  | nil => rfl
  | cons r l ih =>
    have ih := ih fun r' hr' => h r' (List.mem_cons_of_mem _ hr')
    rcases h r List.mem_cons_self with hr | ⟨hr, hfr⟩
    · rw [List.map_cons, hr, List.filter_cons, List.filter_cons, ih]
    · rw [List.map_cons, List.filter_cons_of_neg (by simp [hfr]),
        List.filter_cons_of_neg (by simp [hr]), ih]

@[simp] theorem next_delete (p : ρ → Bool) : (t.delete p).next = t.next := rfl

@[simp] theorem mem_delete : r ∈ (t.delete p).rows ↔ r ∈ t.rows ∧ p r = false := by
  simp [delete]

/-- Pairs of a fresh id and an element, in order: what `insertMany` inserts. -/
def numbered : ℤ → List α → List (ℤ × α)
  | _, [] => []
  | n, x :: xs => (n, x) :: numbered (n + 1) xs

theorem rows_insertMany (mk : α → ℤ → ρ) (hmk) (xs : List α) :
    (insertMany mk hmk t xs).rows = t.rows ++ (numbered t.next xs).map fun q => mk q.2 q.1 := by
  induction xs generalizing t with
  | nil => simp [insertMany, numbered]
  | cons x xs ih => simp [insertMany, numbered, ih]

theorem next_le_insertMany (mk : α → ℤ → ρ) (hmk) (xs : List α) :
    t.next ≤ (insertMany mk hmk t xs).next := by
  induction xs generalizing t with
  | nil => exact Int.le_refl _
  | cons x xs ih => exact Int.le_trans (Int.le_of_lt (Int.lt_succ _)) (ih (t := t.insert _ _))

theorem mem_numbered {n : ℤ} {xs : List α} {q : ℤ × α} (h : q ∈ numbered n xs) :
    n ≤ q.1 ∧ q.2 ∈ xs := by
  induction xs generalizing n with
  | nil => simp [numbered] at h
  | cons x xs ih =>
    rcases List.mem_cons.mp h with rfl | h
    · exact ⟨Int.le_refl _, List.mem_cons_self⟩
    · exact ⟨Int.le_trans (Int.le_of_lt (Int.lt_succ n)) (ih h).1, List.mem_cons_of_mem _ (ih h).2⟩

/-- Every row of an `INSERT … SELECT` is an old one or has a fresh id and comes from `xs`. -/
theorem mem_insertMany {mk : α → ℤ → ρ} {hmk} {xs : List α}
    (h : r ∈ (insertMany mk hmk t xs).rows) :
    r ∈ t.rows ∨ ∃ x ∈ xs, ∃ n, t.next ≤ n ∧ r = mk x n := by
  rw [rows_insertMany, List.mem_append] at h
  refine h.imp_right fun h => ?_
  obtain ⟨q, hq, rfl⟩ := List.mem_map.mp h
  exact ⟨q.2, (mem_numbered hq).2, q.1, (mem_numbered hq).1, rfl⟩

theorem mem_insertMany_of_mem (mk : α → ℤ → ρ) (hmk) (xs : List α) (h : r ∈ t.rows) :
    r ∈ (insertMany mk hmk t xs).rows := by
  rw [rows_insertMany]
  exact List.mem_append_left _ h

/-- Picking one row by its id out of rows in order. -/
theorem filterMap_of_mem {β : Type} {l : List ρ}
    (hl : l.Pairwise fun a b => HasId.id a < HasId.id b) (hr : r ∈ l) (b : Option β) :
    (l.filterMap fun r' => if HasId.id r' = HasId.id r then b else none) = b.toList := by
  induction l with
  | nil => exact absurd hr List.not_mem_nil
  | cons a l ih =>
    rw [List.pairwise_cons] at hl
    have hnil : ∀ {k : ℤ}, (∀ r' ∈ l, HasId.id r' ≠ k) →
        (l.filterMap fun r' => if HasId.id r' = k then b else none) = [] := by
      intro k hk
      rw [List.filterMap_eq_nil_iff]
      exact fun r' hr' => if_neg (hk r' hr')
    rcases List.mem_cons.mp hr with rfl | hr
    · have hrest := hnil fun r' hr' => (Int.ne_of_lt (hl.1 r' hr')).symm
      cases b <;> simp [hrest]
    · rw [List.filterMap_cons, if_neg (Int.ne_of_lt (hl.1 r hr)), ih hl.2 hr]

theorem map_snd_numbered (n : ℤ) (xs : List α) : (numbered n xs).map Prod.snd = xs := by
  induction xs generalizing n with
  | nil => rfl
  | cons x xs ih => simp [numbered, ih]

end Table

/-! ### Queries in order -/

/-- `ORDER BY key`: some arrangement with smaller keys first. Which of two rows with one key comes
first is not said. -/
structure OrderBy {α : Type} (key : α → ℤ) where
  sort : List α → List α
  perm : ∀ l, (sort l).Perm l
  sorted : ∀ l, (sort l).Pairwise fun a b => key a ≤ key b

namespace OrderBy

variable {α : Type} {key : α → ℤ}

/-- Rows with one key in the order of the table. -/
def stable (key : α → ℤ) : OrderBy key where
  sort l := l.insertionSort fun a b => key a ≤ key b
  perm l := List.perm_insertionSort _ l
  sorted l := by
    have htotal : Std.Total fun a b => key a ≤ key b := ⟨fun a b => Int.le_total (key a) (key b)⟩
    have htrans : IsTrans α fun a b => key a ≤ key b := ⟨fun _ _ _ => Int.le_trans⟩
    exact List.pairwise_insertionSort _ _

theorem mem_sort (o : OrderBy key) {l : List α} {a : α} : a ∈ o.sort l ↔ a ∈ l :=
  (o.perm l).mem_iff

end OrderBy

end Lib

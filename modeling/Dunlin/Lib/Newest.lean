import Dunlin.Lib.Keyed
import Mathlib.Data.List.Dedup
import Mathlib.Order.Bounds.Basic
import Mathlib.Order.MinMax

/-!
# The newest row of each group

A table has keys of two parts, a time and a group. A second table, the index, keeps the newest time
of each group. `Indexed` is the relation between the two. It holds of an index built by one query
(`indexed_insertFrom`), and writing both tables keeps it: an insertion into the one goes with a
maximum in the other (`Indexed.upsert`), and deleting the old rows of the one goes with deleting the
old rows of the other (`Indexed.delete_lt`).

Times may be of any linear order.

## Main results

* `indexed_insertFrom` — an index built by one query
* `Indexed.upsert` — a row inserted or overwritten, in the order of the times or not
* `Indexed.delete_lt` — old rows deleted from both tables
* `Indexed.isGreatest` — what the index says of a group
-/

namespace Lib

variable {α κ β : Type} [LinearOrder α]

/-- What is known of the greatest element of a set: it, or that there is none. -/
def Newest (A : Set α) : Option α → Prop
  | none => A = ∅
  | some m => IsGreatest A m

namespace Newest

variable {A : Set α} {o : Option α}

theorem isSome_iff (h : Newest A o) : o.isSome ↔ A.Nonempty := by
  cases o with
  | none =>
    have hempty : A = ∅ := h
    simp [hempty]
  | some m => exact iff_of_true rfl ⟨m, h.1⟩

theorem insert (h : Newest A o) (x : α) : Newest (insert x A) (some (o.elim x (max · x))) := by
  cases o with
  | none =>
    have hempty : A = ∅ := h
    rw [hempty, insert_empty_eq]
    exact isGreatest_singleton
  | some m =>
    show IsGreatest (Insert.insert x A) (max m x)
    rw [max_comm]
    exact IsGreatest.insert x h

/-- Dropping the elements below a bound drops the greatest one if it is below it. -/
theorem filter (h : Newest A o) (c : α) :
    Newest {a ∈ A | c ≤ a} (o.filter fun m => !decide (m < c)) := by
  cases o with
  | none =>
    have hempty : A = ∅ := h
    simp [Newest, hempty]
  | some m =>
    obtain ⟨hm, hle⟩ : IsGreatest A m := h
    by_cases hc : m < c
    · have hnone : (some m).filter (fun m => !decide (m < c)) = none := by simp [Option.filter, hc]
      rw [hnone]
      refine Set.eq_empty_of_forall_notMem fun a ⟨ha, hca⟩ => ?_
      exact absurd (lt_of_le_of_lt (hle ha) hc) (not_lt_of_ge hca)
    · have hsome : (some m).filter (fun m => !decide (m < c)) = some m := by
        simp [Option.filter, hc]
      rw [hsome]
      exact ⟨⟨hm, not_lt.mp hc⟩, fun a ha => hle ha.1⟩

/-- `MAX`. -/
theorem max? (l : List α) : Newest {a | a ∈ l} l.max? := by
  cases hmax : l.max? with
  | none =>
    rw [List.max?_eq_none_iff] at hmax
    simp [Newest, hmax]
  | some m =>
    obtain ⟨hmem, hle⟩ := List.max?_eq_some_iff.mp hmax
    exact ⟨hmem, fun a ha => hle a ha⟩

end Newest

variable [DecidableEq κ]

/-- The times of a group. -/
def timesOf (rows : Keyed (α × κ) β) (k : κ) : Set α := {a | (rows.get? (a, k)).isSome}

/-- The index has the newest time of each group. -/
def Indexed (rows : Keyed (α × κ) β) (index : Keyed κ α) : Prop :=
  ∀ k, Newest (timesOf rows k) (index.get? k)

/-- `SELECT MAX(time) … GROUP BY group`. -/
def newestOf (rows : Keyed (α × κ) β) (k : κ) : Option α :=
  ((rows.rows.filter (·.1.2 == k)).map (·.1.1)).max?

variable {rows : Keyed (α × κ) β} {index : Keyed κ α} {k : κ}

theorem mem_timesOf {a : α} : a ∈ timesOf rows k ↔ (a, k) ∈ rows.rows.map Prod.fst :=
  Keyed.isSome_get?_iff

/-- The groups of the index are those of the table. -/
theorem Indexed.mem_keys (h : Indexed rows index) :
    k ∈ index.rows.map Prod.fst ↔ k ∈ rows.rows.map (·.1.2) := by
  rw [← Keyed.isSome_get?_iff, (h k).isSome_iff]
  constructor
  · rintro ⟨a, ha⟩
    obtain ⟨r, hr, hkey⟩ := List.mem_map.mp (mem_timesOf.mp ha)
    exact List.mem_map.mpr ⟨r, hr, by rw [hkey]⟩
  · intro hk
    obtain ⟨r, hr, rfl⟩ := List.mem_map.mp hk
    exact ⟨r.1.1, mem_timesOf.mpr (List.mem_map.mpr ⟨r, hr, rfl⟩)⟩

/-- The time of an index row is the newest of its group. -/
theorem Indexed.isGreatest (h : Indexed rows index) {r : κ × α} (hr : r ∈ index.rows) :
    IsGreatest (timesOf rows r.1) r.2 := by
  have hnewest := h r.1
  rwa [Keyed.get?_of_mem hr] at hnewest

/-- **An index built by one query.** -/
theorem indexed_insertFrom (rows : Keyed (α × κ) β) :
    Indexed rows (Keyed.empty.insertFrom (rows.rows.map (·.1.2)).dedup (newestOf rows)) := by
  intro k
  have htimes : timesOf rows k = {a | a ∈ (rows.rows.filter (·.1.2 == k)).map (·.1.1)} := by
    ext a
    rw [mem_timesOf, Set.mem_ofPred_eq, List.mem_map, List.mem_map]
    constructor
    · rintro ⟨r, hr, hkey⟩
      exact ⟨r, List.mem_filter.mpr ⟨hr, by simp [hkey]⟩, by rw [hkey]⟩
    · rintro ⟨r, hr, rfl⟩
      obtain ⟨hr, hk⟩ := List.mem_filter.mp hr
      exact ⟨r, hr, Prod.ext rfl (beq_iff_eq.mp hk)⟩
  have hquery : Newest (timesOf rows k) (newestOf rows k) := htimes ▸ Newest.max? _
  rw [Keyed.get?_insertFrom, Keyed.get?_empty, Option.none_or]
  split
  · exact hquery
  · rename_i hno
    refine Set.eq_empty_of_forall_notMem fun a ha => hno ?_
    obtain ⟨r, hr, hkey⟩ := List.mem_map.mp (mem_timesOf.mp ha)
    exact List.mem_dedup.mpr (List.mem_map.mpr ⟨r, hr, by rw [hkey]⟩)

/-- **Inserting or overwriting a row**, in time order or not. -/
theorem Indexed.upsert (h : Indexed rows index) (a : α) (k : κ) (f : Option β → β) :
    Indexed (rows.upsert (a, k) f) (index.upsert k fun old => old.elim a (max · a)) := by
  intro k'
  rw [Keyed.get?_upsert]
  by_cases hk : k' = k
  · subst hk
    have htimes : timesOf (rows.upsert (a, k') f) k' = insert a (timesOf rows k') := by
      ext b
      rw [timesOf, Set.mem_ofPred_eq, Keyed.get?_upsert, Set.mem_insert_iff]
      by_cases hb : b = a <;> simp [hb, timesOf]
    rw [if_pos rfl, htimes]
    exact (h k').insert a
  · have htimes : timesOf (rows.upsert (a, k) f) k' = timesOf rows k' := by
      ext b
      rw [timesOf, Set.mem_ofPred_eq, Keyed.get?_upsert, if_neg (by simp [hk])]
      rfl
    rw [if_neg hk, htimes]
    exact h k'

/-- **Deleting the old rows** of both tables, by the same bound. -/
theorem Indexed.delete_lt (h : Indexed rows index) (c : α) :
    Indexed (rows.delete fun k _ => decide (k.1 < c)) (index.delete fun _ a => decide (a < c)) := by
  intro k
  have htimes : timesOf (rows.delete fun k _ => decide (k.1 < c)) k =
      {a ∈ timesOf rows k | c ≤ a} := by
    ext a
    rw [timesOf, Set.mem_ofPred_eq, Keyed.get?_delete fun k : α × κ => decide (k.1 < c)]
    by_cases hc : a < c
    · simp [hc]
    · simp [hc, not_lt.mp hc, timesOf]
  rw [htimes, Keyed.get?_delete_where]
  exact (h k).filter c

end Lib

import Mathlib.Data.List.Basic
import Mathlib.Data.List.Nodup

/-!
# Tables with a key of their own

A table is a list of rows under keys that its rows choose, and no two rows share one. It is read
with `get?` and written with `upsert` (an `INSERT … ON CONFLICT DO UPDATE`), `upsertFrom` (an
`INSERT … SELECT … GROUP BY` with the same clause) and `delete`.

`get?` after a write is given by the `get?_` lemmas, and what a query sees of a write that keeps
rows in place by `filter_upsert`.

An `upsert` keeps the row in its place when the key is there, and appends it when it is not; what a
query without an order sees therefore depends on it, and `filter_upsert` says how. Everything else
is stated with `get?`, in which places do not show.

## Main results

* `get?_upsert`, `get?_upsertFrom`, `get?_insertFrom`, `get?_delete` — reading after a write
* `filter_upsert` — a query over the rows after an upsert
* `delete_upsert`, `delete_delete` — deletions and what they pass
-/

namespace Lib

/-- A table whose rows bring their keys. -/
structure Keyed (κ β : Type) where
  rows : List (κ × β)
  nodup : (rows.map Prod.fst).Nodup

namespace Keyed

variable {κ β : Type}

@[ext] theorem ext {t t' : Keyed κ β} (h : t.rows = t'.rows) : t = t' := by
  cases t
  cases t'
  cases h
  rfl

/-- The empty table. -/
def empty : Keyed κ β := ⟨[], .nil⟩

/-- `DELETE … WHERE p`. -/
def delete (t : Keyed κ β) (p : κ → β → Bool) : Keyed κ β where
  rows := t.rows.filter fun r => !p r.1 r.2
  nodup := (List.filter_sublist.map Prod.fst).nodup t.nodup

/-- `HashMap::retain`: `f` keeps a row, with other columns, or drops it. -/
def retain (t : Keyed κ β) (f : β → Option β) : Keyed κ β where
  rows := t.rows.filterMap fun r => (f r.2).map (r.1, ·)
  nodup := by
    refine List.Sublist.nodup ?_ t.nodup
    induction t.rows with
    | nil => exact .slnil
    | cons r rows ih =>
      rw [List.filterMap_cons]
      cases f r.2 with
      | none => exact ih.cons _
      | some b => exact ih.cons_cons _

variable [DecidableEq κ]

/-- The row with a given key. -/
def get? (t : Keyed κ β) (k : κ) : Option β := t.rows.lookup k

/-- The rows after an `upsert`: the row with the key in its place, or at the end. -/
def upsertRows (k : κ) (f : Option β → β) : List (κ × β) → List (κ × β)
  | [] => [(k, f none)]
  | r :: rows => if r.1 = k then (k, f (some r.2)) :: rows else r :: upsertRows k f rows

theorem mem_upsertRows {k : κ} {f : Option β → β} {rows : List (κ × β)} {r : κ × β}
    (h : r ∈ upsertRows k f rows) : (∃ old, r = (k, f old)) ∨ r ∈ rows := by
  induction rows with
  | nil => exact .inl ⟨none, List.mem_singleton.mp h⟩
  | cons r' rows ih =>
    unfold upsertRows at h
    split at h
    · rcases List.mem_cons.mp h with rfl | h
      · exact .inl ⟨_, rfl⟩
      · exact .inr (List.mem_cons_of_mem _ h)
    · rcases List.mem_cons.mp h with rfl | h
      · exact .inr List.mem_cons_self
      · exact (ih h).imp_right (List.mem_cons_of_mem _)

theorem mem_keys_upsertRows {k k' : κ} {f : Option β → β} {rows : List (κ × β)}
    (h : k' ∈ (upsertRows k f rows).map Prod.fst) : k' = k ∨ k' ∈ rows.map Prod.fst := by
  obtain ⟨r, hr, rfl⟩ := List.mem_map.mp h
  rcases mem_upsertRows hr with ⟨old, rfl⟩ | hr
  · exact .inl rfl
  · exact .inr (List.mem_map_of_mem hr)

theorem upsertRows_ne_nil {k : κ} {f : Option β → β} {rows : List (κ × β)} :
    upsertRows k f rows ≠ [] := by
  cases rows with
  | nil => exact List.cons_ne_nil _ _
  | cons r rows =>
    rw [upsertRows]
    split <;> exact List.cons_ne_nil _ _

theorem nodup_upsertRows (k : κ) (f : Option β → β) {rows : List (κ × β)}
    (h : (rows.map Prod.fst).Nodup) : ((upsertRows k f rows).map Prod.fst).Nodup := by
  induction rows with
  | nil => exact List.nodup_singleton k
  | cons r rows ih =>
    rw [List.map_cons, List.nodup_cons] at h
    rw [upsertRows]
    split
    · rename_i hk
      exact List.nodup_cons.mpr ⟨hk ▸ h.1, h.2⟩
    · rename_i hk
      refine List.nodup_cons.mpr ⟨fun hmem => ?_, ih h.2⟩
      exact (mem_keys_upsertRows hmem).elim hk h.1

/-- `INSERT … ON CONFLICT DO UPDATE`: `f` builds the columns, from those of the row in conflict if
there is one. -/
def upsert (t : Keyed κ β) (k : κ) (f : Option β → β) : Keyed κ β where
  rows := upsertRows k f t.rows
  nodup := nodup_upsertRows k f t.nodup

/-- `INSERT … SELECT … GROUP BY … ON CONFLICT DO UPDATE`: a row for every key with a value. -/
def upsertFrom (t : Keyed κ β) (keys : List κ) (f : κ → Option β) : Keyed κ β :=
  keys.foldl (fun t k => (f k).elim t fun b => t.upsert k fun _ => b) t

/-- `INSERT OR IGNORE … SELECT … GROUP BY`: a row for every key with a value and no row yet. -/
def insertFrom (t : Keyed κ β) (keys : List κ) (f : κ → Option β) : Keyed κ β :=
  keys.foldl (fun t k => (f k).elim t fun b => t.upsert k fun old => old.getD b) t

/-! ### Reading back -/

variable {t : Keyed κ β} {k k' : κ}

@[simp] theorem get?_empty : (empty : Keyed κ β).get? k = none := rfl

theorem lookup_cons_eq (r : κ × β) (rows : List (κ × β)) (k : κ) :
    (r :: rows).lookup k = if k = r.1 then some r.2 else rows.lookup k := by
  obtain ⟨k', b⟩ := r
  by_cases hk : k = k'
  · rw [if_pos hk, hk, List.lookup_cons_self]
  · rw [if_neg hk, List.lookup_cons, beq_eq_false_iff_ne.mpr hk]

theorem get?_upsert (f : Option β → β) :
    (t.upsert k f).get? k' = if k' = k then some (f (t.get? k)) else t.get? k' := by
  show (upsertRows k f t.rows).lookup k' = if k' = k then some (f (t.rows.lookup k)) else
    t.rows.lookup k'
  induction t.rows with
  | nil => rw [upsertRows, lookup_cons_eq, List.lookup_nil, List.lookup_nil]
  | cons r rows ih =>
    rw [upsertRows]
    rw [lookup_cons_eq r rows k, lookup_cons_eq r rows k']
    split
    · rename_i hr
      rw [lookup_cons_eq, hr, if_pos rfl]
      by_cases hk : k' = k
      · rw [if_pos hk, if_pos hk]
      · rw [if_neg hk, if_neg hk, if_neg hk]
    · rename_i hr
      rw [lookup_cons_eq, ih, if_neg (Ne.symm hr)]
      by_cases hk : k' = k
      · rw [if_pos hk, if_pos hk, if_neg (hk ▸ Ne.symm hr)]
      · rw [if_neg hk, if_neg hk]

theorem get?_upsertFrom (keys : List κ) (f : κ → Option β) :
    (t.upsertFrom keys f).get? k = if k ∈ keys then (f k).or (t.get? k) else t.get? k := by
  rw [upsertFrom]
  induction keys generalizing t with
  | nil => simp
  | cons k' keys ih =>
    rw [List.foldl_cons, ih]
    by_cases hk : k = k'
    · subst hk
      cases f k <;> simp [get?_upsert]
    · have hsame : ((f k').elim t fun b => t.upsert k' fun _ => b).get? k = t.get? k := by
        cases f k' <;> simp [get?_upsert, hk]
      simp [hsame, hk]

theorem get?_retain (f : β → Option β) : (t.retain f).get? k = (t.get? k).bind f := by
  show (t.rows.filterMap fun r => (f r.2).map (r.1, ·)).lookup k = (t.rows.lookup k).bind f
  generalize hrows : t.rows = rows
  have hnodup : (rows.map Prod.fst).Nodup := hrows ▸ t.nodup
  clear hrows
  induction rows with
  | nil => rfl
  | cons r rows ih =>
    rw [List.map_cons, List.nodup_cons] at hnodup
    rw [List.filterMap_cons, lookup_cons_eq r rows]
    have hrest := ih hnodup.2
    by_cases hk : k = r.1
    · rw [if_pos hk, Option.bind_some]
      cases hf : f r.2 with
      | some b => rw [Option.map_some, lookup_cons_eq, if_pos hk]
      | none =>
        -- the key is nowhere else
        rw [Option.map_none]
        dsimp only
        rw [hrest, List.lookup_eq_none_iff.mpr, Option.bind_none]
        intro p hmem
        rw [bne_iff_ne]
        intro heq
        exact hnodup.1 (hk ▸ heq ▸ List.mem_map_of_mem hmem)
    · rw [if_neg hk]
      cases f r.2 with
      | some b =>
        rw [Option.map_some]
        dsimp only
        rw [lookup_cons_eq, if_neg hk, hrest]
      | none => exact hrest

theorem get?_insertFrom (keys : List κ) (f : κ → Option β) :
    (t.insertFrom keys f).get? k = (t.get? k).or (if k ∈ keys then f k else none) := by
  rw [insertFrom]
  induction keys generalizing t with
  | nil => simp
  | cons k' keys ih =>
    rw [List.foldl_cons, ih]
    by_cases hk : k = k'
    · subst hk
      cases f k <;> cases ht : t.get? k <;> simp [get?_upsert, ht]
    · have hsame : ((f k').elim t fun b => t.upsert k' fun old => old.getD b).get? k =
          t.get? k := by
        cases f k' <;> simp [get?_upsert, hk]
      simp [hsame, hk]

/-- `DELETE` leaves a row whose condition fails. -/
theorem get?_delete_where (p : κ → β → Bool) :
    (t.delete p).get? k = (t.get? k).filter fun b => !p k b := by
  show (t.rows.filter fun r => !p r.1 r.2).lookup k = (t.rows.lookup k).filter fun b => !p k b
  generalize hrows : t.rows = rows
  have hnodup : (rows.map Prod.fst).Nodup := hrows ▸ t.nodup
  clear hrows
  induction rows with
  | nil => rfl
  | cons r rows ih =>
    rw [List.map_cons, List.nodup_cons] at hnodup
    have hrest := ih hnodup.2
    rw [lookup_cons_eq r rows]
    by_cases hk : k = r.1
    · subst hk
      rw [if_pos rfl]
      by_cases hp : p r.1 r.2
      · -- the key is nowhere else
        rw [List.filter_cons_of_neg (by simp [hp]), List.lookup_eq_none_iff.mpr]
        · simp [Option.filter, hp]
        · intro r' hmem
          rw [bne_iff_ne]
          intro heq
          exact hnodup.1 (heq ▸ List.mem_map_of_mem (List.mem_of_mem_filter hmem))
      · rw [List.filter_cons_of_pos (by simp [hp]), lookup_cons_eq, if_pos rfl]
        simp [Option.filter, hp]
    · rw [if_neg hk, ← hrest]
      by_cases hp : p r.1 r.2
      · rw [List.filter_cons_of_neg (by simp [hp])]
      · rw [List.filter_cons_of_pos (by simp [hp]), lookup_cons_eq, if_neg hk]

/-- Deleting by key. -/
theorem get?_delete (p : κ → Bool) :
    (t.delete fun k _ => p k).get? k = if p k then none else t.get? k := by
  rw [get?_delete_where]
  cases t.get? k <;> cases p k <;> rfl

/-- The keys are those of the rows. -/
theorem isSome_get?_iff : (t.get? k).isSome ↔ k ∈ t.rows.map Prod.fst := by
  show (t.rows.lookup k).isSome ↔ k ∈ t.rows.map Prod.fst
  induction t.rows with
  | nil => simp
  | cons r rows ih =>
    rw [lookup_cons_eq r rows, List.map_cons, List.mem_cons, ← ih]
    by_cases hk : k = r.1 <;> simp [hk]

/-- A row is found under its key. -/
theorem get?_of_mem {r : κ × β} (h : r ∈ t.rows) : t.get? r.1 = some r.2 := by
  show t.rows.lookup r.1 = some r.2
  generalize hrows : t.rows = rows at h
  have hnodup : (rows.map Prod.fst).Nodup := hrows ▸ t.nodup
  clear hrows
  induction rows with
  | nil => cases h
  | cons r' rows ih =>
    rw [List.map_cons, List.nodup_cons] at hnodup
    rw [lookup_cons_eq r' rows]
    rcases List.mem_cons.mp h with rfl | hmem
    · rw [if_pos rfl]
    · rw [if_neg, ih hmem hnodup.2]
      intro heq
      exact hnodup.1 (heq ▸ List.mem_map_of_mem hmem)

/-- A query by key sees an `upsert` of a key it asks for, and no other. -/
theorem filter_upsert (f : Option β → β) (q : κ → Bool) :
    (t.upsert k f).rows.filter (fun r => q r.1) =
      if q k then upsertRows k f (t.rows.filter fun r => q r.1) else
        t.rows.filter fun r => q r.1 := by
  show (upsertRows k f t.rows).filter (fun r => q r.1) = _
  induction t.rows with
  | nil => by_cases hk : q k <;> simp [upsertRows, hk]
  | cons r rows ih =>
    by_cases hr : r.1 = k
    · by_cases hk : q k <;> simp [upsertRows, hr, hk]
    · rw [upsertRows, if_neg hr, List.filter_cons, List.filter_cons, ih]
      by_cases hq : q r.1
      · by_cases hk : q k <;> simp [upsertRows, hk, hq, hr]
      · rw [if_neg hq, if_neg hq]

omit [DecidableEq κ] in
/-- Deleting again what is gone. -/
theorem delete_delete (p : κ → β → Bool) : (t.delete p).delete p = t.delete p := by
  ext1
  simp [delete]

omit [DecidableEq κ] in
/-- A deletion that finds nothing. -/
theorem delete_eq_self_iff {p : κ → β → Bool} :
    t.delete p = t ↔ ∀ r ∈ t.rows, p r.1 r.2 = false := by
  refine ⟨fun h r hr => ?_, fun h => ?_⟩
  · rw [← h] at hr
    have hkept := (List.mem_filter.mp hr).2
    cases hp : p r.1 r.2 with
    | false => rfl
    | true => simp [hp] at hkept
  · ext1
    refine List.filter_eq_self.mpr fun r hr => ?_
    simp [h r hr]

/-- It still finds nothing after an `upsert` of a row that it is not about. -/
theorem delete_upsert {p : κ → β → Bool} {f : Option β → β} (h : t.delete p = t)
    (hnew : ∀ old, p k (f old) = false) : (t.upsert k f).delete p = t.upsert k f := by
  rw [delete_eq_self_iff] at h ⊢
  intro r hr
  rcases mem_upsertRows hr with ⟨old, rfl⟩ | hr
  · exact hnew old
  · exact h r hr

end Keyed

end Lib

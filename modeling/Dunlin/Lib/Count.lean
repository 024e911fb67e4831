import Mathlib.Algebra.BigOperators.Group.List.Basic
import Mathlib.Algebra.GroupWithZero.Nat
import Mathlib.Data.List.Nodup

/-!
# Counting in lists

How `List.countP` changes when one element is replaced, how many elements of a kind a list ends
with, and how the counts of the groups of a list add up.

A `countP` over the rows of a table is what most invariants about counters speak of, and a step of a
program replaces one row or adds one. So the lemmas here are about one element at a time.

## Main results

* `countP_set_add` — replacing an element, as an equation between sums, so that no case is needed
* `countP_le_add`, `countP_eq_add` — counts that differ in one element
* `trailing_append_singleton` — what one more element does to the elements a list ends with
* `sum_countP` — the counts for different keys add up
-/

namespace Lib

variable {α κ : Type} {p q t : α → Bool} {l : List α}

/-! ### Replacing an element -/

/-- Replacing one element of a list moves it from one count to another. -/
theorem countP_set_add (p : α → Bool) {i : ℕ} {x : α} (h : l[i]? = some x) (y : α) :
    (l.set i y).countP p + (if p x then 1 else 0) = l.countP p + if p y then 1 else 0 := by
  obtain ⟨hi, rfl⟩ := List.getElem?_eq_some_iff.mp h
  have hle : (if p l[i] = true then 1 else 0) ≤ l.countP p := by
    split
    · exact List.countP_pos_iff.mpr ⟨l[i], List.getElem_mem hi, ‹_›⟩
    · exact Nat.zero_le _
  rw [List.countP_set hi]
  omega

theorem mem_of_mem_set {i : ℕ} {x y z : α} (h : l[i]? = some x) (hz : z ∈ l) :
    z = x ∨ z ∈ l.set i y := by
  obtain ⟨j, hj⟩ := List.mem_iff_getElem?.mp hz
  by_cases hij : i = j
  · subst hij
    exact .inl (Option.some.inj (hj.symm.trans h))
  · exact .inr (List.mem_iff_getElem?.mpr ⟨j, by rw [List.getElem?_set_ne hij, hj]⟩)

/-! ### One thing or the other -/

/-- Counting what is one thing or the other. -/
theorem countP_le_add (h : ∀ x ∈ l, p x = true → q x = true ∨ t x = true) :
    l.countP p ≤ l.countP q + l.countP t := by
  induction l with
  | nil => exact Nat.zero_le _
  | cons x l ih =>
    have hrest := ih fun y hy => h y (List.mem_cons_of_mem _ hy)
    have hx := h x List.mem_cons_self
    simp only [List.countP_cons]
    split
    · rcases hx ‹_› with hq | ht
      · rw [if_pos hq]
        omega
      · rw [if_pos ht]
        omega
    · omega

/-- Counting what is exactly one thing or the other. -/
theorem countP_eq_add (h : ∀ x ∈ l, p x = (q x ^^ t x)) (hqt : ∀ x ∈ l, (q x && t x) = false) :
    l.countP p = l.countP q + l.countP t := by
  induction l with
  | nil => rfl
  | cons x l ih =>
    have hrest := ih (fun y hy => h y (List.mem_cons_of_mem _ hy)) fun y hy =>
      hqt y (List.mem_cons_of_mem _ hy)
    have hx := h x List.mem_cons_self
    have hxqt := hqt x List.mem_cons_self
    simp only [List.countP_cons, hrest, hx]
    cases hq : q x <;> cases ht : t x <;> simp_all <;> omega

/-! ### The end of a list -/

/-- How many elements with `p` the list ends with. -/
def trailing (p : α → Bool) (l : List α) : ℕ := (l.reverse.takeWhile p).length

@[simp] theorem trailing_nil (p : α → Bool) : trailing p [] = 0 := rfl

@[simp] theorem trailing_append_singleton (p : α → Bool) (l : List α) (x : α) :
    trailing p (l ++ [x]) = if p x then trailing p l + 1 else 0 := by
  rw [trailing, List.reverse_append, List.reverse_singleton, List.singleton_append,
    List.takeWhile_cons]
  split <;> rfl

/-! ### Groups -/

/-- **The groups of different keys add up** to what has one of the keys. -/
theorem sum_countP [DecidableEq κ] (f : α → κ) (q : α → Bool) {keys : List κ} (h : keys.Nodup) :
    (keys.map fun k => l.countP fun x => f x == k && q x).sum =
      l.countP fun x => decide (f x ∈ keys) && q x := by
  induction keys with
  | nil => simp
  | cons k keys ih =>
    rw [List.nodup_cons] at h
    rw [List.map_cons, List.sum_cons, ih h.2]
    refine (countP_eq_add (fun x _ => ?_) fun x _ => ?_).symm
    · by_cases hk : f x = k
      · simp [hk, h.1]
      · simp [hk, beq_eq_false_iff_ne.mpr hk]
    · by_cases hk : f x = k
      · simp [hk, h.1]
      · simp [beq_eq_false_iff_ne.mpr hk]

end Lib

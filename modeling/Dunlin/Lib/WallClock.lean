import Mathlib.Algebra.Order.Group.Int
import Mathlib.Data.Int.LeastGreatest
import Mathlib.Order.Bounds.Basic

/-!
# Clocks that are put forward and back

A wall clock shows `wall t` at the instant `t`. It runs on by one each tick, except where it is put
forward, which leaves a *gap* of times it never shows on the way, or back, which leaves a *fold* of
times it shows again.

When no time is in two gaps or folds (`Apart`), a time in a gap is never shown at all, and the clock
resumes at the gap's end with a time it shows there first. Both follow from `exists_gap` and
`exists_fold`: between two instants the clock cannot pass a time without showing it or having a gap
or a fold there.

`probe` is the search for such a time in equal steps.

## Main results

* `exists_gap`, `exists_fold` — a time that is passed is shown, or in a gap or fold on the way
* `Apart.not_shown` — a time in a gap is never shown
* `Apart.not_shown_end` — and neither is any before the gap's end
* `probe_eq_some` — what a search in equal steps finds
-/

namespace Lib

namespace WallClock

variable {wall : ℤ → ℤ} {a b t u v w : ℤ}

/-- The clock, put forward at `t`, passes over `w`. -/
def Gap (wall : ℤ → ℤ) (t w : ℤ) : Prop := wall (t - 1) < w ∧ w < wall t

/-- The clock, put back at `t`, goes back over `w`. -/
def Fold (wall : ℤ → ℤ) (t w : ℤ) : Prop := wall t ≤ w ∧ w ≤ wall (t - 1)

/-- No time is in two gaps or folds. -/
def Apart (wall : ℤ → ℤ) : Prop :=
  ∀ t t' w, Gap wall t w ∨ Fold wall t w → Gap wall t' w ∨ Fold wall t' w → t = t'

/-- Between an instant that shows less than `v` and one that does not, the clock reaches `v`. -/
theorem exists_reach (hab : a ≤ b) (ha : wall a < v) (hb : v ≤ wall b) :
    ∃ t, a < t ∧ t ≤ b ∧ wall (t - 1) < v ∧ v ≤ wall t := by
  have hbound : ∀ t, a < t ∧ v ≤ wall t → a ≤ t := fun t ht => ht.1.le
  have hex : a < b ∧ v ≤ wall b := by
    refine ⟨lt_of_le_of_ne hab fun heq => ?_, hb⟩
    rw [heq] at ha
    omega
  obtain ⟨t, ⟨hat, ht⟩, hleast⟩ := Int.exists_least_of_bdd ⟨a, hbound⟩ ⟨b, hex⟩
  refine ⟨t, hat, hleast b hex, ?_, ht⟩
  by_contra hge
  by_cases hstart : t - 1 = a
  · rw [hstart] at hge
    omega
  · have hle := hleast (t - 1) ⟨by omega, by omega⟩
    omega

/-- A time that is never shown is in a gap. -/
theorem exists_gap (hab : a ≤ b) (ha : wall a < w) (hb : w < wall b) (hnone : ∀ t, wall t ≠ w) :
    ∃ t, Gap wall t w := by
  obtain ⟨t, -, -, hbefore, hafter⟩ := exists_reach hab ha hb.le
  exact ⟨t, hbefore, lt_of_le_of_ne hafter (hnone t).symm⟩

/-- A clock that goes down past `v` is put back there. -/
theorem exists_fold (hab : a ≤ b) (ha : v ≤ wall a) (hb : wall b ≤ v) (hne : wall b ≠ wall a) :
    ∃ t, a < t ∧ t ≤ b ∧ Fold wall t v := by
  by_cases hlt : wall b < v
  · obtain ⟨t, hat, htb, hbefore, hafter⟩ :=
      @exists_reach (fun t => -wall t) a b (1 - v) hab (by omega) (by omega)
    exact ⟨t, hat, htb, by omega, by omega⟩
  · obtain ⟨t, hat, htb, hbefore, hafter⟩ :=
      @exists_reach (fun t => -wall t) a b (-v) hab (by omega) (by omega)
    exact ⟨t, hat, htb, by omega, by omega⟩

section Apart

variable (h : Apart wall) (hw : Gap wall t w)
include h hw

/-- A time in a gap is never shown. -/
theorem Apart.not_shown : wall u ≠ w := by
  intro hu
  obtain ⟨hbefore, hafter⟩ := hw
  rcases lt_or_ge u t with hlt | hge
  · obtain ⟨t', hut, htt, hfold⟩ :=
      @exists_fold wall u (t - 1) w (by omega) hu.ge hbefore.le (by omega)
    have heq := h t t' w (.inl ⟨hbefore, hafter⟩) (.inr hfold)
    omega
  · obtain ⟨t', htt, htu, hfold⟩ := exists_fold hge hafter.le hu.le (by omega)
    have heq := h t t' w (.inl ⟨hbefore, hafter⟩) (.inr hfold)
    omega

/-- What the clock shows at the end of a gap it has not shown before. -/
theorem Apart.not_shown_end (hu : u < t) : wall u ≠ wall t := by
  intro heq
  obtain ⟨hbefore, hafter⟩ := hw
  have hlast : Gap wall t (wall t - 1) := ⟨by omega, by omega⟩
  obtain ⟨t', hut, htt, hfold⟩ :=
    @exists_fold wall u (t - 1) (wall t - 1) (by omega) (by omega) (by omega) (by omega)
  have hsame := h t t' (wall t - 1) (.inl hlast) (.inr hfold)
  omega

end Apart

end WallClock

/-! ### Searching in equal steps -/

variable {β : Type}

/-- The first value that `f` has at `n` steps after `t`. -/
def probe (f : ℤ → Option β) (step : ℤ) : ℕ → ℤ → Option β
  | 0, _ => none
  | n + 1, t =>
    match f (t + step) with
    | some b => some b
    | none => probe f step n (t + step)

/-- A search stops where it first finds something. -/
theorem probe_eq_some {f : ℤ → Option β} {step t : ℤ} {n k : ℕ} {b : β} (hk : 0 < k) (hkn : k ≤ n)
    (hbefore : ∀ j : ℕ, 0 < j → j < k → f (t + step * j) = none)
    (hfound : f (t + step * k) = some b) : probe f step n t = some b := by
  induction n generalizing k t with
  | zero => omega
  | succ n ih =>
    rw [probe]
    by_cases hone : k = 1
    · subst hone
      have hnow : f (t + step) = some b := by simpa using hfound
      rw [hnow]
    · have hnow : f (t + step) = none := by simpa using hbefore 1 Nat.one_pos (by omega)
      rw [hnow]
      have hshift : ∀ j : ℕ, t + step + step * j = t + step * ((j + 1 : ℕ) : ℤ) := by
        intro j
        rw [Nat.cast_succ, mul_add, mul_one, add_assoc, add_comm step]
      refine ih (k := k - 1) (by omega) (by omega) (fun j hj hjk => ?_) ?_
      · rw [hshift]
        exact hbefore (j + 1) (by omega) (by omega)
      · rw [hshift, Nat.sub_add_cancel hk]
        exact hfound

end Lib

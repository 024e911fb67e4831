import Mathlib.Algebra.Order.Group.Int
import Mathlib.Order.ConditionallyCompleteLattice.Basic
import Mathlib.Order.GaloisConnection.Defs
import Mathlib.Data.Int.ConditionallyCompleteOrder

/-!
# Calendars

A calendar gives every instant a date, later instants no earlier dates. So the instants of a date
are an interval, from the first instant of the date to the first of the next one; it is empty when
the calendar skips the date.

`first` is the lower adjoint of `date`, which is where its properties come from.

Dates are integers, as if counted from some first date; nothing is assumed of how long a date lasts.

## Main results

* `gc` — the Galois connection between the two
* `date_eq_iff` — the instants of a date are those from its first to that of the next date
* `first_mono` — the firsts are in the order of the dates
-/

namespace Lib

/-- Dates for instants, in order, with no first and no last date. -/
structure Calendar where
  date : ℤ → ℤ
  mono : Monotone date
  early : ∀ d, ∃ t, date t < d
  late : ∀ d, ∃ t, d ≤ date t

namespace Calendar

variable (c : Calendar) {d d' t : ℤ}

/-- The first instant of a date, or of the next date there is. -/
noncomputable def first (d : ℤ) : ℤ := sInf {t | d ≤ c.date t}

theorem bddBelow_since (d : ℤ) : BddBelow {t | d ≤ c.date t} := by
  obtain ⟨t₀, h₀⟩ := c.early d
  refine ⟨t₀, fun t ht => ?_⟩
  by_contra hlt
  have hle := c.mono (show t ≤ t₀ by omega)
  have hd : d ≤ c.date t := ht
  omega

/-- **The first instant of a date is the lower adjoint of the date of an instant.** -/
theorem gc : GaloisConnection c.first c.date := by
  intro d t
  constructor
  · intro hle
    have hfirst : d ≤ c.date (c.first d) := Int.csInf_mem (c.late d) (c.bddBelow_since d)
    exact hfirst.trans (c.mono hle)
  · intro hd
    exact csInf_le (c.bddBelow_since d) hd

theorem first_le_iff : c.first d ≤ t ↔ d ≤ c.date t := c.gc d t

theorem lt_first_iff : t < c.first d ↔ c.date t < d := by
  rw [← not_le, ← not_le, first_le_iff]

theorem le_date_first (d : ℤ) : d ≤ c.date (c.first d) := c.gc.le_u_l d

theorem first_mono (h : d ≤ d') : c.first d ≤ c.first d' := c.gc.monotone_l h

/-- **A date is an interval.** -/
theorem date_eq_iff : c.date t = d ↔ c.first d ≤ t ∧ t < c.first (d + 1) := by
  rw [first_le_iff, lt_first_iff]
  omega

end Calendar

end Lib

import Dunlin.Days
import Dunlin.Maintenance

/-!
# Local times

The model of `local_to_ts` in `days.rs`, which finds the instant that a local date and time names,
and of `parse_local_start` in `web.rs`, which reads such a time from the maintenance form.

Here a timezone (`Zone`) is any offset from UTC at every instant. The assumptions are about its
transitions: they fall on whole minutes, and no wall time is in two gaps or folds. Then a wall time
that is not shown lies in one gap, every minute up to the gap's end lies in it too, and the walk
over the minutes stops at the end of the gap, which the clock shows there for the first time.

## Main results

* `isLeast_earliest` — of the instants that show a time, the earliest is taken
* `localToTs_gap` — a time that is not shown names the end of its gap
* `local_names` — both, for every zone with the assumptions
* `earliest_zone` — the zones of `Days` are among them
-/

namespace Dunlin

open Lib

/-- `chrono_tz::Tz` with any offsets `FixedOffset` can have. -/
structure Zone where
  offset : ℤ → ℤ
  bounded : ∀ ts, -86400 < offset ts ∧ offset ts < 86400

/-- `NaiveDateTime`: seconds since the epoch on a clock at UTC, and the fraction. -/
structure NaiveDateTime where
  secs : ℤ
  nanos : ℕ
  deriving DecidableEq, Repr

/-- `.with_second(0)` and `.with_nanosecond(0)`. -/
def NaiveDateTime.minute (t : NaiveDateTime) : NaiveDateTime := ⟨t.secs / 60 * 60, 0⟩

/-- `t += TimeDelta::seconds(secs)`. -/
def NaiveDateTime.add (t : NaiveDateTime) (secs : ℤ) : NaiveDateTime := ⟨t.secs + secs, t.nanos⟩

namespace Zone

variable (z : Zone)

/-- The wall time at an instant. -/
def wall (ts : ℤ) : ℤ := ts + z.offset ts

/-- The `n` instants from `start` on. -/
def instantsFrom (start : ℤ) (n : ℕ) : List ℤ := (List.range n).map fun k : ℕ => start + k

/-- The instants that show a wall time, in order. -/
@[irreducible] def instants (wall : ℤ) : List ℤ :=
  (instantsFrom (wall - 86399) 172799).filter fun ts => z.wall ts == wall

/-- `from_local_datetime`: what it returns shows the wall time to the second. -/
def fromLocalDatetime (t : NaiveDateTime) : LocalResult := .ofInstants (z.instants t.secs)

def earliest (t : NaiveDateTime) : Option ℤ := (z.fromLocalDatetime t).earliest

/-- The walk of `local_to_ts`: the next minutes, one by one. -/
def walkMinutes (n : ℕ) (t : NaiveDateTime) : Option ℤ :=
  probe (fun secs => z.earliest ⟨secs, t.nanos⟩) 60 n t.secs

/-- The instant a wall-clock time names. -/
def localToTs (t : NaiveDateTime) : ℤ :=
  match z.earliest t with
  | some ts => ts
  | none => (z.walkMinutes (2 * 1440) t.minute).getD t.secs

/-- The formats of a `datetime-local` value. -/
def localFormats : List String := ["%Y-%m-%dT%H:%M", "%Y-%m-%dT%H:%M:%S", "%Y-%m-%dT%H:%M:%S%.f"]

/-- Read a `datetime-local` value as wall time; chrono's parser is a parameter. -/
def parseLocalStart (parseFromStr : String → String → Option NaiveDateTime) (value : String) :
    Option ℤ :=
  (localFormats.findSome? (parseFromStr (trim value))).map z.localToTs

/-- Transitions fall on whole minutes, of UTC and of the wall times before and after. -/
def WholeMinutes : Prop :=
  ∀ t, z.offset t ≠ z.offset (t - 1) →
    60 ∣ t ∧ 60 ∣ t + z.offset (t - 1) ∧ 60 ∣ t + z.offset t

/-- No wall time is in two gaps or folds. -/
def Apart : Prop := WallClock.Apart z.wall

end Zone

/-- The zones of the calendar days are zones. -/
def Tz.zone (tz : Tz) : Zone := ⟨tz.offset, tz.bounded⟩

/-! ### Instants of a wall time -/

namespace Zone

variable {z : Zone} {w ts t : ℤ} {nanos : ℕ}

theorem mem_instantsFrom {start : ℤ} {n : ℕ} :
    ts ∈ instantsFrom start n ↔ start ≤ ts ∧ ts < start + n := by
  rw [instantsFrom, List.mem_map]
  constructor
  · rintro ⟨k, hk, rfl⟩
    have hlt := List.mem_range.mp hk
    omega
  · rintro ⟨hle, hlt⟩
    refine ⟨(ts - start).toNat, List.mem_range.mpr ?_, ?_⟩
    · omega
    · omega

theorem sorted_instantsFrom (start : ℤ) (n : ℕ) : (instantsFrom start n).Pairwise (· < ·) := by
  refine List.pairwise_map.mpr (List.pairwise_lt_range.imp fun {a b} h => ?_)
  omega

theorem mem_instants : ts ∈ z.instants w ↔ z.wall ts = w := by
  unfold instants
  rw [List.mem_filter, beq_iff_eq, and_iff_right_iff_imp]
  intro hwall
  have hbounded := z.bounded ts
  unfold wall at hwall
  have hstart : w - 86399 ≤ ts := by omega
  have hend : ts < w - 86399 + 172799 := by omega
  exact mem_instantsFrom.mpr ⟨hstart, hend⟩

theorem sorted_instants (z : Zone) (w : ℤ) : (z.instants w).Pairwise (· < ·) := by
  unfold instants
  exact (sorted_instantsFrom _ _).filter _

theorem earliest_eq_head? (z : Zone) (t : NaiveDateTime) :
    z.earliest t = (z.instants t.secs).head? :=
  LocalResult.earliest_ofInstants (z.sorted_instants t.secs)

theorem earliest_eq_none_iff {t : NaiveDateTime} :
    z.earliest t = none ↔ ∀ ts, z.wall ts ≠ t.secs := by
  rw [earliest_eq_head?, List.head?_eq_none_iff, List.eq_nil_iff_forall_not_mem]
  exact forall_congr' fun ts => mem_instants.not

theorem earliest_eq_some {t : NaiveDateTime} (h : z.wall ts = t.secs)
    (hbefore : ∀ u < ts, z.wall u ≠ t.secs) : z.earliest t = some ts := by
  rw [earliest_eq_head?]
  refine (head?_eq_some_iff_least (z.sorted_instants _)).mpr ⟨mem_instants.mpr h, ?_⟩
  exact fun u hu => not_lt.mp fun hlt => hbefore u hlt (mem_instants.mp hu)

/-- What `earliest` finds is the earliest instant. -/
theorem isLeast_earliest {t : NaiveDateTime} (h : z.earliest t = some ts) :
    IsLeast {ts | z.wall ts = t.secs} ts := by
  rw [earliest_eq_head?] at h
  obtain ⟨hmem, hleast⟩ := (head?_eq_some_iff_least (z.sorted_instants _)).mp h
  exact ⟨mem_instants.mp hmem, fun u hu => hleast u (mem_instants.mpr hu)⟩

/-- On the zones of the calendar days it is the `earliest` that these use. -/
theorem earliest_zone (tz : Tz) (t : NaiveDateTime) :
    tz.zone.earliest t = Dunlin.earliest tz t.secs := by
  have hsame : tz.zone.instants t.secs = tz.instants t.secs := by
    refine List.Pairwise.eq_of_mem_iff (sorted_instants _ _) (tz.sorted_instants _) fun ts => ?_
    rw [mem_instants, Tz.mem_instants]
    rfl
  rw [earliest_eq_head?, hsame, Dunlin.earliest_eq_head?]

/-! ### Gaps -/

/-- A wall time that is not shown is in a gap. -/
theorem exists_gap (z : Zone) (hnone : ∀ ts, z.wall ts ≠ w) : ∃ t, WallClock.Gap z.wall t w := by
  have hearly := z.bounded (w - 86400)
  have hlate := z.bounded (w + 86400)
  have hab : w - 86400 ≤ w + 86400 := by omega
  refine WallClock.exists_gap hab ?_ ?_ hnone
  · rw [wall]
    omega
  · rw [wall]
    omega

/-- A gap begins and ends on a whole minute. -/
theorem WholeMinutes.gap (h : z.WholeMinutes) (hgap : WallClock.Gap z.wall t w) :
    60 ∣ z.wall (t - 1) + 1 ∧ 60 ∣ z.wall t := by
  unfold WallClock.Gap wall at *
  obtain ⟨-, hbefore, hafter⟩ := h t (by omega)
  exact ⟨by rwa [show t - 1 + z.offset (t - 1) + 1 = t + z.offset (t - 1) by omega], hafter⟩

/-- No gap is longer than the walk. -/
theorem gap_lt (z : Zone) (t : ℤ) : z.wall t < z.wall (t - 1) + 1 + 2 * 86400 := by
  have hafter := z.bounded t
  have hbefore := z.bounded (t - 1)
  unfold wall
  omega

/-- The walk from a minute in a gap stops at the end of the gap. -/
theorem walkMinutes_gap (hminutes : z.WholeMinutes) (hapart : z.Apart)
    (hgap : WallClock.Gap z.wall t w) :
    z.walkMinutes (2 * 1440) (NaiveDateTime.minute ⟨w, nanos⟩) = some t := by
  obtain ⟨hstart, hend⟩ := hminutes.gap hgap
  have hlen := z.gap_lt t
  have hend' : z.earliest ⟨z.wall t, 0⟩ = some t :=
    earliest_eq_some rfl fun u hu => hapart.not_shown_end hgap hu
  have hinside : ∀ v, w / 60 * 60 ≤ v → v < z.wall t → z.earliest ⟨v, 0⟩ = none := by
    intro v hv hvt
    have hv' : WallClock.Gap z.wall t v := by
      obtain ⟨hbefore, -⟩ := hgap
      exact ⟨by omega, hvt⟩
    exact earliest_eq_none_iff.mpr fun u => hapart.not_shown hv'
  obtain ⟨k, hk⟩ : ∃ k : ℕ, z.wall t = w / 60 * 60 + 60 * k := by
    refine ⟨((z.wall t - w / 60 * 60) / 60).toNat, ?_⟩
    obtain ⟨-, hafter⟩ := hgap
    omega
  obtain ⟨hbefore, hafter⟩ := hgap
  refine probe_eq_some (k := k) (by omega) (by omega) (fun j _ hj => ?_) ?_
  · show z.earliest ⟨w / 60 * 60 + 60 * j, 0⟩ = none
    exact hinside _ (by omega) (by omega)
  · show z.earliest ⟨w / 60 * 60 + 60 * k, 0⟩ = some t
    rw [← hk]
    exact hend'

/-- A wall time in a gap names the instant of the transition. -/
theorem localToTs_gap (hminutes : z.WholeMinutes) (hapart : z.Apart)
    (hgap : WallClock.Gap z.wall t w) : z.localToTs ⟨w, nanos⟩ = t := by
  have hnone : z.earliest ⟨w, nanos⟩ = none :=
    earliest_eq_none_iff.mpr fun u => hapart.not_shown hgap
  rw [localToTs, hnone]
  dsimp only
  rw [walkMinutes_gap hminutes hapart hgap, Option.getD_some]

/-- A wall time that is shown names the earliest instant that shows it. -/
theorem isLeast_localToTs (t : NaiveDateTime) (h : ∃ ts, z.wall ts = t.secs) :
    IsLeast {ts | z.wall ts = t.secs} (z.localToTs t) := by
  cases hearliest : z.earliest t with
  | none =>
    obtain ⟨ts, hts⟩ := h
    exact absurd hts (earliest_eq_none_iff.mp hearliest ts)
  | some ts =>
    rw [localToTs, hearliest]
    exact isLeast_earliest hearliest

end Zone

/-- **A local time names the right instant**, in a zone whose transitions are on whole minutes and
apart: the earliest one that shows it, or that of the one transition whose gap it is in. So a start
read from the form that is in a gap is at the end of the gap. -/
theorem local_names (z : Zone) (hminutes : z.WholeMinutes) (hapart : z.Apart) :
    (∀ t : NaiveDateTime,
      ((∃ ts, z.wall ts = t.secs) → IsLeast {ts | z.wall ts = t.secs} (z.localToTs t)) ∧
      ((¬∃ ts, z.wall ts = t.secs) →
        WallClock.Gap z.wall (z.localToTs t) t.secs ∧
        ∀ u, WallClock.Gap z.wall u t.secs → u = z.localToTs t)) ∧
    ∀ parseFromStr value start, z.parseLocalStart parseFromStr value = some start →
      ∃ f ∈ Zone.localFormats, ∃ t, parseFromStr (trim value) f = some t ∧
        ((∃ ts, z.wall ts = t.secs) → IsLeast {ts | z.wall ts = t.secs} start) ∧
        ∀ u, WallClock.Gap z.wall u t.secs → start = u := by
  refine ⟨fun t => ⟨Zone.isLeast_localToTs t, fun hnone => ?_⟩, fun parse value start h => ?_⟩
  · obtain ⟨u, hu⟩ := z.exists_gap fun ts hts => hnone ⟨ts, hts⟩
    have hnames : ∀ u, WallClock.Gap z.wall u t.secs → u = z.localToTs t := fun u hu =>
      (Zone.localToTs_gap hminutes hapart hu).symm
    exact ⟨hnames u hu ▸ hu, hnames⟩
  · obtain ⟨t, ht, rfl⟩ := Option.map_eq_some_iff.mp h
    obtain ⟨f, hf, hparsed⟩ := List.exists_of_findSome?_eq_some ht
    exact ⟨f, hf, t, hparsed, Zone.isLeast_localToTs t, fun u hu =>
      Zone.localToTs_gap hminutes hapart hu⟩

theorem oneHour_bounded (ts : ℤ) :
    -86400 < (if ts < 3600 then (0 : ℤ) else 3600) ∧
      (if ts < 3600 then (0 : ℤ) else 3600) < 86400 := by
  split
  · decide
  · decide

/-- Clocks go from one o'clock to two o'clock, once. -/
def oneHour : Zone where
  offset ts := if ts < 3600 then 0 else 3600
  bounded := oneHour_bounded

theorem jump_oneHour {t w : ℤ}
    (h : WallClock.Gap oneHour.wall t w ∨ WallClock.Fold oneHour.wall t w) : t = 3600 := by
  unfold WallClock.Gap WallClock.Fold Zone.wall oneHour at h
  dsimp only at h
  split at h <;> split at h <;> omega

theorem local_names_oneHour : oneHour.localToTs ⟨5417, 500000000⟩ = 3600 := by
  have hminutes : oneHour.WholeMinutes := by
    intro t ht
    unfold oneHour at *
    dsimp only at *
    split at ht <;> split at ht <;> split_ifs <;> omega
  have hapart : oneHour.Apart := fun t t' w h h' => (jump_oneHour h).trans (jump_oneHour h').symm
  have hgap : WallClock.Gap oneHour.wall 3600 5417 := by
    rw [WallClock.Gap]
    decide
  have hnone : ¬∃ ts, oneHour.wall ts = 5417 := fun h => hapart.not_shown hgap h.choose_spec
  have hnames := ((local_names oneHour hminutes hapart).1 ⟨5417, 500000000⟩).2 hnone
  exact (hnames.2 3600 hgap).symm

end Dunlin

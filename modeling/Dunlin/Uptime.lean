import Dunlin.Days
import Dunlin.Lib.Count
import Dunlin.Lib.Keyed
import Mathlib.Algebra.BigOperators.Ring.Finset
import Mathlib.Data.List.Dedup
import Mathlib.Data.Rat.Defs

/-!
# Uptime bars

The model of `uptime_slots` in `db.rs`, `uptime_bars` in `status.rs` and the part of `component_now`
in `web.rs` that works out the 90-day figure. Probe results are counted by quarter hour in SQL, the
quarter hours are put together by local date, and the days on the strip are intervals between local
midnights. `bars_conserve` is that the three agree.

Percentages are exact rationals.

The three count in different ways: a slot by quarter hour of the clock, a bar by the date of the
slot's start, the figure from the first midnight on. A quarter hour has one date when the changes of
the clocks are on the grid of quarter hours, which is where the zone comes in.

## Scope

A result without a day on the strip, because it is later than today or because the zone has gone
back over midnight (`lost_probe`), is counted by no bar; `bars_conserve` says what is.

## Main results

* `barPair_day` — a bar counts the results of its day
* `sum_bars` — the bars add up to the figure
* `bars_conserve` — both together, in every zone that goes forward
-/

namespace Dunlin

open Lib

/-- A row of `check_results`, as far as uptime reads it. -/
structure CheckResult where
  ts : ℤ
  checkId : String
  ok : Bool
  deriving DecidableEq, Repr

/-- A row `(slot_start, total, up)`. -/
structure Slot where
  slot : ℤ
  total : ℤ
  up : ℤ
  deriving DecidableEq, Repr

/-- `(ts / 900) * 900`: integer division truncates. -/
def slotOf (ts : ℤ) : ℤ := ts.tdiv slotSecs * slotSecs

/-- The results of a check from `since` on. -/
def resultsSince (results : List CheckResult) (checkId : String) (since : ℤ) : List CheckResult :=
  results.filter fun r => r.checkId == checkId && since ≤ r.ts

/-- Uptime per slot for a check. -/
def uptimeSlots (results : List CheckResult) (checkId : String) (since : ℤ) : List Slot :=
  let rows := resultsSince results checkId since
  ((rows.map fun r => slotOf r.ts).dedup.mergeSort (· ≤ ·)).map fun s =>
    { slot := s
      total := rows.countP fun r => slotOf r.ts == s
      up := rows.countP fun r => slotOf r.ts == s && r.ok }

/-- `up as f64 / total as f64 * 100.0`, when there are probes. -/
def percent (total up : ℤ) : Option ℚ := if total > 0 then some ((up : ℚ) / total * 100) else none

/-- One bar of the uptime strip. -/
structure DayBar where
  day : Day
  uptime : Option ℚ

variable (tz : Tz)

/-- The slots summed by local date. -/
def perDay (slots : List Slot) : Lib.Keyed ℤ (ℤ × ℤ) :=
  slots.foldl (fun m s => m.upsert (dateOf tz s.slot) fun e =>
    ((e.getD (0, 0)).1 + s.total, (e.getD (0, 0)).2 + s.up)) .empty

/-- One bar per day. -/
def uptimeBars (slots : List Slot) (days : List Day) : List DayBar :=
  days.map fun day =>
    { day := day
      uptime := ((perDay tz slots).get? day.date).bind fun (total, up) => percent total up }

/-- The days of the status page's strip. -/
def strip (now : ℤ) : List Day := lastDays tz now stripDays

/-- The first instant on a strip. -/
def stripFrom (days : List Day) (now : ℤ) : ℤ := (days.head?.map (·.start)).getD now

/-- The 90-day figure of `component_now`. -/
def uptime90 (daily : List Slot) : Option ℚ :=
  percent (daily.map (·.total)).sum (daily.map (·.up)).sum

/-- The pair a bar's percentage is computed from. -/
def barPair (slots : List Slot) (day : Day) : ℤ × ℤ := ((perDay tz slots).get? day.date).getD (0, 0)

/-- How many results of a check there are at some times, and how many of them are good. -/
def countResults (results : List CheckResult) (checkId : String) (p : ℤ → Bool) : ℤ × ℤ :=
  (results.countP fun r => r.checkId == checkId && p r.ts,
    results.countP fun r => r.checkId == checkId && p r.ts && r.ok)

/-! ### Slots -/

section Slots

variable {results : List CheckResult} {checkId : String} {since : ℤ}

/-- The starts of the slots that have results. -/
def slotStarts (rows : List CheckResult) : List ℤ :=
  (rows.map fun r => slotOf r.ts).dedup.mergeSort (· ≤ ·)

theorem nodup_slotStarts (rows : List CheckResult) : (slotStarts rows).Nodup :=
  (List.mergeSort_perm _ _).nodup_iff.mpr (List.nodup_dedup _)

theorem mem_slotStarts {rows : List CheckResult} {s : ℤ} :
    s ∈ slotStarts rows ↔ ∃ r ∈ rows, slotOf r.ts = s := by
  rw [slotStarts, (List.mergeSort_perm _ _).mem_iff, List.mem_dedup, List.mem_map]

/-- The slots of some dates add up to the results of the slots of these dates. -/
theorem sum_slots (rows : List CheckResult) (p : ℤ → Bool) (q : CheckResult → Bool) :
    (((slotStarts rows).filter p).map fun s =>
        ((rows.countP fun r => slotOf r.ts == s && q r : ℕ) : ℤ)).sum =
      (rows.countP fun r => p (slotOf r.ts) && q r : ℕ) := by
  have hcount : rows.countP (fun r => p (slotOf r.ts) && q r) =
      rows.countP fun r => decide (slotOf r.ts ∈ (slotStarts rows).filter p) && q r := by
    refine List.countP_congr fun r hr => ?_
    have hmem : slotOf r.ts ∈ slotStarts rows := mem_slotStarts.mpr ⟨r, hr, rfl⟩
    simp [List.mem_filter, hmem]
  rw [hcount, ← sum_countP (fun r => slotOf r.ts) q ((nodup_slotStarts rows).filter p),
    Nat.cast_list_sum,
    List.map_map]
  rfl

theorem perDay_foldl (tz : Tz) (slots : List Slot) (m : Lib.Keyed ℤ (ℤ × ℤ)) (date : ℤ) :
    ((slots.foldl (fun m s => m.upsert (dateOf tz s.slot) fun e =>
      ((e.getD (0, 0)).1 + s.total, (e.getD (0, 0)).2 + s.up)) m).get? date).getD (0, 0) =
      (((m.get? date).getD (0, 0)).1 +
          ((slots.filter fun s => dateOf tz s.slot == date).map (·.total)).sum,
        ((m.get? date).getD (0, 0)).2 +
          ((slots.filter fun s => dateOf tz s.slot == date).map (·.up)).sum) := by
  induction slots generalizing m with
  | nil => simp
  | cons s slots ih =>
    rw [List.foldl_cons, ih, Lib.Keyed.get?_upsert]
    by_cases hdate : dateOf tz s.slot = date
    · rw [if_pos hdate.symm, List.filter_cons_of_pos (by simpa using hdate)]
      simp only [Option.getD_some, List.map_cons, List.sum_cons, hdate, add_assoc]
    · rw [if_neg (Ne.symm hdate), List.filter_cons_of_neg (by simpa using hdate)]

/-- A bar adds up the slots of its date. -/
theorem barPair_eq (tz : Tz) (slots : List Slot) (day : Day) : barPair tz slots day =
    (((slots.filter fun s => dateOf tz s.slot == day.date).map (·.total)).sum,
      ((slots.filter fun s => dateOf tz s.slot == day.date).map (·.up)).sum) := by
  rw [barPair, perDay, perDay_foldl]
  simp

/-- The percentage of a bar comes from its pair. -/
theorem uptimeBars_eq (tz : Tz) (slots : List Slot) (days : List Day) : uptimeBars tz slots days =
    days.map fun day => ⟨day, percent (barPair tz slots day).1 (barPair tz slots day).2⟩ := by
  refine List.map_congr_left fun day _ => ?_
  rw [barPair]
  cases (perDay tz slots).get? day.date with
  | none => rfl
  | some e => rfl

/-- Slots add up to the results they are made of. -/
theorem sum_uptimeSlots (results : List CheckResult) (checkId : String) (since : ℤ)
    (p : ℤ → Bool) :
    (((uptimeSlots results checkId since).filter fun s => p s.slot).map (·.total)).sum =
      ((resultsSince results checkId since).countP fun r => p (slotOf r.ts) : ℕ) ∧
    (((uptimeSlots results checkId since).filter fun s => p s.slot).map (·.up)).sum =
      ((resultsSince results checkId since).countP fun r => p (slotOf r.ts) && r.ok : ℕ) := by
  have htotal := sum_slots (resultsSince results checkId since) p fun _ => true
  have hup := sum_slots (resultsSince results checkId since) p (·.ok)
  simp only [Bool.and_true] at htotal
  unfold uptimeSlots
  dsimp only
  rw [List.filter_map, List.map_map, List.map_map]
  exact ⟨htotal, hup⟩

end Slots

/-! ### The strip -/

section Strip

variable {tz : Tz} {now : ℤ} {n : ℕ}

theorem slotOf_eq {ts : ℤ} (h : 0 ≤ ts) : slotOf ts = ts / slotSecs * slotSecs := by
  rw [slotOf, Int.tdiv_eq_ediv_of_nonneg h]

/-- The dates of a strip, newest first. -/
def stripDates (tz : Tz) (now : ℤ) (n : ℕ) : List ℤ :=
  (List.range n).map fun i : ℕ => dateOf tz now - i

theorem lastDays_eq (tz : Tz) (now : ℤ) (n : ℕ) :
    lastDays tz now n = ((stripDates tz now n).map (Day.on tz)).reverse := by
  rw [lastDays, daysBack_eq, stripDates, List.map_map]
  rfl

theorem nodup_stripDates (tz : Tz) (now : ℤ) (n : ℕ) : (stripDates tz now n).Nodup := by
  refine List.Nodup.map (fun i j h => ?_) List.nodup_range
  have heq : dateOf tz now - i = dateOf tz now - j := h
  omega

theorem mem_stripDates {date : ℤ} :
    date ∈ stripDates tz now n ↔ dateOf tz now - n < date ∧ date ≤ dateOf tz now := by
  rw [stripDates, List.mem_map]
  constructor
  · rintro ⟨i, hi, rfl⟩
    have hlt := List.mem_range.mp hi
    omega
  · rintro ⟨hlt, hle⟩
    refine ⟨(dateOf tz now - date).toNat, List.mem_range.mpr ?_, ?_⟩
    · omega
    · omega

/-- A strip begins with its oldest date. -/
theorem stripFrom_eq (tz : Tz) (now : ℤ) (n : ℕ) :
    stripFrom (lastDays tz now (n + 1)) now = startOf tz (dateOf tz now - n) := by
  rw [stripFrom, lastDays_eq, stripDates, List.range_succ, List.map_append, List.map_append,
    List.reverse_append, List.map_singleton, List.map_singleton, List.reverse_singleton,
    List.singleton_append, List.head?_cons, Option.map_some, Option.getD_some]
  rfl

theorem stripFrom_strip (tz : Tz) (now : ℤ) :
    stripFrom (strip tz now) now = startOf tz (dateOf tz now - 89) := stripFrom_eq tz now 89

theorem stripFrom_lastDays (h : tz.Forward) : stripFrom (lastDays tz now (n + 1)) now =
    (calendar tz).first (dateOf tz now - n) := by
  rw [stripFrom_eq, startOf_eq_first h]

/-- Results from the strip's start on are of a date on the strip. -/
theorem dateOf_mem_strip (h : tz.Forward) {ts : ℤ}
    (hsince : stripFrom (lastDays tz now (n + 1)) now ≤ ts) (hnow : ts ≤ now) :
    dateOf tz ts ∈ stripDates tz now (n + 1) := by
  rw [stripFrom_lastDays h, Calendar.first_le_iff] at hsince
  have hold : dateOf tz now - n ≤ dateOf tz ts := hsince
  have hnew : dateOf tz ts ≤ dateOf tz now := dateOf_mono tz hnow
  rw [mem_stripDates]
  omega

theorem date_on (tz : Tz) (date : ℤ) : (Day.on tz date).date = date := rfl

variable {results : List CheckResult} {checkId : String}

/-- **A bar counts the results of its day.** -/
theorem barPair_day (h : tz.Forward) (hpast : ∀ r ∈ results, 0 ≤ r.ts) {day : Day}
    (hday : day ∈ lastDays tz now (n + 1)) :
    barPair tz (uptimeSlots results checkId (stripFrom (lastDays tz now (n + 1)) now)) day =
      countResults results checkId day.contains := by
  rw [lastDays_eq, List.mem_reverse, List.mem_map] at hday
  obtain ⟨date, hdate, rfl⟩ := hday
  have hsince : stripFrom (lastDays tz now (n + 1)) now =
      (calendar tz).first (dateOf tz now - n) := stripFrom_lastDays h
  generalize stripFrom (lastDays tz now (n + 1)) now = since at *
  -- a result counts for the date of its slot, which is its own, and is not left out by the query
  have hsame : ∀ r ∈ results, (dateOf tz (slotOf r.ts) == date && (r.checkId == checkId &&
      decide (since ≤ r.ts))) = (r.checkId == checkId && (Day.on tz date).contains r.ts) := by
    intro r hr
    have hcontains : (Day.on tz date).contains r.ts = true ↔ dateOf tz r.ts = date := contains_on h
    rw [slotOf_eq (hpast r hr), dateOf_slot]
    by_cases hon : dateOf tz r.ts = date
    · have hafter : since ≤ r.ts := by
        rw [hsince, Calendar.first_le_iff]
        have hold := (mem_stripDates.mp hdate).1
        show dateOf tz now - n ≤ dateOf tz r.ts
        omega
      simp [hcontains.mpr hon, hon, hafter]
    · have hnot : (Day.on tz date).contains r.ts = false := by
        rw [Bool.eq_false_iff]
        exact fun htrue => hon (hcontains.mp htrue)
      simp [hnot, hon]
  obtain ⟨htotal, hup⟩ := sum_uptimeSlots results checkId since fun s => dateOf tz s == date
  rw [barPair_eq, date_on, htotal, hup, countResults, resultsSince, List.countP_filter,
    List.countP_filter]
  refine Prod.ext (congrArg Nat.cast ?_) (congrArg Nat.cast ?_)
  · exact List.countP_congr fun r hr => by rw [hsame r hr]
  · refine List.countP_congr fun r hr => ?_
    rw [← hsame r hr, Bool.and_right_comm]

/-- The bars of a strip add up the results of its dates. -/
theorem sum_strip (rows : List CheckResult) (q : CheckResult → Bool)
    (hrows : ∀ r ∈ rows, dateOf tz (slotOf r.ts) ∈ stripDates tz now n) :
    ((stripDates tz now n).map fun date =>
      ((rows.countP fun r => dateOf tz (slotOf r.ts) == date && q r : ℕ) : ℤ)).sum =
      (rows.countP q : ℕ) := by
  have hcount : rows.countP q =
      rows.countP fun r => decide (dateOf tz (slotOf r.ts) ∈ stripDates tz now n) && q r :=
    List.countP_congr fun r hr => by simp [hrows r hr]
  rw [hcount, ← sum_countP (fun r => dateOf tz (slotOf r.ts)) q (nodup_stripDates tz now n),
    Nat.cast_list_sum, List.map_map]
  rfl

/-- **The bars add up to the figure.** -/
theorem sum_bars (checkId : String) (n : ℕ) (h : tz.Forward)
    (hpast : ∀ r ∈ results, 0 ≤ r.ts ∧ r.ts ≤ now) :
    let days := lastDays tz now (n + 1)
    let daily := uptimeSlots results checkId (stripFrom days now)
    (days.map fun day => (barPair tz daily day).1).sum = (daily.map (·.total)).sum ∧
      (days.map fun day => (barPair tz daily day).2).sum = (daily.map (·.up)).sum := by
  intro days daily
  have hrows : ∀ r ∈ resultsSince results checkId (stripFrom days now),
      dateOf tz (slotOf r.ts) ∈ stripDates tz now (n + 1) := by
    intro r hr
    obtain ⟨hmem, hcond⟩ := List.mem_filter.mp hr
    rw [Bool.and_eq_true, decide_eq_true_eq] at hcond
    obtain ⟨hnonneg, hnow⟩ := hpast r hmem
    rw [slotOf_eq hnonneg, dateOf_slot]
    exact dateOf_mem_strip h hcond.2 hnow
  have hdays : ∀ g : Day → ℤ, (days.map g).sum =
      ((stripDates tz now (n + 1)).map fun date => g (Day.on tz date)).sum := by
    intro g
    show ((lastDays tz now (n + 1)).map g).sum = _
    rw [lastDays_eq, List.map_reverse, List.sum_reverse, List.map_map]
    rfl
  have hall : daily.filter (fun _ => true) = daily := List.filter_eq_self.mpr fun _ _ => rfl
  have hslots := sum_uptimeSlots results checkId (stripFrom days now)
  obtain ⟨htotal, hup⟩ := hslots fun _ => true
  rw [show uptimeSlots results checkId (stripFrom days now) = daily from rfl, hall] at htotal hup
  rw [htotal, hup, hdays, hdays]
  simp only [barPair_eq, date_on]
  constructor
  · have hsum := sum_strip _ (fun _ => true) hrows
    simp only [Bool.and_true] at hsum
    rw [← hsum]
    exact congrArg List.sum (List.map_congr_left fun date _ =>
      (hslots fun s => dateOf tz s == date).1)
  · have hsum := sum_strip _ (·.ok) hrows
    simp only [Bool.true_and]
    rw [← hsum]
    exact congrArg List.sum (List.map_congr_left fun date _ =>
      (hslots fun s => dateOf tz s == date).2)

/-- **Uptime bars conserve every probe.** In a zone that goes forward, each bar of the strip counts
the results of its day, the bars add up to the 90-day figure, and every result from the strip's
start on is in one day. -/
theorem bars_conserve (tz : Tz) (h : tz.Forward) (results : List CheckResult) (checkId : String)
    (now : ℤ) (hpast : ∀ r ∈ results, 0 ≤ r.ts ∧ r.ts ≤ now) :
    let days := lastDays tz now stripDays
    let daily := uptimeSlots results checkId (stripFrom days now)
    days.length = stripDays ∧
    (uptimeBars tz daily days =
      days.map fun day => ⟨day, percent (barPair tz daily day).1 (barPair tz daily day).2⟩) ∧
    (∀ day ∈ days, barPair tz daily day = countResults results checkId day.contains) ∧
    (days.map fun day => (barPair tz daily day).1).sum = (daily.map (·.total)).sum ∧
    (days.map fun day => (barPair tz daily day).2).sum = (daily.map (·.up)).sum ∧
    ∀ r ∈ results, stripFrom days now ≤ r.ts → ∃! day, day ∈ days ∧ day.contains r.ts = true := by
  intro days daily
  have hdays : days = ((stripDates tz now stripDays).map (Day.on tz)).reverse := lastDays_eq ..
  obtain ⟨htotal, hup⟩ := sum_bars checkId 89 h hpast
  refine ⟨?_, uptimeBars_eq tz daily days, fun day hday => ?_, htotal, hup, fun r hr hsince => ?_⟩
  · rw [hdays, List.length_reverse, List.length_map, stripDates, List.length_map, List.length_range]
  · exact barPair_day (n := 89) h (fun r hr => (hpast r hr).1) hday
  · have hmem : dateOf tz r.ts ∈ stripDates tz now stripDays :=
      dateOf_mem_strip (n := 89) h hsince (hpast r hr).2
    refine ⟨Day.on tz (dateOf tz r.ts), ⟨?_, (contains_on h).mpr rfl⟩, ?_⟩
    · rw [hdays]
      exact List.mem_reverse.mpr (List.mem_map_of_mem hmem)
    · rintro day ⟨hday, hcontains⟩
      rw [hdays, List.mem_reverse, List.mem_map] at hday
      obtain ⟨date, -, rfl⟩ := hday
      rw [(contains_on h).mp hcontains]

end Strip

/-- Clocks go from midnight to one o'clock when the fourth day begins. -/
def spring : Tz where
  offset ts := if ts < 4 * 86400 then 0 else 3600
  bounded ts := by split <;> omega
  quarters ts := by split <;> decide
  constant ts := by
    unfold slotSecs
    split_ifs <;> omega
  forward ts ts' h := by split_ifs <;> omega

theorem forward_spring : spring.Forward := by
  intro ts ts' hle hfirst hsame
  simp only [dateOf, Tz.wall, spring] at *
  split <;> split <;> omega

/-- Two probes an hour before the jump and one right after it. -/
def probes : List CheckResult :=
  [⟨4 * 86400 - 3600, "web", true⟩, ⟨4 * 86400 - 3000, "web", false⟩, ⟨4 * 86400, "web", true⟩]

theorem bars_conserve_spring :
    let days := lastDays spring (4 * 86400 + 60) stripDays
    let daily := uptimeSlots probes "web" (stripFrom days (4 * 86400 + 60))
    (∀ day ∈ days, barPair spring daily day = countResults probes "web" day.contains) :=
  (bars_conserve spring forward_spring probes "web" (4 * 86400 + 60) (by decide)).2.2.1

/-- Clocks go from eleven in the evening to one o'clock, and half an hour later back to midnight. -/
def detour : Tz where
  offset ts := if ts < 82800 then 0 else if ts < 84600 then 7200 else 1800
  bounded ts := by split <;> [skip; split] <;> omega
  quarters ts := by split <;> [skip; split] <;> decide
  constant ts := by
    unfold slotSecs
    split_ifs <;> omega
  forward ts ts' h := by split_ifs <;> omega

/-- **A probe that no day holds**, between the two changes: its date has begun, its day has not. -/
theorem lost_probe :
    let days := lastDays detour 90000 stripDays
    let daily := uptimeSlots [⟨83000, "web", true⟩] "web" (stripFrom days 90000)
    ∃ day ∈ days,
      barPair detour daily day ≠ countResults [⟨83000, "web", true⟩] "web" day.contains := by
  intro days daily
  have hsince : stripFrom days 90000 = startOf detour (-88) := stripFrom_eq detour 90000 89
  have hdaily : daily = uptimeSlots [⟨83000, "web", true⟩] "web" (startOf detour (-88)) := by
    rw [← hsince]
  refine ⟨Day.on detour 1, ?_, ?_⟩
  · have hmem : (1 : ℤ) ∈ stripDates detour 90000 stripDays := by
      rw [mem_stripDates]
      decide
    show Day.on detour 1 ∈ lastDays detour 90000 stripDays
    rw [lastDays_eq]
    exact List.mem_reverse.mpr (List.mem_map_of_mem hmem)
  · rw [hdaily]
    decide +kernel

end Dunlin

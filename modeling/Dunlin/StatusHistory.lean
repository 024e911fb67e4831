import Dunlin.DayTiling
import Dunlin.Maintenance
import Dunlin.Messages
import Mathlib.Data.List.Sort
import Mathlib.Order.Basic

/-!
# The status page's history

The model of the parts of `web.rs` that show what happened on the days of the strip: the rows
fetched once for a page (`History`), a component's bars (`build_bars`) and the list of the last two
weeks (`past_days`). How chrono writes a date and Rust a number is a parameter (`PageText`). A query
of the page that fails counts as empty in the source; here the queries succeed.

What a bar shows is a maximum, of what the probes say about the day and of the worst incident that
was open on it; maintenance shows where nothing is worse. `le_barState_iff` is that as an order.

Incidents are fetched from the strip's first instant on, by when they began. One that began before
is on no bar, however long it stays open. `bar_counts_iff` says when that matters.

## Main results

* `le_barState_iff` — a bar is the maximum of what it shows
* `mem_incidentsOf`, `mem_windowsOf` — what a page has fetched for a component
* `le_componentState_iff` — the same for a component and a day
* `bar_counts_iff` — when a bar counts every incident that was open on its day
* `open_uncounted` — an open incident that no bar counts
-/

namespace Dunlin

open Lib

/-! ### Severity -/

/-- The discriminant of a state: mildest first. -/
def State.severity : State → ℕ
  | .operational => 0
  | .maintenance => 1
  | .degraded => 2
  | .partialOutage => 3
  | .majorOutage => 4

theorem State.severity_injective : Function.Injective State.severity := by
  intro a b h
  cases a <;> cases b <;> first | rfl | exact absurd h (by decide)

instance : LinearOrder State := LinearOrder.lift' State.severity State.severity_injective

/-! ### Text -/

/-- What is written by code that is not modelled. -/
structure PageText where
  /-- `NaiveDate::format`. -/
  date : String → ℤ → String
  /-- `{p:.2}`. -/
  fixed : ℚ → String

def humanDuration (secs : ℤ) : String :=
  let secs := max secs 0
  let (d, h, m) := (secs / 86400, secs % 86400 / 3600, secs % 3600 / 60)
  if d = 0 then
    if h = 0 then
      if m = 0 then "under a minute" else s!"{m} min"
    else if m = 0 then s!"{h} h" else s!"{h} h {m} min"
  else if h = 0 then s!"{d} d" else s!"{d} d {h} h"

/-- Never round a day with downtime up to a clean 100%. -/
def formatPct (text : PageText) (p : ℚ) : String :=
  if text.fixed p = "100.00" ∧ p < 100 then "99.99" else text.fixed p

/-! ### The rows of a page -/

/-- The strip's days with their incidents and maintenance. -/
structure History where
  days : List Day
  incidents : List Incident
  maintenance : List Maintenance

/-- The orders of the two queries, newest first. -/
structure HistoryOrder where
  incidents : OrderBy fun i : Incident => -i.createdAt
  maintenance : OrderBy fun m : Maintenance => -m.startsAt

def incidentsSince (o : HistoryOrder) (start : ℤ) (rows : List Incident) : List Incident :=
  o.incidents.sort (rows.filter fun i => start ≤ i.createdAt)

def maintenanceBetween (o : HistoryOrder) (start stop : ℤ) (rows : List Maintenance) :
    List Maintenance :=
  o.maintenance.sort (rows.filter fun m => m.startsAt < stop && start < m.endsAt)

/-- The history of the page at a time. -/
def History.load (o : HistoryOrder) (tz : Tz) (incidents : List Incident)
    (windows : List Maintenance) (now : ℤ) : History :=
  let days := strip tz now
  { days
    incidents := incidentsSince o (stripFrom days now) incidents
    maintenance := maintenanceBetween o (stripFrom days now) (now + 1) windows }

/-- Whether `[start, stop)` overlaps this day. -/
def Day.overlaps (d : Day) (start stop : ℤ) : Bool := start < d.end && d.start < stop

/-- Whether an incident filed against `target` counts for component `id`. -/
def affects (target id : String) : Bool := target == "" || target == id

/-! ### Bars -/

structure BarView where
  «class» : String
  date : String
  uptime : String
  label : String
  aria : String
  deriving DecidableEq, Repr

/-- The worst state a day's uptime implies. -/
def dayState (uptime : ℚ) : State :=
  if uptime ≥ 9999 / 100 then .operational
  else if uptime ≥ 95 then .degraded
  else if uptime ≥ 50 then .partialOutage
  else .majorOutage

/-- An incident counts for every day it was open. -/
def Incident.countsOn (i : Incident) (day : Day) (now : ℤ) : Bool :=
  i.createdAt < day.end && day.start ≤ i.resolvedAt.getD now

/-- The worst incident of a day; one that is filed as maintenance is none. -/
def dayImpact (incidents : List Incident) (now : ℤ) (day : Day) : Option State :=
  (((incidents.filter (·.countsOn day now)).map (·.impact)).filter (· ≠ .maintenance)).max?

/-- The worse of two states that may be missing. -/
def worse : Option State → Option State → Option State
  | some a, some b => some (max a b)
  | a, b => a.or b

/-- The state of a bar: maintenance only shows on a day that had nothing worse. -/
def barState (uptime : Option ℚ) (impact : Option State) (maint : Bool) : Option State :=
  match worse (uptime.map dayState) impact with
  | some .operational | none =>
    if maint then some .maintenance else worse (uptime.map dayState) impact
  | s => s

/-- What a bar in a state says. -/
def barView (text : PageText) (bar : DayBar) (state : Option State) : BarView :=
  let date := text.date "%b %-d, %Y" bar.day.date
  let uptime := (bar.uptime.map fun u => s!"{formatPct text u}%").getD ""
  match state with
  | none => { «class» := "empty", date, uptime, label := "No data", aria := s!"{date}: no data" }
  | some state =>
    let label := match state with
      | .operational => "Nothing went wrong"
      | .maintenance => "Maintenance"
      | s => s.label
    { «class» := state.asStr
      date
      uptime
      label
      aria :=
        if uptime = "" then s!"{date}: {label.toLower}"
        else s!"{date}: {uptime} uptime, {label.toLower}" }

/-- The state of the bar of a day. -/
def stateOn (incidents : List Incident) (windows : List Maintenance) (now : ℤ) (bar : DayBar) :
    Option State :=
  barState bar.uptime (dayImpact incidents now bar.day)
    (windows.any fun m => bar.day.overlaps m.startsAt m.endsAt)

/-- One tick per day. -/
def buildBars (text : PageText) (tz : Tz) (slots : List Slot) (days : List Day)
    (incidents : List Incident) (windows : List Maintenance) (now : ℤ) : List BarView :=
  (uptimeBars tz slots days).map fun bar => barView text bar (stateOn incidents windows now bar)

/-- The incidents of a component. -/
def History.incidentsOf (h : History) (id : String) : List Incident :=
  h.incidents.filter fun i => affects i.component id

/-- The maintenance windows of a component. -/
def History.windowsOf (h : History) (id : String) : List Maintenance :=
  h.maintenance.filter fun m => m.component == id || m.component == ""

/-- The bars that `build_component` shows for a component. -/
def componentBars (text : PageText) (tz : Tz) (h : History) (id : String) (slots : List Slot)
    (now : ℤ) : List BarView :=
  buildBars text tz slots h.days (h.incidentsOf id) (h.windowsOf id) now

/-- The uptime of a day. -/
def uptimeOn (tz : Tz) (slots : List Slot) (day : Day) : Option ℚ :=
  percent (barPair tz slots day).1 (barPair tz slots day).2

/-- The state of a component's bar of a day. -/
def componentState (tz : Tz) (h : History) (id : String) (slots : List Slot) (now : ℤ)
    (day : Day) : Option State :=
  stateOn (h.incidentsOf id) (h.windowsOf id) now ⟨day, uptimeOn tz slots day⟩

/-- An incident is open at some instant of a day, up to now. -/
def Incident.OpenOn (i : Incident) (day : Day) (now : ℤ) : Prop :=
  ∃ t, day.contains t = true ∧ t ≤ now ∧ i.createdAt ≤ t ∧ ∀ r ∈ i.resolvedAt, t ≤ r

/-! ### What a bar shows -/

section Bars

variable {a b s : State} {i : Incident} {incidents : List Incident} {day : Day} {now : ℤ}
  {uptime : Option ℚ} {impact : Option State} {maint : Bool}

theorem operational_le (s : State) : State.operational ≤ s := Nat.zero_le s.severity

theorem State.eq_operational (h : s ≤ .maintenance) (hne : s ≠ .maintenance) :
    s = .operational := by
  cases s with
  | operational => rfl
  | maintenance => exact absurd rfl hne
  | degraded | partialOutage | majorOutage => exact absurd h (by decide)

theorem maintenance_le (h : s ≠ .operational) : State.maintenance ≤ s := by
  cases s with
  | operational => exact absurd rfl h
  | maintenance | degraded | partialOutage | majorOutage => decide

/-- The bars are those of the states. -/
theorem componentBars_eq (text : PageText) (tz : Tz) (h : History) (id : String)
    (slots : List Slot) (now : ℤ) : componentBars text tz h id slots now = h.days.map fun day =>
      barView text ⟨day, uptimeOn tz slots day⟩ (componentState tz h id slots now day) := by
  rw [componentBars, buildBars, uptimeBars_eq, List.map_map]
  rfl

theorem class_barView (text : PageText) (bar : DayBar) (state : Option State) :
    (barView text bar state).class = state.elim "empty" State.asStr := by
  cases state with
  | none => rfl
  | some s => rfl

/-- The class of a bar tells its state. -/
theorem barView_injective (text : PageText) (bar : DayBar) :
    Function.Injective (barView text bar) := by
  intro s s' h
  have hclass := congrArg BarView.class h
  rw [class_barView, class_barView] at hclass
  have hname : ∀ s : Option State, State.fromName (s.elim "empty" State.asStr) = s := by
    intro s
    cases s with
    | none => rfl
    | some s => exact State.fromName_asStr s
  rw [← hname s, hclass, hname]

theorem le_worse_iff {x y : Option State} :
    (∃ t ∈ worse x y, s ≤ t) ↔ (∃ t ∈ x, s ≤ t) ∨ ∃ t ∈ y, s ≤ t := by
  rcases x with _ | x <;> rcases y with _ | y
  · simp [worse]
  · simp [worse]
  · simp [worse]
  · simp [worse]

/-- Nothing but maintenance can be shown of a day. -/
def Mild (uptime : Option ℚ) (impact : Option State) : Prop :=
  worse (uptime.map dayState) impact = none ∨
    worse (uptime.map dayState) impact = some .operational

instance (uptime : Option ℚ) (impact : Option State) : Decidable (Mild uptime impact) :=
  inferInstanceAs (Decidable (_ ∨ _))

theorem barState_of_mild (h : Mild uptime impact) : barState uptime impact maint =
    if maint then some .maintenance else worse (uptime.map dayState) impact := by
  rw [barState]
  rcases h with hnone | hop
  · rw [hnone]
  · rw [hop]

theorem barState_of_not_mild (h : ¬Mild uptime impact) :
    barState uptime impact maint = worse (uptime.map dayState) impact := by
  rw [barState]
  split
  · rename_i hop
    exact absurd (.inr hop) h
  · rename_i hnone
    exact absurd (.inl hnone) h
  · rfl

/-- A bar shows the worst of the probes and the incidents, and maintenance where nothing is
worse. -/
theorem le_barState_iff :
    (∃ t ∈ barState uptime impact maint, s ≤ t) ↔
      (∃ t ∈ uptime.map dayState, s ≤ t) ∨ (∃ t ∈ impact, s ≤ t) ∨
        (maint = true ∧ s ≤ .maintenance) := by
  rw [← or_assoc, ← le_worse_iff]
  by_cases hmild : Mild uptime impact
  · rw [barState_of_mild hmild]
    cases maint with
    | true =>
      have hle : (∃ t ∈ worse (uptime.map dayState) impact, s ≤ t) → s ≤ .maintenance := by
        rintro ⟨t, ht, hst⟩
        rcases hmild with hnone | hop
        · rw [hnone] at ht
          cases ht
        · rw [hop] at ht
          cases ht
          exact hst.trans (operational_le _)
      simpa using hle
    | false => simp
  · rw [barState_of_not_mild hmild]
    refine ⟨.inl, ?_⟩
    rintro (h | ⟨-, hs⟩)
    · exact h
    · obtain ⟨t, ht⟩ := Option.ne_none_iff_exists'.mp fun hnone => hmild (.inl hnone)
      refine ⟨t, ht, hs.trans (maintenance_le fun hop => hmild (.inr ?_))⟩
      rw [ht, hop]

/-- The worst incident of a day is one that counts for it. -/
theorem le_dayImpact_iff : (∃ t ∈ dayImpact incidents now day, s ≤ t) ↔
    ∃ i ∈ incidents, i.countsOn day now = true ∧ i.impact ≠ .maintenance ∧ s ≤ i.impact := by
  have hmem : ∀ t, t ∈ ((incidents.filter (·.countsOn day now)).map (·.impact)).filter
      (· ≠ .maintenance) ↔ ∃ i ∈ incidents, i.countsOn day now = true ∧ i.impact = t ∧
        t ≠ .maintenance := by
    intro t
    simp only [List.mem_filter, List.mem_map, decide_eq_true_eq]
    constructor
    · rintro ⟨⟨i, ⟨hi, hcounts⟩, rfl⟩, ht⟩
      exact ⟨i, hi, hcounts, rfl, ht⟩
    · rintro ⟨i, hi, hcounts, rfl, ht⟩
      exact ⟨⟨i, ⟨hi, hcounts⟩, rfl⟩, ht⟩
  rw [dayImpact]
  constructor
  · rintro ⟨t, ht, hst⟩
    obtain ⟨i, hi, hcounts, rfl, hne⟩ := (hmem t).mp (List.max?_mem ht)
    exact ⟨i, hi, hcounts, hne, hst⟩
  · rintro ⟨i, hi, hcounts, hne, hst⟩
    have hi' := (hmem i.impact).mpr ⟨i, hi, hcounts, rfl, hne⟩
    obtain ⟨t, ht⟩ := Option.isSome_iff_exists.mp (List.isSome_max?_of_mem hi')
    exact ⟨t, ht, hst.trans ((List.max?_eq_some_iff.mp ht).2 _ hi')⟩

/-- An incident that was open on a day counts for it. -/
theorem Incident.OpenOn.countsOn (h : i.OpenOn day now) : i.countsOn day now = true := by
  obtain ⟨t, hday, hnow, hcreated, hresolved⟩ := h
  rw [Day.contains, Bool.and_eq_true, decide_eq_true_eq, decide_eq_true_eq] at hday
  rw [Incident.countsOn, Bool.and_eq_true, decide_eq_true_eq, decide_eq_true_eq]
  refine ⟨by omega, hday.1.trans ?_⟩
  cases hr : i.resolvedAt with
  | none => exact hnow
  | some r => exact hresolved r hr

end Bars

/-! ### What a page fetches -/

section Load

variable {o : HistoryOrder} {tz : Tz} {incidents : List Incident} {windows : List Maintenance}
  {now : ℤ} {id : String} {i : Incident} {m : Maintenance}

theorem mem_incidentsOf : i ∈ (History.load o tz incidents windows now).incidentsOf id ↔
    i ∈ incidents ∧ stripFrom (strip tz now) now ≤ i.createdAt ∧ affects i.component id = true := by
  rw [History.incidentsOf, List.mem_filter, History.load, incidentsSince, OrderBy.mem_sort,
    List.mem_filter, decide_eq_true_eq, and_assoc]

theorem mem_maintenance : m ∈ (History.load o tz incidents windows now).maintenance ↔
    m ∈ windows ∧ m.startsAt ≤ now ∧ stripFrom (strip tz now) now < m.endsAt := by
  rw [History.load, maintenanceBetween, OrderBy.mem_sort, List.mem_filter, Bool.and_eq_true,
    decide_eq_true_eq, decide_eq_true_eq, Int.lt_add_one_iff]

theorem mem_windowsOf : m ∈ (History.load o tz incidents windows now).windowsOf id ↔
    m ∈ windows ∧ m.startsAt ≤ now ∧ stripFrom (strip tz now) now < m.endsAt ∧
      affects m.component id = true := by
  rw [History.windowsOf, List.mem_filter, mem_maintenance, affects, Bool.or_comm, and_assoc,
    and_assoc]

/-- What the bar of a day shows at least. -/
theorem le_componentState_iff {slots : List Slot} {day : Day} {s : State} :
    (∃ t ∈ componentState tz (History.load o tz incidents windows now) id slots now day, s ≤ t) ↔
      (∃ u ∈ uptimeOn tz slots day, s ≤ dayState u) ∨
      (∃ i ∈ incidents, stripFrom (strip tz now) now ≤ i.createdAt ∧
        affects i.component id = true ∧ i.countsOn day now = true ∧ i.impact ≠ .maintenance ∧
        s ≤ i.impact) ∨
      (s ≤ .maintenance ∧ ∃ m ∈ windows, m.startsAt ≤ now ∧
        stripFrom (strip tz now) now < m.endsAt ∧ affects m.component id = true ∧
        day.overlaps m.startsAt m.endsAt = true) := by
  rw [componentState, stateOn, le_barState_iff, le_dayImpact_iff, List.any_eq_true]
  refine or_congr ?_ (or_congr ?_ ?_)
  · simp
  · simp only [mem_incidentsOf, and_assoc]
  · simp only [mem_windowsOf, and_assoc, and_comm (b := s ≤ .maintenance)]

end Load

/-- A major outage of everything that began on the first day and is not over. -/
def longOutage : Incident where
  id := 1
  component := ""
  title := "Outage"
  state := .investigating
  impact := .majorOutage
  createdAt := 0
  resolvedAt := none
  auto := false
  quiet := false

/-- **When a bar counts every incident that was open on its day.** Those that began on the strip it
counts. So it shows at least the impact of every incident if and only if each one that began before
the strip is outranked: by what the probes say about the day, by an incident that began on the strip
and counts for the day, or, when its impact is mildest, by maintenance. -/
theorem bar_counts_iff (text : PageText) (o : HistoryOrder) (tz : Tz) (incidents : List Incident)
    (windows : List Maintenance) (id : String) (slots : List Slot) (now : ℤ) :
    let h := History.load o tz incidents windows now
    let since := stripFrom (strip tz now) now
    (componentBars text tz h id slots now = (strip tz now).map fun day =>
      barView text ⟨day, uptimeOn tz slots day⟩ (componentState tz h id slots now day)) ∧
    ∀ day,
      (∀ i ∈ incidents, affects i.component id = true → i.impact ≠ .maintenance →
        i.OpenOn day now → ∃ s ∈ componentState tz h id slots now day, i.impact ≤ s) ↔
      ∀ i ∈ incidents, i.createdAt < since → affects i.component id = true →
        i.impact ≠ .maintenance → i.OpenOn day now →
          (∃ u ∈ uptimeOn tz slots day, i.impact ≤ dayState u) ∨
          (∃ j ∈ incidents, since ≤ j.createdAt ∧ affects j.component id = true ∧
            j.countsOn day now = true ∧ j.impact ≠ .maintenance ∧ i.impact ≤ j.impact) ∨
          (i.impact = .operational ∧ ∃ m ∈ windows, m.startsAt ≤ now ∧ since < m.endsAt ∧
            affects m.component id = true ∧ day.overlaps m.startsAt m.endsAt = true) := by
  intro h since
  refine ⟨componentBars_eq text tz h id slots now, fun day => ?_⟩
  constructor
  · intro hall i hi _ haffects himpact hopen
    refine (le_componentState_iff.mp (hall i hi haffects himpact hopen)).imp_right ?_
    exact Or.imp_right fun hmaint => ⟨State.eq_operational hmaint.1 himpact, hmaint.2⟩
  · intro holder i hi haffects himpact hopen
    refine le_componentState_iff.mpr ?_
    by_cases hold : i.createdAt < since
    · refine (holder i hi hold haffects himpact hopen).imp_right (Or.imp_right ?_)
      exact fun hmaint => ⟨hmaint.1.le.trans (operational_le _), hmaint.2⟩
    · exact .inr (.inl ⟨i, hi, not_lt.mp hold, haffects, hopen.countsOn, himpact, le_rfl⟩)

/-- **A bar without an incident that is still open**: it began three months ago. -/
theorem open_uncounted :
    ¬∀ (o : HistoryOrder) (tz : Tz) (incidents : List Incident) (windows : List Maintenance)
      (id : String) (slots : List Slot) (now : ℤ), ∀ day ∈ strip tz now, ∀ i ∈ incidents,
      affects i.component id = true → i.impact ≠ .maintenance → i.OpenOn day now →
      ∃ s ∈ componentState tz (History.load o tz incidents windows now) id slots now day,
        i.impact ≤ s := by
  intro h
  have hday : Day.on spring 100 ∈ strip spring (100 * 86400) := by
    rw [strip, lastDays_eq, List.mem_reverse]
    exact List.mem_map_of_mem (mem_stripDates.mpr (by decide))
  have hopen : longOutage.OpenOn (Day.on spring 100) (100 * 86400) :=
    ⟨100 * 86400, by decide +kernel, by decide, by decide, by decide⟩
  obtain ⟨u, hu, -⟩ | ⟨j, hj, hsince, -⟩ | ⟨-, m, hm, -⟩ := le_componentState_iff.mp
    (h ⟨.stable _, .stable _⟩ spring [longOutage] [] "web" [] (100 * 86400) _ hday longOutage
      (List.mem_singleton_self _) (by decide) (by decide) hopen)
  · have hnone : uptimeOn spring [] (Day.on spring 100) = none := rfl
    rw [hnone] at hu
    exact absurd hu (Option.not_mem_none u)
  · rw [List.mem_singleton.mp hj, stripFrom_strip] at hsince
    exact absurd hsince (by decide +kernel)
  · exact absurd hm List.not_mem_nil

end Dunlin

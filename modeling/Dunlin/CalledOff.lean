import Dunlin.Lib.Run
import Dunlin.StatusHistory

/-!
# Windows that were called off

A maintenance window that is ended before or when it starts has `endsAt ≤ startsAt`; its subscribers
are told that it will not happen. This module is about what the status page makes of such a row: the
list of the last two weeks (`past_days`) and the bars.

The page asks whether a window's start is in a day and whether the window overlaps a day:
`startsAt < day.end` and `day.start < endsAt`. Neither asks whether the window has any length, so a
window called off on the day it was to start is in both. `called_off_iff` says exactly when one
leaves a trace.

## Main results

* `pastDays_live_iff`, `componentBars_live_iff` — list and bars without the windows called off
* `called_off_iff` — when they leave a trace, for the windows that any calls have left
* `traced` — a window that never was, listed as completed
-/

namespace Dunlin

open Lib

/-- Days in the list of what happened lately. -/
def pastDayCount : ℕ := 14

structure PastItem where
  href : Option String
  title : String
  swatch : String
  note : String
  deriving DecidableEq, Repr

structure DayView where
  heading : String
  iso : String
  items : List PastItem
  deriving DecidableEq, Repr

def incidentItem (i : Incident) : ℤ × PastItem :=
  (i.createdAt,
    { href := some s!"/incidents/{i.id}"
      title := i.title
      swatch := i.impact.asStr
      note :=
        match i.resolvedAt with
        | some r => s!"Resolved · {humanDuration (r - i.createdAt)}"
        | none => i.state.label })

def windowItem (cfg : Config) (now : ℤ) (m : Maintenance) : ℤ × PastItem :=
  (m.startsAt,
    { href := none
      title :=
        if trim m.note = "" then s!"Maintenance on {componentLabel cfg m.component}" else m.note
      swatch := State.maintenance.asStr
      note :=
        if m.endsAt ≤ now then s!"Completed · {humanDuration (m.endsAt - m.startsAt)}"
        else "In progress" })

/-- A window is listed under a day. -/
def Maintenance.listedOn (m : Maintenance) (day : Day) (now : ℤ) : Bool :=
  day.contains m.startsAt && m.startsAt ≤ now

/-- The items of a day with their times: incidents, then maintenance. -/
def dayItems (cfg : Config) (h : History) (now : ℤ) (day : Day) : List (ℤ × PastItem) :=
  (h.incidents.filter fun i => day.contains i.createdAt).map incidentItem ++
    (h.maintenance.filter (·.listedOn day now)).map (windowItem cfg now)

/-- `sort_by_key(|(ts, _)| Reverse(*ts))`: newest first, items of one second as they were. -/
def newestFirst (items : List (ℤ × PastItem)) : List (ℤ × PastItem) :=
  items.insertionSort fun a b => b.1 ≤ a.1

/-- "What happened lately": one row per day, newest first. -/
def pastDays (text : PageText) (cfg : Config) (h : History) (now : ℤ) : List DayView :=
  (h.days.reverse.take pastDayCount).map fun day =>
    { heading := text.date "%b %-d" day.date
      iso := text.date "%Y-%m-%d" day.date
      items := (newestFirst (dayItems cfg h now day)).map Prod.snd }

/-- A window that takes place, or would have. -/
def Maintenance.Live (m : Maintenance) : Prop := m.startsAt < m.endsAt

instance : DecidablePred Maintenance.Live := fun _ => inferInstanceAs (Decidable (_ < _))

/-- The history without the windows that were called off. -/
def History.live (h : History) : History :=
  { h with maintenance := h.maintenance.filter (·.Live) }

/-- The page is as if no window had been called off. -/
def NoTrace (text : PageText) (cfg : Config) (tz : Tz) (h : History) (id : String)
    (slots : List Slot) (now : ℤ) : Prop :=
  pastDays text cfg h now = pastDays text cfg h.live now ∧
    componentBars text tz h id slots now = componentBars text tz h.live id slots now

/-! ### Writing windows -/

inductive WindowOp
  | create (component note : String) (startsAt endsAt now : ℤ)
  | finish (id now : ℤ)

namespace WindowOp

def step (u : Upkeep) : WindowOp → Upkeep
  | .create component note startsAt endsAt now =>
    u.createMaintenance component note startsAt endsAt now
  | .finish id now => u.endMaintenance id now

def time : WindowOp → ℤ
  | .create _ _ _ _ now | .finish _ now => now

/-- The windows that some calls leave. -/
def windows (subs : Subs) (ops : List WindowOp) : List Maintenance :=
  (Lib.run step ⟨.empty, subs⟩ ops).windows.rows

end WindowOp

/-! ### What shows on the page -/

section Page

variable {text : PageText} {cfg : Config} {tz : Tz} {h : History} {id : String}
  {slots : List Slot} {now : ℤ} {day : Day}

/-- The days of the list are the last ones of the strip. -/
theorem listed_eq (tz : Tz) (now : ℤ) : (strip tz now).reverse.take pastDayCount =
    (List.range pastDayCount).map fun i : ℕ => Day.on tz (dateOf tz now - i) := by
  rw [strip, lastDays_eq, List.reverse_reverse, stripDates, List.map_map, ← List.map_take,
    List.take_range]
  rfl

/-- Two filters of one list are equal if the second leaves out no more. -/
theorem filter_filter_eq_iff {α : Type} {l : List α} {p q : α → Bool} :
    l.filter p = (l.filter q).filter p ↔ ∀ a ∈ l, p a = true → q a = true := by
  rw [List.filter_filter]
  constructor
  · intro heq a ha hp
    have hmem : a ∈ l.filter fun a => p a && q a := heq ▸ List.mem_filter.mpr ⟨ha, hp⟩
    exact (Bool.and_eq_true_iff.mp (List.mem_filter.mp hmem).2).2
  · intro h
    refine List.filter_congr fun a ha => ?_
    cases hp : p a with
    | false => rfl
    | true => rw [h a ha hp, Bool.true_and]

/-- The items of a day tell how many windows are listed. -/
theorem items_live_iff (cfg : Config) :
    (newestFirst (dayItems cfg h now day)).map Prod.snd =
        (newestFirst (dayItems cfg h.live now day)).map Prod.snd ↔
      ∀ m ∈ h.maintenance, m.listedOn day now = true → m.Live := by
  have hiff : h.maintenance.filter (·.listedOn day now) =
      h.live.maintenance.filter (·.listedOn day now) ↔
      ∀ m ∈ h.maintenance, m.listedOn day now = true → decide m.Live = true :=
    filter_filter_eq_iff
  simp only [decide_eq_true_eq] at hiff
  rw [← hiff]
  constructor
  · intro heq
    have hlen := congrArg List.length heq
    simp only [newestFirst, dayItems, List.length_map, List.length_insertionSort,
      List.length_append] at hlen
    have hsub : (h.live.maintenance.filter (·.listedOn day now)).Sublist
        (h.maintenance.filter (·.listedOn day now)) := List.filter_sublist.filter _
    refine (hsub.eq_of_length ?_).symm
    have hsame : h.live.incidents = h.incidents := rfl
    rw [hsame] at hlen
    omega
  · intro heq
    rw [dayItems]
    rw [heq]
    rfl

theorem pastDays_live_iff : pastDays text cfg h now = pastDays text cfg h.live now ↔
    ∀ day ∈ h.days.reverse.take pastDayCount, ∀ m ∈ h.maintenance,
      m.listedOn day now = true → m.Live := by
  have hdays : h.live.days = h.days := rfl
  rw [pastDays, pastDays, hdays, List.map_inj_left]
  refine forall₂_congr fun day _ => ?_
  rw [← items_live_iff cfg, DayView.mk.injEq]
  simp only [true_and]

/-- A bar turns to maintenance only where it shows nothing worse. -/
theorem barState_inj {uptime : Option ℚ} {impact : Option State} {a b : Bool} :
    barState uptime impact a = barState uptime impact b ↔ ¬Mild uptime impact ∨ a = b := by
  by_cases hmild : Mild uptime impact
  · rw [barState_of_mild hmild, barState_of_mild hmild]
    have hne : worse (uptime.map dayState) impact ≠ some .maintenance := by
      rcases hmild with hnone | hop
      · rw [hnone]
        decide
      · rw [hop]
        decide
    cases a <;> cases b <;> simp [hmild, hne, hne.symm]
  · rw [barState_of_not_mild hmild, barState_of_not_mild hmild]
    exact iff_of_true rfl (.inl hmild)

theorem componentState_live_iff :
    componentState tz h id slots now day = componentState tz h.live id slots now day ↔
      ¬Mild (uptimeOn tz slots day) (dayImpact (h.incidentsOf id) now day) ∨
      ∀ m ∈ h.windowsOf id, day.overlaps m.startsAt m.endsAt = true →
        ∃ m' ∈ h.windowsOf id, m'.Live ∧ day.overlaps m'.startsAt m'.endsAt = true := by
  have hwindows : h.live.windowsOf id = (h.windowsOf id).filter (·.Live) := by
    rw [History.windowsOf, History.windowsOf, History.live, List.filter_filter, List.filter_filter]
    exact List.filter_congr fun m _ => Bool.and_comm _ _
  have hincidents : h.live.incidentsOf id = h.incidentsOf id := rfl
  unfold componentState stateOn
  dsimp only
  rw [hincidents, hwindows, barState_inj, Bool.eq_iff_iff, List.any_eq_true, List.any_eq_true]
  refine or_congr_right ?_
  simp only [List.mem_filter, decide_eq_true_eq]
  constructor
  · intro hiff m hm hoverlaps
    obtain ⟨m', ⟨hm', hlive⟩, hoverlaps'⟩ := hiff.mp ⟨m, hm, hoverlaps⟩
    exact ⟨m', hm', hlive, hoverlaps'⟩
  · intro hlive
    constructor
    · rintro ⟨m, hm, hoverlaps⟩
      obtain ⟨m', hm', hlive', hoverlaps'⟩ := hlive m hm hoverlaps
      exact ⟨m', ⟨hm', hlive'⟩, hoverlaps'⟩
    · rintro ⟨m, ⟨hm, -⟩, hoverlaps⟩
      exact ⟨m, hm, hoverlaps⟩

theorem componentBars_live_iff :
    componentBars text tz h id slots now = componentBars text tz h.live id slots now ↔
      ∀ day ∈ h.days,
        ¬Mild (uptimeOn tz slots day) (dayImpact (h.incidentsOf id) now day) ∨
        ∀ m ∈ h.windowsOf id, day.overlaps m.startsAt m.endsAt = true →
          ∃ m' ∈ h.windowsOf id, m'.Live ∧ day.overlaps m'.startsAt m'.endsAt = true := by
  have hdays : h.live.days = h.days := rfl
  rw [componentBars_eq, componentBars_eq, hdays, List.map_inj_left]
  refine forall₂_congr fun day _ => ?_
  rw [(barView_injective text _).eq_iff, componentState_live_iff]

end Page

/-- **When windows that were called off leave a trace.** For the windows that any calls have left,
the page of any time shows nothing of those called off if and only if each one that it fetches, with
a start that has come and an end on the strip, starts on none of the days listed, and on each day it
overlaps the component's bar has something worse to show than maintenance, or a window that did take
place. -/
theorem called_off_iff (text : PageText) (o : HistoryOrder) (cfg : Config) (tz : Tz) (subs : Subs)
    (ops : List WindowOp) (incidents : List Incident) (id : String) (slots : List Slot) (now : ℤ) :
    let windows := WindowOp.windows subs ops
    let since := stripFrom (strip tz now) now
    let h := History.load o tz incidents windows now
    NoTrace text cfg tz h id slots now ↔
      ∀ m ∈ windows, m.endsAt ≤ m.startsAt → m.startsAt ≤ now → since < m.endsAt →
        (∀ day ∈ (strip tz now).reverse.take pastDayCount, day.contains m.startsAt = false) ∧
        (affects m.component id = true → ∀ day ∈ strip tz now,
          day.overlaps m.startsAt m.endsAt = true →
            ¬Mild (uptimeOn tz slots day) (dayImpact (h.incidentsOf id) now day) ∨
            ∃ m' ∈ windows, m'.startsAt < m'.endsAt ∧ m'.startsAt ≤ now ∧ since < m'.endsAt ∧
              affects m'.component id = true ∧ day.overlaps m'.startsAt m'.endsAt = true) := by
  intro windows since h
  have hdays : h.days = strip tz now := rfl
  rw [NoTrace, pastDays_live_iff, componentBars_live_iff, hdays]
  constructor
  · rintro ⟨hlisted, hbars⟩ m hm hoff hstarted hended
    refine ⟨fun day hday => ?_, fun haffects day hday hoverlaps => ?_⟩
    · rw [Bool.eq_false_iff]
      intro hcontains
      have hlive : m.startsAt < m.endsAt :=
        hlisted day hday m (mem_maintenance.mpr ⟨hm, hstarted, hended⟩) (by
          rw [Maintenance.listedOn, hcontains, Bool.true_and]
          exact decide_eq_true hstarted)
      exact absurd hlive (not_lt.mpr hoff)
    · refine (hbars day hday).imp_right fun hlive => ?_
      obtain ⟨m', hm', hlive', hoverlaps'⟩ :=
        hlive m (mem_windowsOf.mpr ⟨hm, hstarted, hended, haffects⟩) hoverlaps
      obtain ⟨hmem, hstarted', hended', haffects'⟩ := mem_windowsOf.mp hm'
      exact ⟨m', hmem, hlive', hstarted', hended', haffects', hoverlaps'⟩
  · intro hoff
    refine ⟨fun day hday m hm hlisted => ?_, fun day hday => ?_⟩
    · obtain ⟨hmem, hstarted, hended⟩ := mem_maintenance.mp hm
      by_contra hdead
      have hnot := (hoff m hmem (not_lt.mp hdead) hstarted hended).1 day hday
      rw [Maintenance.listedOn, hnot, Bool.false_and] at hlisted
      exact absurd hlisted Bool.false_ne_true
    · by_cases hmild : Mild (uptimeOn tz slots day) (dayImpact (h.incidentsOf id) now day)
      · refine .inr fun m hm hoverlaps => ?_
        obtain ⟨hmem, hstarted, hended, haffects⟩ := mem_windowsOf.mp hm
        by_cases hlive : m.Live
        · exact ⟨m, hm, hlive, hoverlaps⟩
        · obtain hworse | ⟨m', hm', hlive', hstarted', hended', haffects', hoverlaps'⟩ :=
            (hoff m hmem (not_lt.mp hlive) hstarted hended).2 haffects day hday hoverlaps
          · exact absurd hmild hworse
          · exact ⟨m', mem_windowsOf.mpr ⟨hm', hstarted', hended', haffects'⟩, hlive', hoverlaps'⟩
      · exact .inl hmild

/-- A window planned for two in the morning of the hundredth day, and ended a minute later. -/
def droppedPlan : List WindowOp :=
  [.create "" "" (100 * 86400 + 7200) (100 * 86400 + 10800) (100 * 86400),
    .finish 1 (100 * 86400 + 60)]

def droppedWindow : Maintenance where
  id := 1
  component := ""
  note := ""
  startsAt := 100 * 86400 + 7200
  endsAt := 100 * 86400 + 60
  createdAt := 100 * 86400
  scheduledSent := false
  startedSent := false
  completedSent := false

/-- **A window that was called off is listed as completed**, once its start has come. -/
theorem traced :
    ¬∀ (text : PageText) (o : HistoryOrder) (cfg : Config) (tz : Tz) (subs : Subs)
      (ops : List WindowOp) (incidents : List Incident) (id : String) (slots : List Slot) (now : ℤ),
      (ops.map WindowOp.time).Pairwise (· ≤ ·) → (∀ op ∈ ops, op.time ≤ now) →
      NoTrace text cfg tz (History.load o tz incidents (WindowOp.windows subs ops) now) id slots
        now := by
  intro h
  have hnone := (h ⟨fun _ _ => "", fun _ => ""⟩ ⟨.stable _, .stable _⟩ {} spring .empty
    droppedPlan [] "web" [] (100 * 86400 + 10000) (by decide) (by decide)).1
  rw [pastDays_live_iff] at hnone
  have hday : Day.on spring 100 ∈
      (strip spring (100 * 86400 + 10000)).reverse.take pastDayCount := by
    rw [listed_eq]
    exact List.mem_map.mpr ⟨0, by decide, congrArg (Day.on spring) (by decide)⟩
  have hmem : droppedWindow ∈ (History.load ⟨.stable _, .stable _⟩ spring []
      (WindowOp.windows .empty droppedPlan) (100 * 86400 + 10000)).maintenance := by
    refine mem_maintenance.mpr ⟨by decide, by decide, ?_⟩
    rw [stripFrom_strip]
    decide +kernel
  exact absurd (hnone _ hday _ hmem (by decide +kernel)) (by decide)

end Dunlin

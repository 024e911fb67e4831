import Dunlin.DayTiling
import Dunlin.Lib.Run
import Dunlin.Rollup

/-!
# Retention of check results

The end of `run_once` in `rollup.rs`, which drops old rows of `check_results`, next to the strip of
days that the status page counts from the same table. Retention counts days of 86 400 s back from
`now`; the strip counts local dates back from the date of a later `now`. `resultDays` keeps one day
more than the strip has, and `strip_retained` is that this is enough.

The assumption on the zone is `Steady`. What `run_once` drops from the tables of sessions and of
subscribers afterwards is left out.

`Steady` is what real zones do: their offsets differ by hours. Without it ninety local dates could
take longer than retention allows for.

## Main results

* `Tz.Steady.cutoff_le` — the strip begins after the cutoff of a rollup
* `KeptSince.step` — an operation loses nothing that is late enough
* `strip_retained` — a day on the strip keeps its results, in every run
-/

namespace Dunlin

open Lib

/-- Over the days of a strip the offset changes by less than a day. -/
def Tz.Steady (tz : Tz) : Prop :=
  ∀ ts ts', ts ≤ ts' → ts' ≤ ts + 91 * 86400 → |tz.offset ts' - tz.offset ts| < 86400

/-- Days of probe results to keep. -/
def resultDays (hourlyDays : ℕ) : ℤ := (max hourlyDays stripDays : ℕ) + 1

/-- The slots that a component of the status page is computed from. -/
def dailySlots (tz : Tz) (results : List CheckResult) (checkId : String) (now : ℤ) : List Slot :=
  uptimeSlots results checkId (stripFrom (strip tz now) now)

/-- The tables of the metrics and of the checks, and what has ever been stored in the second. -/
structure Tables where
  metrics : Metrics
  results : List CheckResult
  stored : List CheckResult

namespace Tables

def empty : Tables := ⟨.empty, [], []⟩

/-- The tables of the metrics. -/
def metricsPart : Prog.Part Tables Metrics where
  get := metrics
  set s metrics := { s with metrics }
  get_set _ _ := rfl
  set_set _ _ _ := rfl
  set_get _ := rfl

/-! ### Statements -/

def insertCheckResult (r : CheckResult) (s : Tables) : Tables :=
  { s with results := s.results ++ [r], stored := s.stored ++ [r] }

def pruneCheckResultsBefore (cutoff : ℤ) (s : Tables) : Tables :=
  { s with results := s.results.filter fun r => !decide (r.ts < cutoff) }

end Tables

/-! ### Programs -/

namespace Tables

def runOnce (now : ℤ) (rawDays hourlyDays : ℕ) : Prog Tables Unit := do
  (Dunlin.runOnce now rawDays hourlyDays).prog.lift metricsPart
  Prog.exec (pruneCheckResultsBefore (now - resultDays hourlyDays * 86400))

/-- One call, with the statements that fail. -/
inductive Op
  | insert (r : CheckResult) (faults : List Bool)
  | runOnce (now : ℤ) (rawDays hourlyDays : ℕ) (faults : List Bool)

namespace Op

def step (s : Tables) : Op → Tables
  | .insert r faults => ((Prog.exec (insertCheckResult r)).run faults s).state
  | .runOnce now rawDays hourlyDays faults =>
    ((Tables.runOnce now rawDays hourlyDays).run faults s).state

/-- A rollup is not after some time. -/
def NotAfter (later : ℤ) : Op → Prop
  | .insert .. => True
  | .runOnce now .. => now ≤ later

instance (later : ℤ) : DecidablePred (NotAfter later) := fun op => by
  cases op <;> unfold NotAfter <;> infer_instance

end Op

/-- No result from `since` on is missing. -/
def KeptSince (since : ℤ) (s : Tables) : Prop :=
  s.results.filter (fun r => since ≤ r.ts) = s.stored.filter fun r => since ≤ r.ts

/-! ### What a rollup drops -/

section Rollup

variable {now since : ℤ} {hourlyDays : ℕ}

/-- A rollup drops what is past retention, or fails before it comes to that. -/
theorem wp_runOnce (s : Tables) (now : ℤ) (rawDays hourlyDays : ℕ) :
    (Tables.runOnce now rawDays hourlyDays).wp (fun _ s' =>
      s'.stored = s.stored ∧ (s'.results = s.results ∨ s'.results = s.results.filter fun r =>
        !decide (r.ts < now - resultDays hourlyDays * 86400))) s := by
  rw [Tables.runOnce, Prog.bind_eq, Prog.wp_bind, Prog.wp_lift]
  refine Prog.wp_mono (Q := fun _ _ => True) ?_ fun r metrics _ => ?_
  · exact Prog.wp_true _ _
  · cases r with
    | none => exact ⟨rfl, .inl rfl⟩
    | some _ =>
      rw [Prog.after_some, Prog.wp_exec]
      exact ⟨⟨rfl, .inr rfl⟩, rfl, .inl rfl⟩

/-- What is late enough stays. -/
theorem filter_runOnce (s : Tables) (rawDays : ℕ) (faults : List Bool)
    (h : now - resultDays hourlyDays * 86400 ≤ since) :
    ((Tables.runOnce now rawDays hourlyDays).run faults s).state.results.filter
      (fun r => since ≤ r.ts) = s.results.filter fun r => since ≤ r.ts := by
  obtain ⟨-, hsame | hpruned⟩ := Prog.wp_run (wp_runOnce s now rawDays hourlyDays) faults
  · rw [hsame]
  · rw [hpruned, List.filter_filter]
    refine List.filter_congr fun r _ => ?_
    by_cases hsince : since ≤ r.ts
    · have hlt : ¬r.ts < now - resultDays hourlyDays * 86400 := by omega
      simp [hsince, hlt]
    · simp [hsince]

end Rollup

end Tables

/-! ### The strip -/

section Strip

variable {tz : Tz} {now later since ts : ℤ} {n : ℕ}

/-- The 90 local days of a strip begin less than 91 days of 86 400 s ago. -/
theorem Tz.Steady.lt_startOf (h : tz.Steady) (now : ℤ) :
    now - 91 * 86400 < startOf tz (dateOf tz now - 89) := by
  refine Dunlin.lt_startOf ?_
  have hsteady := abs_lt.mp (h (now - 91 * 86400) now (by omega) (by omega))
  unfold dateOf Tz.wall
  omega

/-- One day more than the strip has covers every offset and every time of the day. -/
theorem Tz.Steady.cutoff_le (h : tz.Steady) (hlater : now ≤ later) (hourlyDays : ℕ) :
    now - resultDays hourlyDays * 86400 ≤ stripFrom (strip tz later) later := by
  have hstart := h.lt_startOf later
  have hdays : 91 ≤ resultDays hourlyDays := by
    rw [resultDays, stripDays]
    omega
  rw [stripFrom_strip]
  omega

/-- The days of a strip come after its start. -/
theorem stripFrom_le {day : Day} (hday : day ∈ strip tz now) (hts : day.contains ts = true) :
    stripFrom (strip tz now) now ≤ ts := by
  rw [strip, lastDays_eq, List.mem_reverse, List.mem_map] at hday
  obtain ⟨date, hdate, rfl⟩ := hday
  have hmem := mem_stripDates.mp hdate
  rw [stripFrom_strip]
  calc startOf tz (dateOf tz now - 89)
      ≤ startOf tz date := startOf_mono tz (by unfold stripDays at hmem; omega)
    _ ≤ ts := (contains_on_iff.mp hts).1

end Strip

namespace Tables

variable {tz : Tz} {s : Tables} {since later : ℤ} {op : Op}

theorem KeptSince.step (h : s.KeptSince since) (hsince : stripFrom (strip tz later) later ≤ since)
    (hsteady : tz.Steady) (hop : op.NotAfter later) : (op.step s).KeptSince since := by
  cases op with
  | insert r faults =>
    have hwp : (Prog.exec (insertCheckResult r)).wp (fun _ s' => s'.KeptSince since) s := by
      rw [Prog.wp_exec]
      refine ⟨?_, h⟩
      show (s.results ++ [r]).filter _ = (s.stored ++ [r]).filter _
      rw [List.filter_append, List.filter_append, h]
    exact Prog.wp_run hwp faults
  | runOnce now rawDays hourlyDays faults =>
    have hcut := (hsteady.cutoff_le hop hourlyDays).trans hsince
    have hstored := (Prog.wp_run (wp_runOnce s now rawDays hourlyDays) faults).1
    unfold KeptSince Op.step
    dsimp only
    rw [filter_runOnce s rawDays faults hcut, hstored]
    exact h

/-- Rollups up to some time keep everything that the strip of that time counts. -/
theorem keptSince_run (hsteady : tz.Steady) {ops : List Op}
    (hops : Always Op.step (fun _ op => op.NotAfter later) empty ops) :
    (Lib.run Op.step empty ops).KeptSince (stripFrom (strip tz later) later) :=
  hops.run_inv rfl fun _ _ h hop => h.step le_rfl hsteady hop

/-- What is kept since some time is kept of every later day. -/
theorem KeptSince.filter_eq (h : s.KeptSince since) {p : CheckResult → Bool}
    (hp : ∀ r, p r = true → since ≤ r.ts) : s.results.filter p = s.stored.filter p := by
  have hboth : ∀ l : List CheckResult, l.filter p = (l.filter fun r => since ≤ r.ts).filter p := by
    intro l
    rw [List.filter_filter]
    refine List.filter_congr fun r _ => ?_
    cases hr : p r with
    | false => rfl
    | true => simp [hp r hr]
  rw [hboth s.results, hboth s.stored, h]

end Tables

/-- **Retention never eats the strip.** In a zone whose offset varies by less than a day over any
91 days, a rollup drops no result of a day that is on the strip at its time or later. After any
calls with no rollup later than `later`, the strip's days hold all results ever stored for them, and
the bars and the figure are those of all results ever stored. -/
theorem strip_retained (tz : Tz) (hsteady : tz.Steady) (later : ℤ) :
    (∀ (s : Tables) (now : ℤ) (rawDays hourlyDays : ℕ) (faults : List Bool), now ≤ later →
      ∀ day ∈ strip tz later, ∀ r ∈ s.results, day.contains r.ts = true →
        r ∈ (Tables.Op.step s (.runOnce now rawDays hourlyDays faults)).results) ∧
    ∀ ops : List Tables.Op, Always Tables.Op.step (fun _ op => op.NotAfter later) .empty ops →
      let s := Lib.run Tables.Op.step .empty ops
      (∀ day ∈ strip tz later, s.results.filter (fun r => day.contains r.ts) =
        s.stored.filter fun r => day.contains r.ts) ∧
      ∀ checkId,
        uptimeBars tz (dailySlots tz s.results checkId later) (strip tz later) =
          uptimeBars tz (dailySlots tz s.stored checkId later) (strip tz later) ∧
        uptime90 (dailySlots tz s.results checkId later) =
          uptime90 (dailySlots tz s.stored checkId later) := by
  refine ⟨fun s now rawDays hourlyDays faults hlater day hday r hr hts => ?_, fun ops hops => ?_⟩
  · have hsince := stripFrom_le hday hts
    have hsame := Tables.filter_runOnce s rawDays faults
      (hsteady.cutoff_le hlater hourlyDays)
    have hmem : r ∈ s.results.filter fun r => stripFrom (strip tz later) later ≤ r.ts :=
      List.mem_filter.mpr ⟨hr, by simpa using hsince⟩
    rw [← hsame] at hmem
    exact (List.mem_filter.mp hmem).1
  · intro s
    have hkept : s.KeptSince (stripFrom (strip tz later) later) := Tables.keptSince_run hsteady hops
    have hslots : ∀ checkId,
        dailySlots tz s.results checkId later = dailySlots tz s.stored checkId later := by
      intro checkId
      have hrows : resultsSince s.results checkId (stripFrom (strip tz later) later) =
          resultsSince s.stored checkId (stripFrom (strip tz later) later) :=
        hkept.filter_eq fun r hr => of_decide_eq_true (Bool.and_eq_true_iff.mp hr).2
      unfold dailySlots uptimeSlots
      rw [hrows]
    refine ⟨fun day hday => hkept.filter_eq fun r hr => stripFrom_le hday hr, fun checkId => ?_⟩
    rw [hslots]
    exact ⟨rfl, rfl⟩

theorem steady_spring : spring.Steady := by
  intro ts ts' _ _
  simp only [spring]
  split <;> split <;> decide

/-- A good probe and a bad one, and two rollups that keep 30 and 200 days of hourly rows. -/
def probed : List Tables.Op :=
  [.insert ⟨4 * 86400 - 3600, "web", true⟩ [], .insert ⟨4 * 86400, "web", false⟩ [],
    .runOnce (94 * 86400) 7 30 [], .runOnce (94 * 86400 + 3600) 7 200 [true]]

theorem strip_retained_spring :
    let s := Lib.run Tables.Op.step .empty probed
    uptime90 (dailySlots spring s.results "web" (94 * 86400 + 3600)) =
      uptime90 (dailySlots spring s.stored "web" (94 * 86400 + 3600)) :=
  (((strip_retained spring steady_spring (94 * 86400 + 3600)).2 probed (by decide)).2 "web").2

end Dunlin

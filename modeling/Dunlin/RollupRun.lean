import Dunlin.Lib.Run
import Dunlin.Rollup

/-!
# The rollup among the insertions

`rollup_loop` is one task, and the samples come from others: `prober_loop` and the collectors call
`insert_samples` whenever a round of theirs is through. Every statement is awaited on its own, so
between two statements of a rollup there may be statements of any number of batches, and of each
batch only the first few. `MetricsTasks` has the tables and what is left of every call; a step makes
a call, executes the next statement of one, or ends the process.

## When a rollup loses nothing

A sample is lost if it is stored for an hour that a rollup has passed. The boundary that counts is
not only the recorded one. A rollup that is about to aggregate has chosen where to start, and one
that has aggregated is about to record its hour (`RollupTask.bound`); a sample from before either is
as late as one from before `lastRollup`. `Punctual` asks that of every statement, on the state
before it, and that a first rollup goes back to all samples there are. It is about what is stored
when, and not about the times of the calls: a batch may be as late as it likes as long as no rollup
has passed it.

Repeating a rollup changes nothing only if nobody has stored, behind its back, what it has just
dropped. `Punctual` leaves that out too.

## How a rollup stands

`Rollup.lean` says what each statement keeps of the tables (`Metrics.Sound`). What is added here is
what a rollup can rely on half way. `Standing` has a case for each place in the script, with what
the tables show for the statements before it: hours complete up to the start, then up to the hour,
then a recorded boundary, then tables that have nothing left to drop. A statement of a batch that is
in time keeps each of the cases (`Standing.insertSample`, `Standing.touchSeries`), and a statement
of the rollup takes one to the next (`Standing.move`).

## Main results

* `Standing.move` — the next statement of a rollup
* `Healthy.step` — one step of the system
* `rolled_up` — when a rollup loses nothing, in every run
* `loses_late` — a sample that is lost
-/

namespace Dunlin

open Lib Metrics

/-- A call of `run_once`. -/
structure RollupTask where
  now : ℤ
  retention : Retention
  /-- What is left of it. -/
  script : MetricsScript

namespace RollupTask

def start (now : ℤ) (retention : Retention) : RollupTask :=
  ⟨now, retention, runOnce now retention.rawDays retention.hourlyDays⟩

/-- The boundary that the call has chosen and not recorded: where it is about to start, or the hour
it has aggregated up to. -/
def bound (t : RollupTask) : Option ℤ :=
  match t.script.command? with
  | some (.rollupRange start _) => some start
  | some (.setLastRollup hour) => some hour
  | _ => none

/-- The time before which it drops raw samples and series. -/
def rawCutoff (t : RollupTask) : ℤ := t.now - t.retention.rawDays * 86400

/-- It has dropped raw samples and is about to drop from another table. -/
def droppedSamples (t : RollupTask) : Bool :=
  match t.script.command? with
  | some (.pruneSeriesBefore _) => true
  | some (.pruneHourlyBefore _) => true
  | _ => false

/-- It has dropped series, too. -/
def droppedSeries (t : RollupTask) : Bool :=
  match t.script.command? with
  | some (.pruneHourlyBefore _) => true
  | _ => false

end RollupTask

/-- The tables and the calls that share them. -/
structure MetricsTasks where
  tables : Metrics
  /-- The last call of `rollup_loop`, which makes one at a time. -/
  rollup : Option RollupTask
  /-- What is left of the calls of `insert_samples`, of the last one first. -/
  inserts : List MetricsScript

/-- One thing that happens; a statement may fail. -/
inductive MetricsStep
  | insert (now : ℤ) (samples : List Sample)
  /-- The next statement of a batch. -/
  | insertNext (i : ℕ) (fault : Bool)
  | rollUp (now : ℤ) (retention : Retention)
  /-- The next statement of the rollup. -/
  | rollUpNext (fault : Bool)
  /-- The process ends, in the middle of its calls, and is started again. -/
  | restart

namespace MetricsTasks

/-- A new process on an empty database. -/
def initial : MetricsTasks := ⟨.empty, none, []⟩

def step (s : MetricsTasks) : MetricsStep → MetricsTasks
  | .insert _ samples => { s with inserts := insertSamples samples :: s.inserts }
  | .insertNext i fault =>
    match s.inserts[i]? with
    | none => s
    | some script =>
      { s with
        tables := (script.move MetricsCmd.act fault s.tables).2
        inserts := s.inserts.set i (script.move MetricsCmd.act fault s.tables).1 }
  | .rollUp now retention =>
    if s.rollup.all (·.script.isOver) then { s with rollup := some (.start now retention) } else s
  | .rollUpNext fault =>
    match s.rollup with
    | none => s
    | some t =>
      { s with
        tables := (t.script.move MetricsCmd.act fault s.tables).2
        rollup := some { t with script := (t.script.move MetricsCmd.act fault s.tables).1 } }
  | .restart => { s with rollup := none, inserts := [] }

/-- A sample may be stored: no boundary has passed it, unless its hour is past retention anyway,
and samples of its age have not just been dropped. -/
def InTime (s : MetricsTasks) (x : Sample) : Prop :=
  ((∀ m ∈ s.tables.lastRollup, m ≤ x.ts) ∧ (∀ t ∈ s.rollup, ∀ m ∈ t.bound, m ≤ x.ts) ∨
      s.tables.cutoff.any (bucket x.ts < ·)) ∧
    ∀ t ∈ s.rollup, t.droppedSamples → t.rawCutoff ≤ x.ts

instance (s : MetricsTasks) (x : Sample) : Decidable (s.InTime x) :=
  inferInstanceAs (Decidable ((_ ∧ _ ∨ _) ∧ _))

/-- What is asked of the next statement of a call. -/
def Allows (s : MetricsTasks) : Option MetricsCmd → Prop
  | some (.insertSample x) => s.InTime x
  | some (.touchSeries x) => ∀ t ∈ s.rollup, t.droppedSeries → t.rawCutoff ≤ x.ts
  | some .getLastRollup => s.tables.lastRollup = none → ∀ t ∈ s.rollup,
      ∀ r ∈ s.tables.samples.rows,
        hourStart t.now - 7200 ≤ r.1.1 ∨ s.tables.cutoff.any (bucket r.1.1 < ·)
  | _ => True

instance (s : MetricsTasks) : DecidablePred s.Allows := fun command => by
  unfold Allows
  split <;> infer_instance

end MetricsTasks

namespace MetricsStep

/-- Samples are stamped with the time their round began, a Unix time. -/
def Stamped : MetricsStep → Prop
  | .insert now samples => ∀ x ∈ samples, 0 ≤ x.ts ∧ x.ts ≤ now
  | _ => True

instance : DecidablePred Stamped := fun op => by
  cases op <;> unfold Stamped <;> infer_instance

/-- No rollup, recorded or in progress, passes a sample before it is stored. -/
def Punctual (s : MetricsTasks) : MetricsStep → Prop
  | .insertNext i false => s.Allows (s.inserts[i]?.bind (·.command?))
  | .rollUpNext false => s.Allows (s.rollup.bind (·.script.command?))
  | _ => True

instance (s : MetricsTasks) : DecidablePred (Punctual s) := fun op => by
  unfold Punctual
  split <;> infer_instance

/-- The time of a call. -/
def time? : MetricsStep → Option ℤ
  | .insert now _ => some now
  | .rollUp now _ => some now
  | _ => none

end MetricsStep

/-- What a rollup that ends well owes: complete hours, and nothing left to do at the same time. -/
def RolledUp (s : MetricsTasks) : MetricsStep → Prop
  | .rollUpNext fault => ∀ t ∈ s.rollup, t.script.isOver = false →
      (t.script.move MetricsCmd.act fault s.tables).1.result? = some () →
      let tables := (t.script.move MetricsCmd.act fault s.tables).2
      tables.Complete (hourStart t.now) ∧
        ((runOnce t.now t.retention.rawDays t.retention.hourlyDays).prog.run [] tables).state =
          tables
  | _ => True

/-! ### What is left of a rollup -/

namespace Metrics

section Standing

variable {s : Metrics} {x : Sample} {c m now : ℤ} {retention : Retention}
  {script : MetricsScript}

/-- A rollup that has only hourly rows to drop. -/
def droppingHourly (now : ℤ) (retention : Retention) : MetricsScript :=
  Script.exec (.pruneHourlyBefore (now - retention.hourlyDays * 86400))

/-- A rollup that has dropped raw samples. -/
def droppingSeries (now : ℤ) (retention : Retention) : MetricsScript := do
  Script.exec (.pruneSeriesBefore (now - retention.rawDays * 86400))
  droppingHourly now retention

/-- A rollup that has aggregated. -/
def dropping (now : ℤ) (retention : Retention) : MetricsScript := do
  Script.exec (.pruneSamplesBefore (now - retention.rawDays * 86400))
  droppingSeries now retention

/-- A rollup that has written the aggregates. -/
def marking (now : ℤ) (retention : Retention) : MetricsScript := do
  Script.exec (.setLastRollup (hourStart now))
  dropping now retention

/-- A rollup that has chosen where to start. -/
def aggregating (start now : ℤ) (retention : Retention) : MetricsScript := do
  Script.exec (.rollupRange start (hourStart now))
  marking now retention

/-- The hours before `now` are recorded as aggregated. -/
def Marked (now : ℤ) (s : Metrics) : Prop := ∃ m, s.lastRollup = some m ∧ hourStart now ≤ m

/-- Nothing in the raw samples is older than `c`, and it has been seen to. -/
def SamplesClear (c : ℤ) (s : Metrics) : Prop := pruneSamplesBefore c s = s

def SeriesClear (c : ℤ) (s : Metrics) : Prop := pruneSeriesBefore c s = s

/-- What is left of a rollup, and what the tables show for what it has done. -/
inductive Standing (now : ℤ) (retention : Retention) (s : Metrics) : MetricsScript → Prop
  | reading : Standing now retention s (runOnce now retention.rawDays retention.hourlyDays)
  | aggregating {start : ℤ} (aligned : 3600 ∣ start) (complete : s.Complete start) :
    Standing now retention s (aggregating start now retention)
  | marking (complete : s.Complete (hourStart now)) :
    Standing now retention s (marking now retention)
  | dropping (marked : s.Marked now) : Standing now retention s (dropping now retention)
  | droppingSeries (marked : s.Marked now)
    (samples : s.SamplesClear (now - retention.rawDays * 86400)) :
    Standing now retention s (droppingSeries now retention)
  | droppingHourly (marked : s.Marked now)
    (samples : s.SamplesClear (now - retention.rawDays * 86400))
    (series : s.SeriesClear (now - retention.rawDays * 86400)) :
    Standing now retention s (droppingHourly now retention)
  | ended {script : MetricsScript} (finished : script.isOver = true) :
    Standing now retention s script

/-! ### What a batch leaves of a rollup -/

theorem samplesClear_iff : s.SamplesClear c ↔
    (s.samples.delete fun k _ => k.1 < c) = s.samples ∧
      some (s.cutoff.elim c (max · c)) = s.cutoff := by
  rw [SamplesClear, pruneSamplesBefore]
  cases s
  simp

theorem seriesClear_iff :
    s.SeriesClear c ↔ (s.series.delete fun _ lastTs => lastTs < c) = s.series := by
  rw [SeriesClear, pruneSeriesBefore]
  cases s
  simp

theorem SamplesClear.insertSample (h : s.SamplesClear c) (hx : c ≤ x.ts) :
    (insertSample x s).SamplesClear c := by
  rw [samplesClear_iff] at h ⊢
  refine ⟨Keyed.delete_upsert h.1 fun _ => ?_, h.2⟩
  simpa using hx

theorem SamplesClear.touchSeries (h : s.SamplesClear c) : (touchSeries x s).SamplesClear c := by
  rw [samplesClear_iff] at h ⊢
  exact h

theorem SeriesClear.insertSample (h : s.SeriesClear c) : (insertSample x s).SeriesClear c := by
  rw [seriesClear_iff] at h ⊢
  exact h

theorem SeriesClear.touchSeries (h : s.SeriesClear c) (hx : c ≤ x.ts) :
    (touchSeries x s).SeriesClear c := by
  rw [seriesClear_iff] at h ⊢
  refine Keyed.delete_upsert h fun old => ?_
  cases old with
  | none => exact decide_eq_false (Int.not_lt.mpr hx)
  | some ts => exact decide_eq_false (Int.not_lt.mpr (Int.le_trans hx (Int.le_max_right _ _)))

/-- **A sample that is in time** leaves a rollup where it stands. -/
theorem Standing.insertSample {t : RollupTask} (h : Standing t.now t.retention s t.script)
    (hnonneg : 0 ≤ x.ts)
    (hbound : (∀ m ∈ t.bound, m ≤ x.ts) ∨ s.cutoff.any (bucket x.ts < ·))
    (hdropped : t.droppedSamples → t.rawCutoff ≤ x.ts) :
    Standing t.now t.retention (insertSample x s) t.script := by
  obtain ⟨now, retention, script⟩ := t
  replace h : Standing now retention s script := h
  cases h with
  | reading => exact .reading
  | aggregating aligned complete =>
    exact .aggregating aligned (complete.insertSample hnonneg (hbound.imp_left (· _ rfl)))
  | marking complete =>
    exact .marking (complete.insertSample hnonneg (hbound.imp_left (· _ rfl)))
  | dropping marked => exact .dropping marked
  | droppingSeries marked samples =>
    exact .droppingSeries marked (samples.insertSample (hdropped rfl))
  | droppingHourly marked samples series =>
    exact .droppingHourly marked (samples.insertSample (hdropped rfl)) series.insertSample
  | ended finished => exact .ended finished

/-- So does noting its series. -/
theorem Standing.touchSeries {t : RollupTask} (h : Standing t.now t.retention s t.script)
    (hdropped : t.droppedSeries → t.rawCutoff ≤ x.ts) :
    Standing t.now t.retention (touchSeries x s) t.script := by
  obtain ⟨now, retention, script⟩ := t
  replace h : Standing now retention s script := h
  cases h with
  | reading => exact .reading
  | aggregating aligned complete => exact .aggregating aligned complete
  | marking complete => exact .marking complete
  | dropping marked => exact .dropping marked
  | droppingSeries marked samples =>
    exact .droppingSeries marked samples.touchSeries
  | droppingHourly marked samples series =>
    exact .droppingHourly marked samples.touchSeries (series.touchSeries (hdropped rfl))
  | ended finished => exact .ended finished

/-! ### The next statement of a rollup -/

theorem Sound.dvd_rollupStart (h : s.Sound) : 3600 ∣ rollupStart now s := by
  have hnow := dvd_hourStart now
  rw [rollupStart]
  cases hlast : s.lastRollup with
  | none =>
    rw [Option.getD_none]
    omega
  | some m =>
    have hm := h.aligned m hlast
    rw [Option.getD_some]
    omega

/-- Up to where a rollup starts, the hours are complete already. -/
theorem Sound.complete_rollupStart (h : s.Sound)
    (hall : s.lastRollup = none → ∀ r ∈ s.samples.rows,
      hourStart now - 7200 ≤ r.1.1 ∨ s.cutoff.any (bucket r.1.1 < ·)) :
    s.Complete (rollupStart now s) := by
  cases hlast : s.lastRollup with
  | some m =>
    refine (h.complete m hlast).mono ?_
    rw [rollupStart, hlast]
    exact Int.min_le_left _ _
  | none =>
    intro hour series hdvd hle hret
    have hret' : s.Retained hour := hret
    have hstart : rollupStart now s ≤ hourStart now - 7200 := by
      rw [rollupStart, hlast]
      exact Int.min_le_left _ _
    have hnil : rowsIn s.samples.rows (hour, series) = [] := by
      rw [List.eq_nil_iff_forall_not_mem]
      intro r hr
      obtain ⟨hr, hg⟩ := mem_rowsIn.mp hr
      obtain ⟨hb, -⟩ := Prod.mk.inj hg
      have hlt := lt_bucket_add (h := h.nonneg r hr)
      rcases hall hlast r hr with hpast | hpast
      · omega
      · cases hc : s.cutoff with
        | none => simp [hc] at hpast
        | some c =>
          simp only [Retained, hc, Option.any_some, Option.all_some,
            decide_eq_true_eq] at hpast hret'
          omega
    have hnil' : rowsIn s.stored.rows (hour, series) = [] := h.same hour series hret ▸ hnil
    rw [h.backed hour series hdvd hret hnil', valuesIn, hnil']
    rfl

/-- A rollup that has nothing to aggregate finds its hour recorded. -/
theorem marked_of_not_lt (h : ¬rollupStart now s < hourStart now) : s.Marked now := by
  unfold rollupStart at h
  cases hlast : s.lastRollup with
  | none =>
    rw [hlast, Option.getD_none] at h
    omega
  | some m =>
    rw [hlast, Option.getD_some] at h
    exact ⟨m, hlast, by omega⟩

/-- Where a rollup at `now` stands after it has read the boundary. -/
theorem Sound.standing_start (h : s.Sound)
    (hall : s.lastRollup = none → ∀ r ∈ s.samples.rows,
      hourStart now - 7200 ≤ r.1.1 ∨ s.cutoff.any (bucket r.1.1 < ·)) :
    Standing now retention s ((runOnce now retention.rawDays retention.hourlyDays).move
      MetricsCmd.act false s).1 := by
  show Standing now retention s (if rollupStart now s < hourStart now then
    Metrics.aggregating (rollupStart now s) now retention else Metrics.dropping now retention)
  split
  · exact .aggregating h.dvd_rollupStart (h.complete_rollupStart hall)
  · rename_i hnot
    exact .dropping (marked_of_not_lt hnot)

/-- Raw samples are dropped up to where nothing is left of them. -/
theorem SamplesClear.any_cutoff (h : s.SamplesClear c) : s.cutoff.any (c ≤ ·) = true := by
  rw [← (samplesClear_iff.mp h).2]
  cases s.cutoff <;> simp

theorem samplesClear_pruneSamplesBefore : (pruneSamplesBefore c s).SamplesClear c := by
  rw [samplesClear_iff]
  refine ⟨Keyed.delete_delete (t := s.samples) fun k _ => decide (k.1 < c), ?_⟩
  cases hc : s.cutoff <;> simp [pruneSamplesBefore, hc]

theorem SamplesClear.pruneSeriesBefore (h : s.SamplesClear c) :
    (pruneSeriesBefore m s).SamplesClear c := by
  rw [samplesClear_iff] at h ⊢
  exact h

theorem seriesClear_pruneSeriesBefore : (pruneSeriesBefore c s).SeriesClear c :=
  seriesClear_iff.mpr (Keyed.delete_delete (t := s.series) fun _ lastTs => decide (lastTs < c))

/-- Hourly rows are kept longer than raw samples. -/
theorem Sound.pruneHourlyBefore_of_clear (h : s.Sound)
    (hclear : s.SamplesClear (now - retention.rawDays * 86400)) :
    (Metrics.pruneHourlyBefore (now - retention.hourlyDays * 86400) s).Sound := by
  refine h.pruneHourlyBefore ?_
  have hcut := hclear.any_cutoff
  have hdays := retention.rawDays_le
  cases hc : s.cutoff with
  | none => simp [hc] at hcut
  | some c =>
    simp only [hc, Option.any_some, decide_eq_true_eq] at hcut ⊢
    omega

/-- **The next statement of a rollup** keeps the tables sound and takes the rollup on. -/
theorem Standing.move (h : Standing now retention s script) (hs : s.Sound) (fault : Bool)
    (hall : fault = false → script.command? = some .getLastRollup → s.lastRollup = none →
      ∀ r ∈ s.samples.rows, hourStart now - 7200 ≤ r.1.1 ∨ s.cutoff.any (bucket r.1.1 < ·)) :
    (script.move MetricsCmd.act fault s).2.Sound ∧
      Standing now retention (script.move MetricsCmd.act fault s).2
        (script.move MetricsCmd.act fault s).1 := by
  by_cases hover : script.isOver = true
  · rw [Script.move_of_isOver hover]
    exact ⟨hs, .ended hover⟩
  cases fault with
  | true =>
    -- Every statement of a rollup is followed by `?`.
    cases h with
    | ended finished => exact absurd finished hover
    | _ => exact ⟨hs, .ended rfl⟩
  | false =>
    cases h with
    | reading => exact ⟨hs, hs.standing_start (hall rfl rfl)⟩
    | aggregating aligned complete =>
      exact ⟨hs.rollupRange aligned (dvd_hourStart now),
        .marking (hs.complete_rollupRange aligned (dvd_hourStart now) complete)⟩
    | marking complete =>
      exact ⟨hs.setLastRollup (dvd_hourStart now) complete,
        .dropping ⟨hourStart now, rfl, Int.le_refl _⟩⟩
    | dropping marked =>
      exact ⟨hs.pruneSamplesBefore, .droppingSeries marked samplesClear_pruneSamplesBefore⟩
    | droppingSeries marked samples =>
      exact ⟨hs.pruneSeriesBefore, .droppingHourly marked samples.pruneSeriesBefore
        seriesClear_pruneSeriesBefore⟩
    | droppingHourly marked samples series =>
      exact ⟨hs.pruneHourlyBefore_of_clear samples, .ended rfl⟩
    | ended finished => exact absurd finished hover

/-- Tables whose raw part has nothing left to drop stay as they are when everything past retention
is dropped again. -/
theorem pruned_pruneHourlyBefore (hsamples : s.SamplesClear (now - retention.rawDays * 86400))
    (hseries : s.SeriesClear (now - retention.rawDays * 86400)) :
    pruned now retention.rawDays retention.hourlyDays
        (pruneHourlyBefore (now - retention.hourlyDays * 86400) s) =
      pruneHourlyBefore (now - retention.hourlyDays * 86400) s := by
  have hboth : Metrics.pruneSeriesBefore (now - retention.rawDays * 86400)
      (Metrics.pruneSamplesBefore (now - retention.rawDays * 86400) s) = s := by
    rw [show Metrics.pruneSamplesBefore _ s = s from hsamples]
    exact hseries
  calc pruned now retention.rawDays retention.hourlyDays
        (pruneHourlyBefore (now - retention.hourlyDays * 86400) s)
      = pruneHourlyBefore (now - retention.hourlyDays * 86400)
          (pruneHourlyBefore (now - retention.hourlyDays * 86400)
            (Metrics.pruneSeriesBefore (now - retention.rawDays * 86400)
              (Metrics.pruneSamplesBefore (now - retention.rawDays * 86400) s))) := rfl
    _ = pruneHourlyBefore (now - retention.hourlyDays * 86400)
          (pruneHourlyBefore (now - retention.hourlyDays * 86400) s) := by rw [hboth]
    _ = pruneHourlyBefore (now - retention.hourlyDays * 86400) s := by
      unfold pruneHourlyBefore
      simp only [Keyed.delete_delete (t := s.hourly)
        fun k _ => decide (k.1 < now - retention.hourlyDays * 86400)]

/-- **A rollup that ends well** leaves complete hours and nothing to do at the same time. -/
theorem Standing.rolledUp (h : Standing now retention s script) (hs : s.Sound) {fault : Bool}
    (hgoes : script.isOver = false)
    (hok : (script.move MetricsCmd.act fault s).1.result? = some ()) :
    (script.move MetricsCmd.act fault s).2.Complete (hourStart now) ∧
      ((runOnce now retention.rawDays retention.hourlyDays).prog.run []
        (script.move MetricsCmd.act fault s).2).state =
          (script.move MetricsCmd.act fault s).2 := by
  cases fault with
  | true =>
    cases h with
    | ended finished => simp [finished] at hgoes
    | _ => cases hok
  | false =>
    cases h with
    | droppingHourly marked samples series =>
      obtain ⟨m, hm, hle⟩ := marked
      have hsound := hs.pruneHourlyBefore_of_clear samples
      have hlast : (pruneHourlyBefore (now - retention.hourlyDays * 86400) s).lastRollup =
        some m := hm
      refine ⟨(hsound.complete m hlast).mono hle, ?_⟩
      exact (run_runOnce hlast hle).trans (pruned_pruneHourlyBefore samples series)
    | reading =>
      -- The script goes on after each of the other statements.
      replace hok : Script.result? (if rollupStart now s < hourStart now then
        Metrics.aggregating (rollupStart now s) now retention
        else Metrics.dropping now retention) = some () := hok
      split at hok <;> cases hok
    | aggregating | marking | dropping | droppingSeries => cases hok
    | ended finished => simp [finished] at hgoes

end Standing

/-! ### What is left of a batch -/

section Inserting

variable {s : Metrics} {script : MetricsScript}

/-- What is left of a batch of stamped samples. -/
inductive Inserting : MetricsScript → Prop
  | batch {samples : List Sample} (nonneg : ∀ x ∈ samples, 0 ≤ x.ts) :
    Inserting (insertSamples samples)
  | touching (x : Sample) {samples : List Sample} (nonneg : ∀ x ∈ samples, 0 ≤ x.ts) :
    Inserting (do
      Script.exec (.touchSeries x)
      insertSamples samples)
  | gaveUp : Inserting .fail

/-- What a statement of a batch does, if it does anything. -/
inductive Inserts (command : Option MetricsCmd) (s : Metrics) : Metrics → Prop
  | nothing : Inserts command s s
  | sample {x : Sample} (next : command = some (.insertSample x)) (nonneg : 0 ≤ x.ts) :
    Inserts command s (insertSample x s)
  | series {x : Sample} (next : command = some (.touchSeries x)) :
    Inserts command s (touchSeries x s)

theorem Inserting.move (h : Inserting script) (fault : Bool) (s : Metrics) :
    Inserting (script.move MetricsCmd.act fault s).1 ∧
      (fault = true ∧ (script.move MetricsCmd.act fault s).2 = s ∨
        fault = false ∧ Inserts script.command? s (script.move MetricsCmd.act fault s).2) := by
  cases h with
  | gaveUp =>
    refine ⟨.gaveUp, ?_⟩
    cases fault with
    | true => exact .inl ⟨rfl, rfl⟩
    | false => exact .inr ⟨rfl, .nothing⟩
  | touching x nonneg =>
    cases fault with
    | true => exact ⟨.gaveUp, .inl ⟨rfl, rfl⟩⟩
    | false => exact ⟨.batch nonneg, .inr ⟨rfl, .series rfl⟩⟩
  | @batch samples nonneg =>
    cases samples with
    | nil =>
      refine ⟨.batch nonneg, ?_⟩
      cases fault with
      | true => exact .inl ⟨rfl, rfl⟩
      | false => exact .inr ⟨rfl, .nothing⟩
    | cons x samples =>
      rw [List.forall_mem_cons] at nonneg
      cases fault with
      | true => exact ⟨.gaveUp, .inl ⟨rfl, rfl⟩⟩
      | false => exact ⟨.touching x nonneg.2, .inr ⟨rfl, .sample rfl nonneg.1⟩⟩

end Inserting

end Metrics

/-! ### Runs -/

namespace MetricsTasks

variable {s : MetricsTasks} {op : MetricsStep}

/-- What holds after every step. -/
structure Healthy (s : MetricsTasks) : Prop where
  sound : s.tables.Sound
  rollup : ∀ t ∈ s.rollup, Standing t.now t.retention s.tables t.script
  inserts : ∀ script ∈ s.inserts, Inserting script

theorem healthy_initial : initial.Healthy where
  sound := sound_empty
  rollup _ ht := by cases ht
  inserts _ hscript := by cases hscript

theorem Healthy.insertNext (h : s.Healthy) {i : ℕ} {fault : Bool}
    (hp : (MetricsStep.insertNext i fault).Punctual s) :
    (s.step (.insertNext i fault)).Healthy := by
  unfold step
  dsimp only
  split
  · exact h
  · rename_i script hi
    obtain ⟨hinserting, hmove⟩ := (h.inserts script (List.mem_of_getElem? hi)).move fault s.tables
    have hinserts : ∀ script' ∈ s.inserts.set i (script.move MetricsCmd.act fault s.tables).1,
        Inserting script' := by
      intro script' hmem
      rcases List.mem_or_eq_of_mem_set hmem with hmem | rfl
      · exact h.inserts script' hmem
      · exact hinserting
    rcases hmove with ⟨-, hsame⟩ | ⟨rfl, hdone⟩
    · rw [hsame]
      exact ⟨h.sound, h.rollup, hinserts⟩
    · have hallows : s.Allows script.command? := by
        have hbind : (s.inserts[i]?.bind (·.command?)) = script.command? := by rw [hi]; rfl
        rw [← hbind]
        exact hp
      generalize (script.move MetricsCmd.act false s.tables).2 = tables at hdone
      cases hdone with
      | nothing => exact ⟨h.sound, h.rollup, hinserts⟩
      | @sample x next nonneg =>
        rw [next] at hallows
        obtain ⟨hpassed, hdropped⟩ : s.InTime x := hallows
        exact ⟨h.sound.insertSample nonneg (hpassed.imp_left And.left), fun t ht =>
          (h.rollup t ht).insertSample nonneg (hpassed.imp_left fun hp => hp.2 t ht)
            (hdropped t ht), hinserts⟩
      | @series x next =>
        rw [next] at hallows
        exact ⟨h.sound.touchSeries, fun t ht => (h.rollup t ht).touchSeries (hallows t ht),
          hinserts⟩

theorem Healthy.rollUpNext (h : s.Healthy) {fault : Bool}
    (hp : (MetricsStep.rollUpNext fault).Punctual s) :
    (s.step (.rollUpNext fault)).Healthy := by
  unfold step
  dsimp only
  split
  · exact h
  · rename_i t ht
    have hall : fault = false → t.script.command? = some .getLastRollup →
        s.tables.lastRollup = none → ∀ r ∈ s.tables.samples.rows,
          hourStart t.now - 7200 ≤ r.1.1 ∨ s.tables.cutoff.any (bucket r.1.1 < ·) := by
      rintro rfl hread hnone
      have hallows : s.Allows t.script.command? := by
        have hbind : (s.rollup.bind (·.script.command?)) = t.script.command? := by rw [ht]; rfl
        rw [← hbind]
        exact hp
      rw [hread] at hallows
      exact hallows hnone t ht
    obtain ⟨hsound, hstanding⟩ := (h.rollup t ht).move h.sound fault hall
    refine ⟨hsound, fun t' ht' => ?_, h.inserts⟩
    obtain rfl := Option.some.inj ht'
    exact hstanding

/-- **One step** keeps the tables sound and every call where it can be. -/
theorem Healthy.step (h : s.Healthy) (hs : op.Stamped) (hp : op.Punctual s) :
    (s.step op).Healthy := by
  cases op with
  | insert now samples =>
    refine ⟨h.sound, h.rollup, fun script hscript => ?_⟩
    rcases List.mem_cons.mp hscript with rfl | hscript
    · exact .batch fun x hx => (hs x hx).1
    · exact h.inserts script hscript
  | insertNext i fault => exact h.insertNext hp
  | rollUp now retention =>
    unfold MetricsTasks.step
    dsimp only
    split
    · refine ⟨h.sound, fun t ht => ?_, h.inserts⟩
      obtain rfl := Option.some.inj ht
      exact .reading
    · exact h
  | rollUpNext fault => exact h.rollUpNext hp
  | restart =>
    exact ⟨h.sound, fun t ht => (by cases ht), fun script hscript => (by cases hscript)⟩

/-- The step that ends a rollup. -/
theorem Healthy.rolledUp (h : s.Healthy) : RolledUp s op := by
  cases op with
  | rollUpNext fault => exact fun t ht hgoes hok => (h.rollup t ht).rolledUp h.sound hgoes hok
  | _ => trivial

end MetricsTasks

/-- Two batches whose statements alternate, a rollup that cannot record its boundary, and its retry
with a batch of the next hour in its middle. -/
def busyHour : List MetricsStep :=
  [.rollUp 100 sampleRetention] ++ List.replicate 6 (.rollUpNext false) ++
    [.insert 200 [load 200 10], .insertNext 0 false, .insert 3500 [load 3400 30],
      .insertNext 0 false, .insertNext 1 false, .insertNext 0 false,
      .rollUp 3600 sampleRetention, .rollUpNext false, .rollUpNext false, .rollUpNext true,
      .rollUp 3605 sampleRetention, .rollUpNext false, .rollUpNext false,
      .insert 3606 [load 3606 20], .insertNext 0 false, .rollUpNext false, .insertNext 0 false,
      .rollUpNext false, .rollUpNext false, .rollUpNext false]

/-- Samples of a round that began just before the hour, stored just after the rollup, up to the last
statement of the next rollup. -/
def late : List MetricsStep :=
  [.rollUp 100 sampleRetention] ++ List.replicate 6 (.rollUpNext false) ++
    [.rollUp 3600 sampleRetention] ++ List.replicate 6 (.rollUpNext false) ++
    [.insert 3601 [load 3599 10], .insertNext 0 false, .insertNext 0 false] ++
    [.rollUp 7200 sampleRetention] ++ List.replicate 5 (.rollUpNext false)

end Dunlin

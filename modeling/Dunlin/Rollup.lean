import Dunlin.Lib.Keyed
import Dunlin.Lib.Script
import Mathlib.Algebra.Order.Ring.Rat
import Mathlib.Data.List.Dedup

/-!
# Hourly aggregation

The model of `rollup.rs` and of the tables it works on. Raw samples are inserted in batches, each
stamped with the time its collection round began. Every hour `runOnce` aggregates the hours
completed since the last recorded boundary (`lastRollup`) into `hourly` and then drops what is past
retention.

Each statement of the two calls is awaited on its own, and the tasks that make the calls run side
by side. So the statements have names (`MetricsCmd`) and the calls are scripts, which
`RollupRun.lean` interleaves. A call with nothing in between is the program of its script.

Two fields of `Metrics` are no columns: `stored` keeps every sample ever inserted, and `cutoff` is
the newest time up to which raw samples have been dropped. They say what an hourly row should hold,
and for which hours. Values are exact rationals.

## What an hourly row should hold

`Complete` says that the hourly rows of the hours before a given one, within raw retention, are the
aggregates of all samples stored for them. `Sound` says it of the hours before the boundary, with
what else holds at every statement: no raw sample of a retained hour is missing, and an hourly row
has samples behind it. There is one lemma for each statement. The statement that needs something is
the insertion: a sample stamped before the boundary is stored and never aggregated.

## Main results

* `Sound.insertSample` — a sample that no boundary has passed
* `get?_rollupRange` — what a rollup of whole hours writes
* `wp_runOnce` — what a rollup with nothing in between leaves
-/

namespace Dunlin

open Lib

structure Series where
  scope : String
  metric : String
  key : String
  deriving DecidableEq, Repr

structure Sample where
  ts : ℤ
  scope : String
  metric : String
  key : String
  value : ℚ
  deriving DecidableEq, Repr

def Sample.series (s : Sample) : Series := ⟨s.scope, s.metric, s.key⟩

/-- The aggregates of an hour. -/
structure Hourly where
  min : ℚ
  avg : ℚ
  max : ℚ
  deriving DecidableEq, Repr

/-- `min(value), avg(value), max(value)` of a group, which is never empty. -/
def aggregate (values : List ℚ) : Option Hourly := do
  let min ← values.min?
  let max ← values.max?
  return ⟨min, values.sum / values.length, max⟩

/-- `[retention]`, past its checks. -/
structure Retention where
  rawDays : ℕ
  hourlyDays : ℕ
  rawDays_pos : 1 ≤ rawDays
  rawDays_le : rawDays ≤ hourlyDays

/-- The tables of the metrics, and what has ever been stored in them. -/
structure Metrics where
  samples : Keyed (ℤ × Series) ℚ
  series : Keyed Series ℤ
  hourly : Keyed (ℤ × Series) Hourly
  /-- The `last_rollup` entry of `meta`. -/
  lastRollup : Option ℤ
  stored : Keyed (ℤ × Series) ℚ
  cutoff : Option ℤ

/-- `(ts / 3600) * 3600`: integer division truncates. -/
def bucket (ts : ℤ) : ℤ := ts.tdiv 3600 * 3600

/-- `now.div_euclid(3600) * 3600`. -/
def hourStart (now : ℤ) : ℤ := now / 3600 * 3600

namespace Metrics

/-- The empty database. -/
def empty : Metrics := ⟨.empty, .empty, .empty, none, .empty, none⟩

/-- The samples of a series in an hour. -/
def rowsIn (rows : List ((ℤ × Series) × ℚ)) (g : ℤ × Series) : List ((ℤ × Series) × ℚ) :=
  rows.filter fun r => (bucket r.1.1, r.1.2) == g

/-- The values of a series in an hour. -/
def valuesIn (rows : List ((ℤ × Series) × ℚ)) (g : ℤ × Series) : List ℚ :=
  (rowsIn rows g).map Prod.snd

/-! ### Statements -/

def insertSample (x : Sample) (s : Metrics) : Metrics :=
  { s with
    samples := s.samples.upsert (x.ts, x.series) fun _ => x.value
    stored := s.stored.upsert (x.ts, x.series) fun _ => x.value }

def touchSeries (x : Sample) (s : Metrics) : Metrics :=
  { s with series := s.series.upsert x.series fun old => old.elim x.ts (max · x.ts) }

/-- Recompute the aggregates of the hours of the samples from `start` on and before `stop`. -/
def rollupRange (start stop : ℤ) (s : Metrics) : Metrics :=
  let picked := s.samples.rows.filter fun r => start ≤ r.1.1 && r.1.1 < stop
  let groups := (picked.map fun r => (bucket r.1.1, r.1.2)).dedup
  { s with hourly := s.hourly.upsertFrom groups fun g => aggregate (valuesIn picked g) }

def setLastRollup (hour : ℤ) (s : Metrics) : Metrics := { s with lastRollup := some hour }

def pruneSamplesBefore (cutoff : ℤ) (s : Metrics) : Metrics :=
  { s with
    samples := s.samples.delete fun k _ => k.1 < cutoff
    cutoff := some (s.cutoff.elim cutoff (max · cutoff)) }

def pruneSeriesBefore (cutoff : ℤ) (s : Metrics) : Metrics :=
  { s with series := s.series.delete fun _ lastTs => lastTs < cutoff }

def pruneHourlyBefore (cutoff : ℤ) (s : Metrics) : Metrics :=
  { s with hourly := s.hourly.delete fun k _ => k.1 < cutoff }

end Metrics

/-! ### The calls -/

/-- The statements of the calls. -/
inductive MetricsCmd
  | insertSample (x : Sample)
  | touchSeries (x : Sample)
  /-- `get_meta` of the last boundary. -/
  | getLastRollup
  | rollupRange (start stop : ℤ)
  /-- `set_meta` of the last boundary. -/
  | setLastRollup (hour : ℤ)
  | pruneSamplesBefore (cutoff : ℤ)
  | pruneSeriesBefore (cutoff : ℤ)
  | pruneHourlyBefore (cutoff : ℤ)

def MetricsCmd.act : MetricsCmd → Metrics → Metrics
  | .insertSample x => Metrics.insertSample x
  | .touchSeries x => Metrics.touchSeries x
  | .getLastRollup => id
  | .rollupRange start stop => Metrics.rollupRange start stop
  | .setLastRollup hour => Metrics.setLastRollup hour
  | .pruneSamplesBefore cutoff => Metrics.pruneSamplesBefore cutoff
  | .pruneSeriesBefore cutoff => Metrics.pruneSeriesBefore cutoff
  | .pruneHourlyBefore cutoff => Metrics.pruneHourlyBefore cutoff

abbrev MetricsScript := Script MetricsCmd Metrics Unit

/-- A call with nothing in between. -/
abbrev MetricsScript.prog (script : MetricsScript) : Prog Metrics Unit :=
  script.toProg MetricsCmd.act

def insertSamples (samples : List Sample) : MetricsScript :=
  samples.foldlM (fun _ x => do
    Script.exec (.insertSample x)
    Script.exec (.touchSeries x)) ()

/-- Aggregate completed hours, then drop data past retention. What it goes on to drop from other
tables is left out. -/
def runOnce (now : ℤ) (rawDays hourlyDays : ℕ) : MetricsScript := do
  let last ← Script.execReturning .getLastRollup (·.lastRollup)
  let start := min (last.getD (hourStart now - 7200)) (hourStart now)
  if start < hourStart now then do
    Script.exec (.rollupRange start (hourStart now))
    Script.exec (.setLastRollup (hourStart now))
  Script.exec (.pruneSamplesBefore (now - rawDays * 86400))
  Script.exec (.pruneSeriesBefore (now - rawDays * 86400))
  Script.exec (.pruneHourlyBefore (now - hourlyDays * 86400))

/-- The hourly rows of the hours that ended by `stop`, within raw retention, are the aggregates of
all samples stored. -/
def Metrics.Complete (stop : ℤ) (s : Metrics) : Prop :=
  ∀ hour series, 3600 ∣ hour → hour + 3600 ≤ stop → s.cutoff.all (· ≤ hour) →
    s.hourly.get? (hour, series) = aggregate (valuesIn s.stored.rows (hour, series))

/-! ### Hours -/

section Hours

variable {ts hour now : ℤ}

theorem dvd_hourStart (now : ℤ) : 3600 ∣ hourStart now := Int.dvd_mul_left _ _

/-- A sample lies in its hour. -/
theorem bucket_le (h : 0 ≤ ts) : bucket ts ≤ ts := by
  rw [bucket]
  rw [Int.tdiv_eq_ediv_of_nonneg h]
  omega

theorem lt_bucket_add (h : 0 ≤ ts) : ts < bucket ts + 3600 := by
  rw [bucket]
  rw [Int.tdiv_eq_ediv_of_nonneg h]
  omega

/-- Two hours either are one or do not overlap. -/
theorem hour_add_le {a b : ℤ} (ha : 3600 ∣ a) (hb : 3600 ∣ b) (h : a < b) : a + 3600 ≤ b := by
  omega

end Hours

namespace Metrics

/-! ### The invariant -/

/-- An hour is within raw retention. -/
def Retained (s : Metrics) (hour : ℤ) : Prop := s.cutoff.all (· ≤ hour)

/-- What holds at every statement: for the hours within retention no raw sample is missing, an
hourly row has samples behind it, and the hours before the boundary are complete. -/
structure Sound (s : Metrics) : Prop where
  aligned : ∀ m, s.lastRollup = some m → 3600 ∣ m
  nonneg : ∀ r ∈ s.samples.rows, 0 ≤ r.1.1
  same : ∀ hour series, s.Retained hour →
    rowsIn s.samples.rows (hour, series) = rowsIn s.stored.rows (hour, series)
  backed : ∀ hour series, 3600 ∣ hour → s.Retained hour →
    rowsIn s.stored.rows (hour, series) = [] → s.hourly.get? (hour, series) = none
  complete : ∀ m, s.lastRollup = some m → s.Complete m

section Statements

variable {s : Metrics} {x : Sample} {g : ℤ × Series} {start stop c m hour : ℤ} {series : Series}

theorem aggregate_eq_none_iff {values : List ℚ} : aggregate values = none ↔ values = [] := by
  cases values with
  | nil => exact iff_of_true rfl rfl
  | cons v values => simp [aggregate]

theorem mem_rowsIn {rows : List ((ℤ × Series) × ℚ)} {r : (ℤ × Series) × ℚ} :
    r ∈ rowsIn rows g ↔ r ∈ rows ∧ (bucket r.1.1, r.1.2) = g := by
  rw [rowsIn, List.mem_filter, beq_iff_eq]

theorem Complete.mono (h : s.Complete stop) (hle : m ≤ stop) : s.Complete m :=
  fun hour series hdvd hstop hret => h hour series hdvd (Int.le_trans hstop hle) hret

/-- A query sees an inserted sample if it is of its hour and series. -/
theorem rowsIn_upsert (t : Keyed (ℤ × Series) ℚ) :
    rowsIn (t.upsert (x.ts, x.series) fun _ => x.value).rows g =
      if (bucket x.ts, x.series) = g then
        Keyed.upsertRows (x.ts, x.series) (fun _ => x.value) (rowsIn t.rows g)
      else rowsIn t.rows g := by
  have hfilter := t.filter_upsert (k := (x.ts, x.series)) (fun _ => x.value)
    fun k : ℤ × Series => (bucket k.1, k.2) == g
  unfold rowsIn
  rw [hfilter]
  by_cases hg : (bucket x.ts, x.series) = g
  · rw [if_pos hg, if_pos (beq_iff_eq.mpr hg)]
  · rw [if_neg hg, if_neg fun h => hg (beq_iff_eq.mp h)]

theorem rowsIn_eq_nil_of_upsert {t : Keyed (ℤ × Series) ℚ}
    (h : rowsIn (t.upsert (x.ts, x.series) fun _ => x.value).rows g = []) :
    rowsIn t.rows g = [] := by
  rw [rowsIn_upsert] at h
  split at h
  · exact absurd h Keyed.upsertRows_ne_nil
  · exact h

/-- A sample stamped from `stop` on, or past retention, is of no retained hour before `stop`. -/
theorem bucket_ne_of_before (hnonneg : 0 ≤ x.ts)
    (hx : stop ≤ x.ts ∨ s.cutoff.any (bucket x.ts < ·)) (hstop : hour + 3600 ≤ stop)
    (hret : s.Retained hour) : bucket x.ts ≠ hour := by
  rintro rfl
  have hret : s.cutoff.all (· ≤ bucket x.ts) := hret
  rcases hx with hx | hx
  · have := lt_bucket_add hnonneg
    omega
  · cases hc : s.cutoff with
    | none => simp [hc] at hx
    | some c =>
      simp only [hc, Option.any_some, Option.all_some, decide_eq_true_eq] at hx hret
      omega

/-- Such a sample leaves the hours before `stop` complete. -/
theorem Complete.insertSample (h : s.Complete stop) (hnonneg : 0 ≤ x.ts)
    (hx : stop ≤ x.ts ∨ s.cutoff.any (bucket x.ts < ·)) :
    (insertSample x s).Complete stop := by
  intro hour series hdvd hstop hret
  have hother : (bucket x.ts, x.series) ≠ (hour, series) := fun heq =>
    bucket_ne_of_before hnonneg hx hstop hret (Prod.mk.inj heq).1
  have hsame : valuesIn (s.stored.upsert (x.ts, x.series) fun _ => x.value).rows
      (hour, series) = valuesIn s.stored.rows (hour, series) := by
    rw [valuesIn, rowsIn_upsert, if_neg hother, valuesIn]
  show s.hourly.get? (hour, series) = aggregate (valuesIn (s.stored.upsert _ _).rows _)
  rw [hsame]
  exact h hour series hdvd hstop hret

/-- **Inserting a sample** that no recorded boundary has passed keeps the tables sound. -/
theorem Sound.insertSample (h : s.Sound) (hnonneg : 0 ≤ x.ts)
    (hx : (∀ m ∈ s.lastRollup, m ≤ x.ts) ∨ s.cutoff.any (bucket x.ts < ·)) :
    (insertSample x s).Sound := by
  refine ⟨h.aligned, fun r hr => ?_, fun hour series hret => ?_,
    fun hour series hdvd hret hnil => ?_, fun m hm => ?_⟩
  · have hkeys : r.1 ∈ (Keyed.upsertRows (x.ts, x.series) (fun _ => x.value)
        s.samples.rows).map Prod.fst := List.mem_map_of_mem hr
    rcases Keyed.mem_keys_upsertRows hkeys with hr | hr
    · rw [hr]
      exact hnonneg
    · obtain ⟨r₀, hr₀, hkey⟩ := List.mem_map.mp hr
      rw [← hkey]
      exact h.nonneg r₀ hr₀
  · show rowsIn (s.samples.upsert _ _).rows _ = rowsIn (s.stored.upsert _ _).rows _
    rw [rowsIn_upsert, rowsIn_upsert, h.same hour series hret]
  · exact h.backed hour series hdvd hret (rowsIn_eq_nil_of_upsert hnil)
  · have hlast : s.lastRollup = some m := hm
    exact (h.complete m hlast).insertSample hnonneg (hx.imp_left fun hx => hx m hlast)

/-- A range of whole hours holds a time if it holds its hour. -/
theorem mem_hours_iff {ts : ℤ} (hnonneg : 0 ≤ ts) (hstart : 3600 ∣ start) (hstop : 3600 ∣ stop)
    (hdvd : 3600 ∣ hour) (hb : bucket ts = hour) :
    (start ≤ ts ∧ ts < stop) ↔ start ≤ hour ∧ hour < stop := by
  subst hb
  have hle := bucket_le (h := hnonneg)
  have hlt := lt_bucket_add (h := hnonneg)
  constructor
  · rintro ⟨hs, hs'⟩
    refine ⟨?_, Int.lt_of_le_of_lt hle hs'⟩
    by_contra hneg
    have := hour_add_le hdvd hstart (Int.not_le.mp hneg)
    omega
  · rintro ⟨hs, hs'⟩
    have := hour_add_le hdvd hstop hs'
    omega

/-- **What a rollup of whole hours writes**: the aggregates of the hours in its range that have
samples. -/
theorem get?_rollupRange (hnonneg : ∀ r ∈ s.samples.rows, 0 ≤ r.1.1) (hstart : 3600 ∣ start)
    (hstop : 3600 ∣ stop) (hdvd : 3600 ∣ hour) :
    (rollupRange start stop s).hourly.get? (hour, series) =
      if start ≤ hour ∧ hour < stop then
        (aggregate (valuesIn s.samples.rows (hour, series))).or (s.hourly.get? (hour, series))
      else s.hourly.get? (hour, series) := by
  rw [rollupRange]
  simp only [Keyed.get?_upsertFrom, List.mem_dedup, List.mem_map]
  have hrange : ∀ r ∈ s.samples.rows, bucket r.1.1 = hour →
      ((start ≤ r.1.1 ∧ r.1.1 < stop) ↔ start ≤ hour ∧ hour < stop) := fun r hr hb =>
    mem_hours_iff (hnonneg r hr) hstart hstop hdvd hb
  by_cases hin : start ≤ hour ∧ hour < stop
  · rw [if_pos hin]
    have hpicked : valuesIn (s.samples.rows.filter fun r => start ≤ r.1.1 && r.1.1 < stop)
        (hour, series) = valuesIn s.samples.rows (hour, series) := by
      rw [valuesIn, rowsIn]
      rw [List.filter_filter]
      refine congrArg _ (List.filter_congr fun r hr => ?_)
      by_cases hb : bucket r.1.1 = hour
      · have := (hrange r hr hb).mpr hin
        simp [this]
      · simp [hb]
    rw [hpicked]
    split
    · rfl
    · rename_i hno
      have hnil : valuesIn s.samples.rows (hour, series) = [] := by
        rw [← hpicked, valuesIn, List.map_eq_nil_iff, rowsIn, List.filter_eq_nil_iff]
        exact fun r hr hb => hno ⟨r, hr, beq_iff_eq.mp hb⟩
      rw [hnil]
      rfl
  · rw [if_neg hin, if_neg]
    rintro ⟨r, hr, hg⟩
    obtain ⟨hb, -⟩ := Prod.mk.inj hg
    obtain ⟨hr, hpick⟩ := List.mem_filter.mp hr
    refine hin ((hrange r hr hb).mp ?_)
    simpa using hpick

/-- A rollup of whole hours completes its range. -/
theorem Sound.complete_rollupRange (h : s.Sound) (hstart : 3600 ∣ start) (hstop : 3600 ∣ stop)
    (hbefore : s.Complete start) : (rollupRange start stop s).Complete stop := by
  intro hour series hdvd hle hret
  rw [get?_rollupRange h.nonneg hstart hstop hdvd]
  have hsame : valuesIn s.samples.rows (hour, series) = valuesIn s.stored.rows (hour, series) :=
    congrArg (List.map Prod.snd) (h.same hour series hret)
  show _ = aggregate (valuesIn s.stored.rows (hour, series))
  by_cases hs : start ≤ hour
  · rw [if_pos ⟨hs, by omega⟩, hsame]
    cases ha : aggregate (valuesIn s.stored.rows (hour, series)) with
    | some a => rfl
    | none =>
      have hnil := List.map_eq_nil_iff.mp (aggregate_eq_none_iff.mp ha)
      exact h.backed hour series hdvd hret hnil
  · rw [if_neg fun hin => hs hin.1]
    exact hbefore hour series hdvd (hour_add_le hdvd hstart (Int.not_le.mp hs)) hret

theorem Sound.rollupRange (h : s.Sound) (hstart : 3600 ∣ start) (hstop : 3600 ∣ stop) :
    (rollupRange start stop s).Sound := by
  have hsame : ∀ hour series, s.Retained hour →
      valuesIn s.samples.rows (hour, series) = valuesIn s.stored.rows (hour, series) :=
    fun hour series hret => congrArg (List.map Prod.snd) (h.same hour series hret)
  refine ⟨h.aligned, h.nonneg, h.same, fun hour series hdvd hret hnil => ?_,
    fun m hm hour series hdvd hle hret => ?_⟩
  · have hvalues : valuesIn s.stored.rows (hour, series) = [] := by
      rw [valuesIn, show rowsIn s.stored.rows (hour, series) = [] from hnil]
      rfl
    rw [get?_rollupRange h.nonneg hstart hstop hdvd, hsame hour series hret, hvalues,
      h.backed hour series hdvd hret hnil]
    exact ite_self none
  · rw [get?_rollupRange h.nonneg hstart hstop hdvd, hsame hour series hret,
      h.complete m hm hour series hdvd hle hret]
    show _ = aggregate (valuesIn s.stored.rows (hour, series))
    split
    · exact Option.or_self
    · rfl

theorem Sound.setLastRollup (h : s.Sound) (hstop : 3600 ∣ stop) (hcomplete : s.Complete stop) :
    (setLastRollup stop s).Sound := by
  refine ⟨fun m hm => ?_, h.nonneg, h.same, h.backed, fun m hm => ?_⟩
  · exact Option.some.inj hm ▸ hstop
  · exact Option.some.inj hm ▸ hcomplete

theorem Sound.touchSeries (h : s.Sound) : (touchSeries x s).Sound :=
  ⟨h.aligned, h.nonneg, h.same, h.backed, h.complete⟩

/-- Pruning raw samples leaves the hours within retention whole. -/
theorem Sound.pruneSamplesBefore (h : s.Sound) : (pruneSamplesBefore c s).Sound := by
  have hret : ∀ hour, (Metrics.pruneSamplesBefore c s).Retained hour →
      c ≤ hour ∧ s.Retained hour := by
    intro hour hret
    have hall : max (s.cutoff.getD c) c ≤ hour := by
      cases hc : s.cutoff with
      | none => simpa [Retained, Metrics.pruneSamplesBefore, hc] using hret
      | some c' => simpa [Retained, Metrics.pruneSamplesBefore, hc] using hret
    refine ⟨by omega, ?_⟩
    cases hc : s.cutoff with
    | none => simp [Retained, hc]
    | some c' =>
      rw [hc, Option.getD_some] at hall
      simp only [Retained, hc, Option.all_some, decide_eq_true_eq]
      omega
  refine ⟨h.aligned, fun r hr => h.nonneg r (List.mem_of_mem_filter hr), fun hour series hr => ?_,
    fun hour series hdvd hr => h.backed hour series hdvd (hret hour hr).2,
    fun m hm hour series hdvd hle hr => h.complete m hm hour series hdvd hle (hret hour hr).2⟩
  show rowsIn (s.samples.rows.filter _) _ = rowsIn s.stored.rows _
  rw [← h.same hour series (hret hour hr).2]
  rw [rowsIn]
  rw [List.filter_filter]
  refine List.filter_congr fun r hr' => ?_
  by_cases hb : bucket r.1.1 = hour
  · have hle := bucket_le (h := h.nonneg r hr')
    have hc := (hret hour hr).1
    have hkept : ¬r.1.1 < c := by omega
    simp [hkept]
  · simp [hb]

theorem Sound.pruneSeriesBefore (h : s.Sound) : (pruneSeriesBefore c s).Sound :=
  ⟨h.aligned, h.nonneg, h.same, h.backed, h.complete⟩

/-- Pruning hourly rows older than raw retention. -/
theorem Sound.pruneHourlyBefore (h : s.Sound) (hc : s.cutoff.any (c ≤ ·)) :
    (pruneHourlyBefore c s).Sound := by
  have hkept : ∀ hour series, s.Retained hour →
      (Metrics.pruneHourlyBefore c s).hourly.get? (hour, series) =
        s.hourly.get? (hour, series) := by
    intro hour series hret
    show (s.hourly.delete fun k _ => decide (k.1 < c)).get? _ = _
    rw [Keyed.get?_delete fun k : ℤ × Series => decide (k.1 < c), if_neg]
    cases hcut : s.cutoff with
    | none => simp [hcut] at hc
    | some c' =>
      simp only [Retained, hcut, Option.any_some, Option.all_some, decide_eq_true_eq] at hc hret ⊢
      omega
  refine ⟨h.aligned, h.nonneg, h.same, fun hour series hdvd hret hnil => ?_,
    fun m hm hour series hdvd hle hret => ?_⟩
  · rw [hkept hour series hret]
    exact h.backed hour series hdvd hret hnil
  · rw [hkept hour series hret]
    exact h.complete m hm hour series hdvd hle hret

/-- What a run starts from. -/
theorem sound_empty : Metrics.empty.Sound := by
  refine ⟨fun m hm => ?_, fun r hr => ?_, fun hour series _ => rfl, fun hour series _ _ _ => rfl,
    fun m hm => ?_⟩
  · cases hm
  · cases hr
  · cases hm

end Statements

/-! ### Whole calls -/

section Calls

variable {s : Metrics} {now m : ℤ} {rawDays hourlyDays : ℕ}

/-- Where a rollup at `now` starts. -/
def rollupStart (now : ℤ) (s : Metrics) : ℤ :=
  min (s.lastRollup.getD (hourStart now - 7200)) (hourStart now)

/-- The tables after aggregating. -/
def aggregated (now : ℤ) (s : Metrics) : Metrics :=
  if rollupStart now s < hourStart now then
    setLastRollup (hourStart now) (rollupRange (rollupStart now s) (hourStart now) s)
  else s

/-- The tables after dropping what is past retention. -/
def pruned (now : ℤ) (rawDays hourlyDays : ℕ) (s : Metrics) : Metrics :=
  pruneHourlyBefore (now - hourlyDays * 86400)
    (pruneSeriesBefore (now - rawDays * 86400) (pruneSamplesBefore (now - rawDays * 86400) s))

/-- **A rollup that ends well** has taken every step. -/
theorem wp_runOnce : (runOnce now rawDays hourlyDays).prog.wp
    (fun r s' => r = some () → s' = pruned now rawDays hourlyDays (aggregated now s)) s := by
  have hnone : ∀ {p : Prop}, none = some () → p := fun h => by cases h
  rw [runOnce]
  simp only [MetricsScript.prog, Script.bind_eq, Script.toProg_bind, Script.toProg_execReturning,
    Prog.wp_bind, Prog.wp_execReturning, Prog.after_some, Prog.after_none]
  refine ⟨?_, hnone⟩
  show ((if rollupStart now s < hourStart now then _ else _ : MetricsScript).toProg _).wp _ s
  rw [aggregated]
  split
  · simp only [Script.toProg_bind, Script.toProg_exec, Prog.wp_bind, Prog.wp_exec, Prog.after_some,
      Prog.after_none]
    exact ⟨⟨⟨⟨⟨fun _ => rfl, hnone⟩, hnone⟩, hnone⟩, hnone⟩, hnone⟩
  · simp only [Script.toProg_bind, Script.toProg_exec, Prog.wp_bind, Prog.wp_exec, Prog.after_some,
      Prog.after_none]
    exact ⟨⟨⟨fun _ => rfl, hnone⟩, hnone⟩, hnone⟩

/-- With nothing to aggregate and nothing failing, a rollup drops what is past retention. -/
theorem run_runOnce (hm : s.lastRollup = some m) (hle : hourStart now ≤ m) :
    ((runOnce now rawDays hourlyDays).prog.run [] s).state = pruned now rawDays hourlyDays s := by
  have hstart :
      ¬min (s.lastRollup.getD (hourStart now - 7200)) (hourStart now) < hourStart now := by
    rw [hm, Option.getD_some]
    omega
  refine (Prog.wpOk_iff_run (Q := fun _ s' => s' = pruned now rawDays hourlyDays s)).mp ?_
  rw [runOnce]
  simp only [MetricsScript.prog, Script.bind_eq, Script.toProg_bind, Script.toProg_execReturning,
    Prog.wpOk_bind, Prog.wpOk_execReturning, Prog.afterOk_some, if_neg hstart]
  rfl

end Calls

end Metrics

/-! ### Samples to try the calls on -/

/-- A sample of the processor load. -/
def load (ts : ℤ) (value : ℚ) : Sample := ⟨ts, "host", "cpu_pct", "", value⟩

/-- The default retention: 7 and 90 days. -/
def sampleRetention : Retention := ⟨7, 90, by decide, by decide⟩

end Dunlin

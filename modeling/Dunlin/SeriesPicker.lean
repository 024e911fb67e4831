import Dunlin.Lib.Newest
import Dunlin.Lib.Run
import Dunlin.Rollup
import Mathlib.Data.List.Sort
import Mathlib.Data.Prod.Lex
import Mathlib.Data.String.Basic

/-!
# The series picker

The picker of the metrics page reads the table `series`, which migration 0003 fills and
`insertSamples` and the rollup maintain, and never scans `samples`. `scannedSeries` is the scan it
saves. The two give the same list as long as `series` is an index of the newest sample of each
series (`Lib.Indexed`), and every call that completes keeps it one.

`SELECT DISTINCT` and `ORDER BY` are taken together: a picker lists each series once, in the order
the query asks for, so two lists with the same members are the same list.

## Scope

A call takes effect as a whole here, and the ones that fail half way are left out (`Completes`):
`insertSamples` rolls back, and what a rollup leaves that breaks off is in `Rollup`.

## Main results

* `inStep_migrateSeries` — the migration builds the index
* `InStep.step` — a call that ends well keeps it
* `picker_scans` — the picker equals a scan, through any such calls
-/

namespace Dunlin

open Lib

/-- `ORDER BY scope, metric, key`. -/
def Series.Upto (a b : Series) : Prop :=
  toLex (a.scope, toLex (a.metric, a.key)) ≤ toLex (b.scope, toLex (b.metric, b.key))

instance : DecidableRel Series.Upto := fun _ _ => inferInstanceAs (Decidable (_ ≤ _))

instance : Std.Total Series.Upto := ⟨fun _ _ => le_total _ _⟩

instance : IsTrans Series Series.Upto := ⟨fun _ _ _ => le_trans⟩

theorem Series.Upto.antisymm {a b : Series} (h : a.Upto b) (h' : b.Upto a) : a = b := by
  have heq : toLex (a.scope, toLex (a.metric, a.key)) = toLex (b.scope, toLex (b.metric, b.key)) :=
    le_antisymm h h'
  obtain ⟨hscope, hrest⟩ := Prod.mk.inj heq
  obtain ⟨hmetric, hkey⟩ := Prod.mk.inj hrest
  cases a
  cases b
  cases hscope
  cases hmetric
  cases hkey
  rfl

namespace Metrics

/-- Migration 0003: a new table `series`, filled from the raw samples still there. -/
def migrateSeries (s : Metrics) : Metrics :=
  { s with
    series := Keyed.empty.insertFrom (s.samples.rows.map (·.1.2)).dedup (newestOf s.samples) }

/-- `distinct_series`. -/
def distinctSeries (s : Metrics) : List Series :=
  (s.series.rows.map Prod.fst).insertionSort Series.Upto

/-- `SELECT DISTINCT scope, metric, key FROM samples ORDER BY scope, metric, key`, which the
picker does without. -/
def scannedSeries (s : Metrics) : List Series :=
  (s.samples.rows.map (·.1.2)).dedup.insertionSort Series.Upto

end Metrics

/-- A whole call, at a time, with the statements that fail. -/
inductive RollupOp
  | insert (now : ℤ) (samples : List Sample) (faults : List Bool)
  | runOnce (now : ℤ) (retention : Retention) (faults : List Bool)

namespace RollupOp

def prog : RollupOp → Prog Metrics Unit
  | .insert _ samples _ => (insertSamples samples).prog
  | .runOnce now retention _ => (Dunlin.runOnce now retention.rawDays retention.hourlyDays).prog

def faults : RollupOp → List Bool
  | .insert _ _ faults => faults
  | .runOnce _ _ faults => faults

def step (s : Metrics) (op : RollupOp) : Metrics := (op.prog.run op.faults s).state

/-- The call ends well. -/
def Completes (s : Metrics) (op : RollupOp) : Prop := (op.prog.run op.faults s).result = some ()

instance (s : Metrics) : DecidablePred (Completes s) := fun _ => inferInstanceAs (Decidable (_ = _))

end RollupOp

namespace Metrics

/-- `series` has the newest sample of each series. -/
def InStep (s : Metrics) : Prop := Indexed s.samples s.series

variable {s : Metrics} {now : ℤ} {rawDays hourlyDays : ℕ} {samples : List Sample}

theorem inStep_migrateSeries (s : Metrics) : s.migrateSeries.InStep := indexed_insertFrom s.samples

theorem InStep.inserted (h : s.InStep) (x : Sample) : (touchSeries x (insertSample x s)).InStep :=
  Indexed.upsert h x.ts x.series fun _ => x.value

/-- Both tables lose what is older than the same time. -/
theorem InStep.pruned (h : s.InStep) : (pruned now rawDays hourlyDays s).InStep :=
  Indexed.delete_lt h _

theorem InStep.aggregated (h : s.InStep) : (aggregated now s).InStep := by
  rw [Metrics.aggregated]
  split <;> exact h

/-- Between its two statements a sample is in one table only, so nothing is said of a batch that
fails. -/
theorem wp_insertSamples (h : s.InStep) :
    (insertSamples samples).prog.wp (fun r s' => r = some () → s'.InStep) s := by
  have hprog : (insertSamples samples).prog = samples.foldlM (fun _ x => do
      Prog.exec (insertSample x)
      Prog.exec (touchSeries x)) () := Script.toProg_foldlM _ _ _ _
  have hloop := Prog.wp_foldlM (E := fun _ => True)
    (I := fun (_ : List Sample) (_ : Unit) s => s.InStep)
    (f := fun _ x => do
      Prog.exec (insertSample x)
      Prog.exec (touchSeries x)) (fun x xs _ s hs => ?_) samples () s h
  · rw [hprog]
    refine Prog.wp_mono hloop fun r s' hr hok => ?_
    subst hok
    exact hr
  · rw [Prog.bind_eq, Prog.wp_bind, Prog.wp_exec, Prog.after_some, Prog.wp_exec, Prog.after_none]
    exact ⟨⟨hs.inserted x, trivial⟩, trivial⟩

/-- **A call that ends well** keeps `series` in step with `samples`. -/
theorem InStep.step (h : s.InStep) {op : RollupOp} (hop : op.Completes s) :
    (op.step s).InStep := by
  cases op with
  | insert now samples faults => exact Prog.wp_run (wp_insertSamples h) faults hop
  | runOnce now retention faults =>
    have hstate : RollupOp.step s (.runOnce now retention faults) =
        Metrics.pruned now retention.rawDays retention.hourlyDays (Metrics.aggregated now s) :=
      Prog.wp_run wp_runOnce faults hop
    rw [hstate]
    exact h.aggregated.pruned

/-- In step, the scan finds what the picker has. -/
theorem InStep.scan_eq (h : s.InStep) : s.distinctSeries = s.scannedSeries := by
  have hperm : (s.series.rows.map Prod.fst).Perm (s.samples.rows.map (·.1.2)).dedup :=
    (List.perm_ext_iff_of_nodup s.series.nodup (List.nodup_dedup _)).mpr fun k => by
      rw [h.mem_keys, List.mem_dedup]
  refine List.Perm.eq_of_pairwise (fun a b _ _ hab hba => hab.antisymm hba)
    (List.pairwise_insertionSort Series.Upto _) (List.pairwise_insertionSort Series.Upto _) ?_
  exact (List.perm_insertionSort _ _).trans (hperm.trans (List.perm_insertionSort _ _).symm)

end Metrics

/-- **The picker equals a scan of the samples.** From any samples, migrated, through any batches and
rollups that complete: the picker lists the series that have samples, and the time of each is that
of its newest sample. -/
theorem picker_scans (s : Metrics) (ops : List RollupOp)
    (h : Always RollupOp.step RollupOp.Completes s.migrateSeries ops) :
    let s' := run RollupOp.step s.migrateSeries ops
    s'.distinctSeries = s'.scannedSeries ∧
      ∀ r ∈ s'.series.rows, IsGreatest {ts | (ts, r.1) ∈ s'.samples.rows.map Prod.fst} r.2 := by
  intro s'
  have hstep : s'.InStep := h.run_inv (s.inStep_migrateSeries) fun s op hs hop => hs.step hop
  refine ⟨hstep.scan_eq, fun r hr => ?_⟩
  have hgreatest := Indexed.isGreatest hstep hr
  rwa [show timesOf s'.samples r.1 = {ts | (ts, r.1) ∈ s'.samples.rows.map Prod.fst} from
    Set.ext fun ts => mem_timesOf] at hgreatest

/-- A sample that comes late, one that is overwritten, and a series past retention a week later. -/
def pickerOps : List RollupOp :=
  [.insert 200 [load 200 10, ⟨150, "host", "mem_pct", "", 50⟩] [], .insert 260 [load 100 20] [],
    .insert 261 [load 200 30] [], .runOnce 604980 sampleRetention []]

theorem picker_scans_late :
    (run RollupOp.step Metrics.empty.migrateSeries pickerOps).series.get? (load 0 0).series =
        some 200 ∧
      (run RollupOp.step Metrics.empty.migrateSeries pickerOps).distinctSeries =
        (run RollupOp.step Metrics.empty.migrateSeries pickerOps).scannedSeries :=
  ⟨by decide, (picker_scans .empty pickerOps (by decide)).1⟩

end Dunlin

import Dunlin.HeartbeatTokens
import Dunlin.MonitorRun
import Dunlin.Retention

/-!
# What the smaller models see of the prober

`Monitor` has the prober with all that it reads and writes. Three models before it look at one side
of it: `Watch` at the times that a heartbeat is judged by, the table in `CheckResults` at what the
status page derives a state from, and `Tables` at the results that the strip of days counts. Each
has a definition of its own for a function that `Monitor` has too. Here they are compared.

`Watch.Sees` says that a watch and a monitor hold the same times. Every operation of the monitor is
one of the watch, or none (`SeenAs`): a reload is a reload, a ping a ping, and a tick is a round,
cleared if the engine was reconciled, and not if that failed or there was nothing to reconcile. A
heartbeat that is probed then reports what the watch says, with the row of its last ping if the
query goes through.

## Scope

`Sees.run` is about runs of one process from when its loop has started, in which the table of pings
is written by its endpoint (`Heeded`). A round of a watch judges its heartbeats at once; in a
monitor the probes come one by one, and `Sees.wp_evaluate_late` judges each by the watch of the
moment, with the pings that have come meanwhile.

## Main results

* `Watch.Sees.tick` — a tick is a round
* `Watch.Sees.run` — a run of the prober is a run of the watch
* `Watch.Sees.wp_evaluate`, `Watch.Sees.wp_evaluate_late` — what a heartbeat reports
* `Monitor.resultRows_insertResult`, `counted_insertCheckResult` — one result, in three tables
-/

namespace Dunlin

open Lib

/-! ### Results -/

/-- The table of results, as far as the status page reads it. -/
def Monitor.resultRows (s : Monitor) : Table ResultRow :=
  s.tables.results.map (·.toResultRow) fun _ => rfl

/-- A result is stored with its latency and message, and otherwise as in `CheckResults`. -/
theorem Monitor.resultRows_insertResult (now : ℤ) (checkId : String) (r : ProbeResult)
    (s : Monitor) : (s.insertResult now checkId r).resultRows =
      insertCheckResult now checkId r.ok r.degraded s.resultRows :=
  Table.map_insert _ _ _ _

/-- What the strip of days reads of a row. -/
def ResultRow.counted (r : ResultRow) : CheckResult := ⟨r.ts, r.checkId, r.ok⟩

/-- The statement that retention has for the same row. -/
theorem counted_insertCheckResult {t : Table ResultRow} {tables : Tables}
    (h : tables.results = t.rows.map ResultRow.counted) (ts : ℤ) (checkId : String)
    (ok degraded : Bool) :
    (tables.insertCheckResult ⟨ts, checkId, ok⟩).results =
      (insertCheckResult ts checkId ok degraded t).rows.map ResultRow.counted := by
  rw [insertCheckResult, Table.rows_insert, List.map_append, List.map_singleton, ← h]
  rfl

/-! ### Heartbeats -/

namespace Watch

/-- The watch and the monitor have the same checks and times. -/
structure Sees (w : Watch) (s : Monitor) : Prop where
  checks : w.cfg.checks = s.cfg.probes.map (·.watched)
  version : w.version = s.version
  applied : s.loop.applied.map (·.2) = some w.applied
  last : w.last = s.loop.last
  firstRun : w.firstRun = s.loop.firstRun
  heartbeats : w.heartbeats = s.tables.heartbeats

/-- A ping is written to the table, and to nothing else that a watch shares with a monitor. -/
theorem ping_frame (w : Watch) (token : String) (now : ℤ) (stored : Bool) :
    (w.ping token now stored).cfg = w.cfg ∧ (w.ping token now stored).version = w.version ∧
      (w.ping token now stored).applied = w.applied ∧ (w.ping token now stored).last = w.last ∧
      (w.ping token now stored).firstRun = w.firstRun := by
  rw [Watch.ping]
  split
  · split <;> exact ⟨rfl, rfl, rfl, rfl, rfl⟩
  · exact ⟨rfl, rfl, rfl, rfl, rfl⟩

namespace Sees

variable {w : Watch} {s : Monitor} {now : ℤ}

/-- Nothing that a watch has has changed. -/
theorem congr (h : w.Sees s) {s' : Monitor} (hcfg : s'.cfg = s.cfg)
    (hversion : s'.version = s.version) (happlied : s'.loop.applied = s.loop.applied)
    (hlast : s'.loop.last = s.loop.last) (hfirst : s'.loop.firstRun = s.loop.firstRun)
    (hheartbeats : s'.tables.heartbeats = s.tables.heartbeats) : w.Sees s' where
  checks := hcfg ▸ h.checks
  version := hversion ▸ h.version
  applied := happlied ▸ h.applied
  last := hlast ▸ h.last
  firstRun := hfirst ▸ h.firstRun
  heartbeats := hheartbeats ▸ h.heartbeats

theorem isSome_check (h : w.Sees s) (id : String) :
    (w.cfg.check id).isSome = (s.cfg.config.check id).isSome := by
  rw [WatchedConfig.check, Config.check, h.checks, s.cfg.checks_eq, List.find?_map, List.find?_map,
    Option.isSome_map, Option.isSome_map]
  rfl

/-- `apply_reload`. -/
theorem reload (h : w.Sees s) {watched : WatchedConfig} {cfg : MonitorConfig}
    (hchecks : watched.checks = cfg.probes.map (·.watched)) :
    (w.reload watched).Sees (s.reload cfg) where
  checks := hchecks
  version := congrArg (· + 1) h.version
  applied := h.applied
  last := h.last
  firstRun := h.firstRun
  heartbeats := h.heartbeats

/-- A ping is one of the things that others write. -/
theorem ping (h : w.Sees s) {tables : MonitorTables} {token : String} {stored : Bool}
    (htables : tables.heartbeats =
      (heartbeat token now stored s.tables.heartbeats (s.cfg.probes.map (·.watched))).2) :
    (w.ping token now stored).Sees { s with tables } := by
  rw [← h.checks, ← h.heartbeats, ← heartbeats_ping] at htables
  obtain ⟨hcfg, hversion, happlied, hlast, hfirst⟩ := ping_frame w token now stored
  refine ⟨hcfg ▸ h.checks, hversion ▸ h.version, ?_, hlast ▸ h.last, hfirst ▸ h.firstRun,
    htables.symm⟩
  rw [happlied]
  exact h.applied

/-- `forget_removed_checks`. -/
theorem forget (h : w.Sees s) (hversion : w.version ≠ w.applied) :
    (w.forget true).Sees (s.forgetRemovedChecks s.cfg s.version) := by
  rw [Watch.forget, if_pos ⟨hversion, rfl⟩]
  refine ⟨h.checks, h.version, congrArg some h.version.symm, ?_, ?_, h.heartbeats⟩
  · funext id
    show (if (w.cfg.check id).isSome then w.last id else none) = _
    rw [h.isSome_check, h.last]
    rfl
  · funext id
    show (if (w.cfg.check id).isSome then w.firstRun id else none) = _
    rw [h.isSome_check, h.firstRun]
    rfl

theorem due (h : w.Sees s) (now : ℤ) : w.due now = (s.due s.cfg now).map (·.watched) := by
  rw [Watch.due, Monitor.due, h.checks, List.filter_map, h.last]
  rfl

/-- The checks that are due get their times. -/
theorem mark (h : w.Sees s) (now : ℤ) :
    (w.mark now).Sees (s.mark ((s.due s.cfg now).map (·.id)) now) := by
  have hids : (w.due now).map (·.id) = (s.due s.cfg now).map (·.id) := by
    rw [h.due, List.map_map]
    rfl
  refine ⟨h.checks, h.version, h.applied, ?_, ?_, h.heartbeats⟩
  · rw [Watch.mark, Monitor.mark, hids, h.last]
  · rw [Watch.mark, Monitor.mark, hids, h.firstRun]

/-- Without a check that is due there is nothing to note. -/
theorem mark_of_due_eq_nil (h : w.Sees s) (hdue : s.due s.cfg now = []) : (w.mark now).Sees s := by
  have hsame : s.mark ((s.due s.cfg now).map (·.id)) now = s := by
    rw [hdue, Monitor.mark]
    simp
  exact hsame ▸ h.mark now

variable {pf : Platform} {applied : MonitorConfig × ℕ} {sources : Sources}

/-- The engine is reconciled, and with it the times; or it is not. -/
theorem wp_reconcile (h : w.Sees s) (happlied : s.loop.applied = some applied) :
    (Monitor.reconcile pf applied now).wp (fun r s' => r = some s.cfg ∧ s'.cfg = s.cfg ∧
      ∃ cleared, (w.forget cleared).Sees s') s := by
  have happlied : applied.2 = w.applied := by
    have heq := h.applied
    rw [happlied] at heq
    exact Option.some.inj heq
  have hkept : w.forget false = w := if_neg (by simp)
  rw [Monitor.reconcile]
  simp only [Prog.bind_eq, Prog.wp_bind, Prog.wp_get, Prog.after_some]
  split
  · rename_i hne
    simp only [Prog.wp_bind, Prog.wp_attempt, Prog.wp_lift]
    refine Prog.wp_mono (Prog.wp_true _ _) fun r world _ => ?_
    -- the times are in no part of the world, so the engine leaves them alone
    have hworld : w.Sees { s with world } := h.congr rfl rfl rfl rfl rfl rfl
    cases r with
    | none => exact ⟨rfl, rfl, false, by rwa [hkept]⟩
    | some _ =>
      have hversion : w.version ≠ w.applied := by rwa [h.version, ← happlied]
      exact ⟨rfl, rfl, true, hworld.forget hversion⟩
  · exact ⟨rfl, rfl, false, by rwa [hkept]⟩

theorem wp_tick (h : w.Sees s) (happlied : s.loop.applied = some applied) :
    (Monitor.tick pf applied now sources).wp
      (fun _ s' => ∃ cleared, ((w.forget cleared).mark now).Sees s') s := by
  rw [Monitor.tick]
  simp only [Prog.bind_eq, Prog.wp_bind]
  refine Prog.wp_mono (h.wp_reconcile happlied) ?_
  rintro _ s' ⟨rfl, hcfg, cleared, hsees⟩
  have hsources : (w.forget cleared).Sees (s'.ensureSources s.cfg sources) :=
    hsees.congr rfl rfl rfl rfl rfl rfl
  simp only [Prog.after_some, Prog.wp_bind, Prog.wp_modify, Prog.wp_get]
  rw [← hcfg] at hsources ⊢
  split
  · rename_i hdue
    exact ⟨cleared, hsources.mark_of_due_eq_nil hdue⟩
  · simp only [Prog.wp_bind, Prog.wp_modify, Prog.after_some, Prog.wp_attempt, Prog.wp_query]
    have hmark := hsources.mark now
    exact ⟨⟨cleared, hmark.congr rfl rfl rfl rfl rfl rfl⟩,
      ⟨cleared, hmark.congr rfl rfl rfl rfl rfl rfl⟩⟩

/-- **A tick is a round.** -/
theorem tick (h : w.Sees s) (fmt : NumberFormat) (hidle : s.idle = some applied)
    (faults : List Bool) (readable : String → Bool) :
    ∃ cleared, (WatchOp.step w (.round now cleared readable)).Sees
      (s.step pf fmt (.tick now sources, faults)) := by
  have happlied : s.loop.applied = some applied := by
    rw [Monitor.idle] at hidle
    split at hidle
    · exact hidle
    · cases hidle
  have htick : (MonitorOp.prog pf fmt (.tick now sources)).wp
      (fun _ s' => ∃ cleared, ((w.forget cleared).mark now).Sees s') s := by
    rw [MonitorOp.prog, Prog.bind_eq, Prog.wp_bind, Prog.wp_get, hidle]
    exact h.wp_tick happlied
  exact Prog.wp_run htick faults

variable {fmt : NumberFormat} {round : ProbeRound} {c : ProbedCheck} {replies : Replies}

/-- **A heartbeat reports what the watch says.** -/
theorem wp_evaluate (h : w.Sees s) (hkind : c.kind = .heartbeat) :
    (Monitor.evaluate fmt round replies c).wp (fun r s' => s' = s ∧ ∃ readable,
      r = some (some { w.evaluate readable round.now c.watched with })) s := by
  rw [Monitor.evaluate, hkind]
  simp only [Prog.bind_eq, Prog.pure_eq, Prog.wp_bind, Prog.wp_attempt, Prog.wp_query, Prog.wp_get,
    Prog.after_some, Prog.wp_done]
  refine ⟨⟨trivial, fun _ => true, ?_⟩, trivial, fun _ => false, ?_⟩
  · rw [Watch.evaluate, h.firstRun, h.heartbeats]
    rfl
  · rw [Watch.evaluate, h.firstRun]
    rfl

/-- A heartbeat that fails has had its time, whatever has happened since the round began. -/
theorem wp_evaluate_late (h : w.Sees s) (hsynced : w.Synced) (hc : c ∈ s.cfg.probes)
    (hkind : c.kind = .heartbeat) :
    (Monitor.evaluate fmt round replies c).wp (fun r _ => ∀ x ∈ r.join, x.ok = false →
      c.watched.Late (round.now - (w.evaluated c.id).getD round.now) ∨
        ∃ ts ∈ w.pings c.id, c.watched.Late (round.now - ts)) s := by
  refine Prog.wp_mono (h.wp_evaluate hkind) ?_
  rintro _ _ ⟨-, readable, rfl⟩ x hx hfails
  obtain rfl := Option.some.inj hx
  have hmem : c.watched ∈ w.cfg.checks := h.checks ▸ List.mem_map_of_mem hc
  exact hsynced.late_of_fails hmem hkind hfails

/-- One turn of the loop writes results and samples, and what the engine has. -/
theorem wp_probeCheck (h : w.Sees s) :
    (Monitor.probeCheck pf fmt round c replies).wp (fun _ s' => w.Sees s') s := by
  rw [Monitor.probeCheck, Prog.bind_eq, Prog.wp_bind]
  refine Monitor.wp_evaluate fun r _ => ?_
  cases r with
  | none => exact h.congr rfl rfl rfl rfl rfl rfl
  | some r =>
    have hrecord : (Monitor.record round c r).wp (fun _ s' => w.Sees s') s := by
      rw [Monitor.record]
      simp only [Prog.bind_eq, Prog.pure_eq, Prog.wp_bind, Prog.wp_attempt, Prog.wp_exec,
        Prog.after_some, Prog.wp_lift, Prog.wp_done]
      exact ⟨Prog.wp_mono (Prog.wp_true _ _) fun _ _ _ => h.congr rfl rfl rfl rfl rfl rfl,
        Prog.wp_mono (Prog.wp_true _ _) fun _ _ _ => h.congr rfl rfl rfl rfl rfl rfl⟩
    rw [Prog.after_some]
    dsimp only
    rw [Prog.bind_eq, Prog.wp_bind]
    refine Prog.wp_mono hrecord fun stored s' h' => ?_
    cases stored with
    | none => exact h'
    | some _ =>
      rw [Prog.after_some, Prog.bind_eq, Prog.wp_bind, Prog.wp_modify, Prog.after_some,
        Prog.wp_lift]
      exact Prog.wp_mono (Prog.wp_true _ _) fun _ _ _ => h'.congr rfl rfl rfl rfl rfl rfl

theorem wp_probe (h : w.Sees s) :
    (Monitor.probe pf fmt replies).wp (fun _ s' => w.Sees s') s := by
  rw [Monitor.probe, Prog.bind_eq, Prog.wp_bind, Prog.wp_get, Prog.after_some]
  cases s.loop.round with
  | none => exact h
  | some round =>
    dsimp only
    cases round.pending with
    | nil => exact h
    | cons c rest =>
      dsimp only
      rw [Prog.bind_eq, Prog.wp_bind, Prog.wp_modify, Prog.after_some]
      exact wp_probeCheck (h.congr rfl rfl rfl rfl rfl rfl)

end Sees

/-! ### Runs -/

/-- What an operation of a monitor is to a watch: an operation or none. -/
inductive SeenAs (s : Monitor) : MonitorOp → List WatchOp → Prop
  | reload {cfg : MonitorConfig} {watched : WatchedConfig}
    (h : watched.checks = cfg.probes.map (·.watched)) : SeenAs s (.reload cfg) [.reload watched]
  | round {now : ℤ} {sources : Sources} (cleared : Bool) (readable : String → Bool)
    (h : s.idle.isSome) : SeenAs s (.tick now sources) [.round now cleared readable]
  | busy {now : ℤ} {sources : Sources} (h : s.idle = none) : SeenAs s (.tick now sources) []
  | ping {tables : MonitorTables} {token : String} {now : ℤ} {stored : Bool}
    (h : tables.heartbeats =
      (heartbeat token now stored s.tables.heartbeats (s.cfg.probes.map (·.watched))).2) :
    SeenAs s (.others tables) [.ping token now stored]
  | others {tables : MonitorTables} (h : tables.heartbeats = s.tables.heartbeats) :
    SeenAs s (.others tables) []
  | enter : SeenAs s .enter []
  | probe (replies : Replies) : SeenAs s (.probe replies) []
  | operator (op : Op) (h : op.isOperator) : SeenAs s (.operator op h) []

/-- The process goes on, and only its endpoint writes pings. -/
def Heeded (s : Monitor) (op : MonitorOp × List Bool) : Prop :=
  ∃ ops, SeenAs s op.1 ops

variable (pf : Platform) (fmt : NumberFormat)

/-- What a run of a monitor is to a watch. -/
def SeenRun : Monitor → List (MonitorOp × List Bool) → List WatchOp → Prop
  | _, [], seen => seen = []
  | s, op :: ops, seen =>
    ∃ now later, seen = now ++ later ∧ SeenAs s op.1 now ∧ SeenRun (s.step pf fmt op) ops later

variable {pf fmt} {w : Watch} {s : Monitor}

theorem Sees.of_wp {op : MonitorOp} (h : (op.prog pf fmt).wp (fun _ s' => w.Sees s') s)
    (faults : List Bool) : w.Sees (s.step pf fmt (op, faults)) :=
  Prog.wp_run h faults

/-- One operation. A tick decides itself whether the times of removed checks are forgotten. -/
theorem Sees.step (h : w.Sees s) {op : MonitorOp × List Bool} (hop : Heeded s op) :
    ∃ ops, SeenAs s op.1 ops ∧ (run WatchOp.step w ops).Sees (s.step pf fmt op) := by
  obtain ⟨op, faults⟩ := op
  obtain ⟨ops, hseen⟩ := hop
  cases hseen with
  | reload hchecks => exact ⟨_, .reload hchecks, h.reload hchecks⟩
  | round cleared readable hidle =>
    obtain ⟨applied, hidle⟩ := Option.isSome_iff_exists.mp hidle
    obtain ⟨cleared, htick⟩ := h.tick fmt hidle faults readable
    exact ⟨_, .round cleared readable (hidle ▸ rfl), htick⟩
  | busy hidle =>
    refine ⟨[], .busy hidle, .of_wp ?_ faults⟩
    rw [MonitorOp.prog, Prog.bind_eq, Prog.wp_bind, Prog.wp_get, hidle]
    exact h
  | ping htables => exact ⟨_, .ping htables, h.ping htables⟩
  | others htables =>
    exact ⟨[], .others htables, h.congr rfl rfl rfl rfl rfl htables⟩
  | enter =>
    refine ⟨[], .enter, .of_wp ?_ faults⟩
    -- the loop has started
    have hready : (s.alive && s.loop.applied.isNone) = false := by
      cases happlied : s.loop.applied with
      | none =>
        have heq := h.applied
        rw [happlied] at heq
        cases heq
      | some applied => rw [Option.isNone_some, Bool.and_false]
    rw [MonitorOp.prog, Prog.bind_eq, Prog.wp_bind, Prog.wp_get, Prog.after_some, hready]
    exact h
  | probe replies =>
    refine ⟨[], .probe replies, .of_wp ?_ faults⟩
    rw [MonitorOp.prog, Prog.bind_eq, Prog.wp_bind, Prog.wp_get, Prog.after_some]
    split
    · exact h.wp_probe
    · exact h
  | operator op hop =>
    refine ⟨[], .operator op hop, .of_wp ?_ faults⟩
    rw [MonitorOp.prog, Prog.wp_lift]
    exact Prog.wp_mono (Prog.wp_true _ _) fun _ _ _ => h.congr rfl rfl rfl rfl rfl rfl

/-- **A run of the prober is a run of the watch.** -/
theorem Sees.run (h : w.Sees s) {ops : List (MonitorOp × List Bool)}
    (hops : Always (Monitor.step pf fmt) Heeded s ops) :
    ∃ seen, SeenRun pf fmt s ops seen ∧
      (Lib.run WatchOp.step w seen).Sees (Lib.run (Monitor.step pf fmt) s ops) := by
  induction ops generalizing w s with
  | nil => exact ⟨[], rfl, h⟩
  | cons op ops ih =>
    obtain ⟨now, hnow, hsees⟩ := h.step hops.1
    obtain ⟨later, hlater, hrun⟩ := ih hsees hops.2
    refine ⟨now ++ later, ⟨now, later, rfl, hnow, hlater⟩, ?_⟩
    rw [Lib.run_append]
    exact hrun

end Watch

end Dunlin

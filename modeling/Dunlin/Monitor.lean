import Dunlin.AlertSystem
import Dunlin.CheckResults
import Dunlin.Maintenance
import Dunlin.Probes
import Dunlin.Lib.Newest

/-!
# The prober at work

The model of `prober_loop` in `app.rs`, with `evaluate` and what it calls. A round begins with a
tick: the loop takes the running config, reconciles the engine with it if it is another one, notes
the time of every check that is due and asks the sources. Then it goes through those checks one by
one, and between two of them anything may happen: the config is swapped, the operator acts, other
loops write their tables. The round goes on with the config it began with.

An operation is a program whose statements may fail. Most failures are logged and the round goes on,
and that is in the programs; a failed `bootstrap` ends the process.

`log` is no state of the program. It keeps what has been probed since the process started.

## Scope

The clock is in whole seconds, as the source has it (`now_ts`). What the sources and the network
answer comes with each step, so nothing is assumed of it. `ProberViews` compares the functions here
with those of the smaller models that look at one side of the prober.
-/

namespace Dunlin

open Lib

/-! ### What the prober reads -/

/-- A config that has passed its checks, as the prober reads it. -/
structure MonitorConfig where
  config : Config
  probes : List ProbedCheck
  dockerEnabled : Bool
  systemdEnabled : Bool
  checks_eq : config.checks = probes.map (·.toCheckConfig)
  valid : config.validate = []

/-- No two checks have one id. -/
theorem MonitorConfig.nodup (cfg : MonitorConfig) : (cfg.probes.map (·.id)).Nodup := by
  have hids := Config.nodup_checks cfg.valid
  rwa [cfg.checks_eq, List.map_map] at hids

/-- The systemd units that checks name, in order and each once. -/
def MonitorConfig.configuredUnits (cfg : MonitorConfig) : List String :=
  (((cfg.probes.filter (·.kind == .systemd)).filterMap (·.unit)).insertionSort (· ≤ ·)).dedup

/-- A row of `check_results` in full. -/
structure FullResultRow extends ResultRow where
  latencyMs : Option ℚ
  message : Option String
  deriving DecidableEq, Repr

instance : HasId FullResultRow := ⟨fun r => r.id⟩

/-- The tables of the other loops and handlers that the prober reads, and those it writes. -/
structure MonitorTables where
  windows : Table Maintenance
  results : Table FullResultRow
  metrics : Metrics
  heartbeats : String → Option ℤ

/-- Whether the window covers a component at a time. -/
def Maintenance.covers (m : Maintenance) (component : String) (now : ℤ) : Bool :=
  decide (m.startsAt ≤ now) && decide (now < m.endsAt) &&
    (m.component == component || m.component == "")

/-- `latest_sample`. -/
def Metrics.latestSample (s : Metrics) (series : Series) : Option ℚ :=
  (newestOf s.samples series).bind fun ts => s.samples.get? (ts, series)

/-- `active_maintenance`; no reader cares for its order. -/
def MonitorTables.activeMaintenance (t : MonitorTables) (now : ℤ) : List Maintenance :=
  t.windows.rows.filter fun m => m.startsAt ≤ now && now < m.endsAt

/-- What the sources answer at the start of a round. -/
structure Sources where
  dockerConnects : Bool
  containers : Option (List ContainerStat)
  systemdConnects : Bool
  unitStates : List String → Option (List UnitStat)

/-- What the network answers one probe. -/
structure Replies where
  http : HttpReply
  tcp : TcpReply

/-! ### The loop -/

/-- A round that is under way. -/
structure ProbeRound where
  cfg : MonitorConfig
  now : ℤ
  /-- The checks that are still to be probed. -/
  pending : List ProbedCheck
  containers : Option (List ContainerStat)
  units : Option (List UnitStat)
  maintenance : List Maintenance

/-- The variables of `prober_loop`. -/
structure ProberLoop where
  last : String → Option ℤ := fun _ => none
  firstRun : String → Option ℤ := fun _ => none
  docker : Bool := false
  systemd : Bool := false
  /-- The config the engine was last reconciled with, and its version. -/
  applied : Option (MonitorConfig × ℕ) := none
  round : Option ProbeRound := none

/-- One probe of a check. -/
structure Probe where
  config : Config
  check : ProbedCheck
  now : ℤ
  /-- What it reported, if there was something to judge it by. -/
  result : Option ProbeResult

def Probe.verdict (p : Probe) : Option Bool := p.result.map (·.ok)

/-- The probe of a check in a round. -/
def ProbeRound.probe (round : ProbeRound) (c : ProbedCheck) (result : Option ProbeResult) :
    Probe where
  config := round.cfg.config
  check := c
  now := round.now
  result := result

/-- The program and its database, as far as probing goes. -/
structure Monitor where
  world : World
  tables : MonitorTables
  cfg : MonitorConfig
  /-- Counts the configs; two of them are never the same allocation. -/
  version : ℕ
  /-- Whether the process runs. -/
  alive : Bool
  loop : ProberLoop
  log : List Probe

namespace Monitor

/-- The world is a part of it. -/
def worldPart : Prog.Part Monitor World where
  get s := s.world
  set s w := { s with world := w }
  get_set _ _ := rfl
  set_set _ _ _ := rfl
  set_get _ := rfl

/-- So are the tables of the metrics. -/
def metricsPart : Prog.Part Monitor Metrics where
  get s := s.tables.metrics
  set s m := { s with tables := { s.tables with metrics := m } }
  get_set _ _ := rfl
  set_set _ _ _ := rfl
  set_get _ := rfl

/-- `forget_removed_checks`, and the engine is reconciled. -/
def forgetRemovedChecks (cfg : MonitorConfig) (version : ℕ) (s : Monitor) : Monitor :=
  { s with
    loop := { s.loop with
      last := fun id => if (cfg.config.check id).isSome then s.loop.last id else none
      firstRun := fun id => if (cfg.config.check id).isSome then s.loop.firstRun id else none
      applied := some (cfg, version) } }

/-- `ensure_docker` and `ensure_systemd`. -/
def ensureSources (cfg : MonitorConfig) (sources : Sources) (s : Monitor) : Monitor :=
  { s with
    loop := { s.loop with
      docker := cfg.dockerEnabled && (s.loop.docker || sources.dockerConnects)
      systemd := cfg.systemdEnabled && (s.loop.systemd || sources.systemdConnects) } }

/-- The checks that are due. -/
def due (cfg : MonitorConfig) (now : ℤ) (s : Monitor) : List ProbedCheck :=
  cfg.probes.filter fun c => decide (now - (s.loop.last c.id).getD 0 ≥ asI64 c.interval.asSecs)

/-- Note the time of the checks that are due. -/
def mark (ids : List String) (now : ℤ) (s : Monitor) : Monitor :=
  { s with
    loop := { s.loop with
      last := fun id => if id ∈ ids then some now else s.loop.last id
      firstRun := fun id =>
        if id ∈ ids then some ((s.loop.firstRun id).getD now) else s.loop.firstRun id } }

variable (pf : Platform) (fmt : NumberFormat)

/-- The start of the loop. `run` has bootstrapped the engine, so that only later swaps need
reconciling. -/
def entered (s : Monitor) : Monitor :=
  { s with loop := { s.loop with applied := some (s.cfg, s.version) } }

/-- Reconcile the engine with the running config, which the round then goes by. When it fails, the
next tick tries again. -/
def reconcile (applied : MonitorConfig × ℕ) (now : ℤ) : Prog Monitor MonitorConfig := do
  let cfg ← Prog.get (·.cfg)
  let version ← Prog.get (·.version)
  if version ≠ applied.2 then do
    let forgotten ← Prog.attempt (Prog.lift worldPart
      (AlertEngine.forgetUnmonitored pf cfg.config (some applied.1.config) now))
    if forgotten.isSome then Prog.modify (forgetRemovedChecks cfg version)
    return cfg
  else return cfg

/-- The round with the checks that are due, and what the sources answered. -/
def begun (cfg : MonitorConfig) (now : ℤ) (due : List ProbedCheck) (sources : Sources)
    (maintenance : List Maintenance) (s : Monitor) : Monitor :=
  { s with
    loop := { s.loop with
      round := some {
        cfg, now, maintenance
        pending := due
        containers :=
          if due.any (·.kind == .docker) && s.loop.docker then sources.containers else none
        units :=
          if due.any (·.kind == .systemd) && s.loop.systemd && !cfg.configuredUnits.isEmpty then
            sources.unitStates cfg.configuredUnits
          else none } } }

/-- The start of a round, up to the loop over the checks that are due. -/
def tick (applied : MonitorConfig × ℕ) (now : ℤ) (sources : Sources) : Prog Monitor Unit := do
  let cfg ← reconcile pf applied now
  Prog.modify (ensureSources cfg sources)
  let due ← Prog.get (due cfg now)
  if due = [] then return
  else do
    Prog.modify (mark (due.map (·.id)) now)
    let maintenance ← Prog.attempt (Prog.query (·.tables.activeMaintenance now))
    Prog.modify (begun cfg now due sources (maintenance.getD []))

/-- The latest value of a metric of the host; a query that fails finds none. -/
def latest (metric key : String) : Prog Monitor (Option ℚ) := do
  let value ← Prog.attempt (Prog.query (·.tables.metrics.latestSample ⟨"host", metric, key⟩))
  return value.getD none

/-- Run one check. `none` means there was nothing to judge it by. -/
def evaluate (round : ProbeRound) (replies : Replies) (c : ProbedCheck) :
    Prog Monitor (Option ProbeResult) := do
  match c.kind with
  | .http => return some (c.probeHttp fmt replies.http)
  | .tcp => return some (c.probeTcp fmt replies.tcp)
  | .disk => return some (c.probeResource fmt (← latest "disk_used_pct" (c.mount.getD "")))
  | .ram => return some (c.probeResource fmt (← latest "mem_pct" ""))
  | .swap => return some (c.probeResource fmt (← latest "swap_pct" ""))
  | .load => return some (c.probeResource fmt (← latest "load1" ""))
  | .docker => return round.containers.map c.probeDocker
  | .systemd => return round.units.map c.probeSystemd
  | .heartbeat => do
    let last ← Prog.attempt (Prog.query (·.tables.heartbeats c.id))
    let since ← Prog.get (·.loop.firstRun c.id)
    return some (c.probeHeartbeat (last.getD none) (since.getD round.now) round.now)

/-- `insert_check_result`. -/
def insertResult (now : ℤ) (checkId : String) (r : ProbeResult) (s : Monitor) : Monitor :=
  { s with
    tables := { s.tables with
      results := s.tables.results.insert
        (fun id => ⟨⟨id, now, checkId, r.ok, r.degraded⟩, r.latencyMs, r.message⟩)
        fun _ => rfl } }

/-- The engine follows the config of the round. -/
def followed (cfg : Config) (w : World) : World :=
  { w with engine := { w.engine with publicUrl := cfg.publicUrl, subscriptions := some cfg } }

/-- What the engine is fed. -/
def fedInput (round : ProbeRound) (c : ProbedCheck) (r : ProbeResult) : AlertInput :=
  let component := round.cfg.config.incidentComponent c.id
  { component
    check := c.toCheckConfig
    ok := r.ok
    message := r.message
    now := round.now
    muted := round.maintenance.any (·.covers component round.now) }

/-- Note a probe in the log. -/
def logged (p : Probe) (s : Monitor) : Monitor := { s with log := s.log ++ [p] }

/-- Store a result. -/
def record (round : ProbeRound) (c : ProbedCheck) (r : ProbeResult) : Prog Monitor Unit := do
  let _ ← Prog.attempt (Prog.exec (insertResult round.now c.id r))
  let _ ← Prog.attempt ((insertSamples (checkSamples c r round.now)).prog.lift metricsPart)
  return ()

/-- One turn of the loop over the checks that are due. -/
def probeCheck (round : ProbeRound) (c : ProbedCheck) (replies : Replies) : Prog Monitor Unit := do
  match ← evaluate fmt round replies c with
  | none => Prog.modify (logged (round.probe c none))
  | some r => do
    record round c r
    Prog.modify (logged (round.probe c (some r)))
    Prog.lift worldPart do
      Prog.modify (followed round.cfg.config)
      let _ ← Prog.attempt (AlertEngine.handle pf (fedInput round c r))
      return ()

/-- The round goes on to its next check, or it is over. -/
def goOn (round : ProbeRound) (rest : List ProbedCheck) (s : Monitor) : Monitor :=
  { s with
    loop := { s.loop with
      round := if rest = [] then none else some { round with pending := rest } } }

/-- The next check of the round. -/
def probe (replies : Replies) : Prog Monitor Unit := do
  match ← Prog.get (·.loop.round) with
  | none => return
  | some round =>
    match round.pending with
    | [] => return
    | c :: rest => do
      Prog.modify (goOn round rest)
      probeCheck pf fmt round c replies

/-- The config that was applied last, when the loop waits for a tick. -/
def idle (s : Monitor) : Option (MonitorConfig × ℕ) :=
  if s.alive && s.loop.round.isNone then s.loop.applied else none

/-- A new process: nothing of the old one is left but its tables. -/
def restarted (cfg : MonitorConfig) (s : Monitor) : Monitor where
  world := s.world.restarted cfg.config
  tables := s.tables
  cfg := cfg
  version := 0
  alive := false
  loop := {}
  log := []

/-- `run`, up to the loops. -/
def start (cfg : MonitorConfig) (now : ℤ) : Prog Monitor Unit := do
  Prog.modify (restarted cfg)
  Prog.lift worldPart (AlertEngine.bootstrap pf cfg.config now)
  Prog.modify fun s => { s with alive := true }

/-- The config watcher has swapped in a new config. -/
def reload (cfg : MonitorConfig) (s : Monitor) : Monitor :=
  { s with
    cfg
    version := s.version + 1
    world := s.world.reloaded cfg.config }

/-- A database, and no process yet. -/
def initial (store : Store) (tables : MonitorTables) (cfg : MonitorConfig) : Monitor where
  world := .initial store cfg.config
  tables := tables
  cfg := cfg
  version := 0
  alive := false
  loop := {}
  log := []

end Monitor

/-! ### Runs -/

inductive MonitorOp
  | start (cfg : MonitorConfig) (now : ℤ)
  | reload (cfg : MonitorConfig)
  /-- The loop starts. -/
  | enter
  /-- A new round, when the one before is over. -/
  | tick (now : ℤ) (sources : Sources)
  | probe (replies : Replies)
  /-- An action of the operator on incidents. -/
  | operator (op : Op) (h : op.isOperator)
  /-- Others write their tables, in any way. -/
  | others (tables : MonitorTables)

variable (pf : Platform) (fmt : NumberFormat)

/-- The program of an operation. -/
def MonitorOp.prog : MonitorOp → Prog Monitor Unit
  | .start cfg now => Monitor.start pf cfg now
  | .reload cfg => Prog.modify (Monitor.reload cfg)
  | .enter => do
    let ready ← Prog.get fun s => s.alive && s.loop.applied.isNone
    if ready then Prog.modify Monitor.entered else return ()
  | .tick now sources => do
    match ← Prog.get Monitor.idle with
    | some applied => Monitor.tick pf applied now sources
    | none => return ()
  | .probe replies => do
    let alive ← Prog.get (·.alive)
    if alive then Monitor.probe pf fmt replies else return ()
  | .operator op _ => Prog.lift Monitor.worldPart (op.prog pf)
  | .others tables => Prog.modify fun s => { s with tables }

/-- One operation against a fault plan. -/
def Monitor.step (s : Monitor) (op : MonitorOp × List Bool) : Monitor :=
  ((op.1.prog pf fmt).run op.2 s).state

end Dunlin

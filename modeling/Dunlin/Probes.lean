import Dunlin.Heartbeats
import Dunlin.Rollup
import Mathlib.Data.List.Infix

/-!
# Probes

The model of `prober.rs`: what one check reports, given what the network, Docker, systemd and the
tables say. An HTTP or TCP probe is judged by a reply, which is all that the network has a say in;
the other checks read what has been collected already.

Every probe explains itself: a check that fails or is degraded has a message (`Explained`).

Numbers that the source keeps in `f64` are rational here, so a threshold that is no number is not
part of the model. How numbers and durations are printed is a parameter.

## Main results

* `explained_probeHttp`, `explained_probeTcp`, `explained_probeResource`, `explained_probeDocker`,
  `explained_probeSystemd`, `explained_probeHeartbeat` — each kind of probe explains itself
-/

namespace Dunlin

open Lib

/-- `[[checks]]`, as the prober reads it. -/
structure ProbedCheck extends CheckConfig where
  kind : CheckType
  timeout : Option Duration := none
  url : Option String := none
  expectedStatus : Option (List ℕ) := none
  latencyDegraded : Option Duration := none
  bodyContains : Option String := none
  certDaysWarn : Option ℤ := none
  host : Option String := none
  port : Option ℕ := none
  unit : Option String := none
  expectedActive : Option (List String) := none
  container : Option String := none
  restartLimit : Option ℕ := none
  mount : Option String := none
  warn : Option ℚ := none
  critical : Option ℚ := none
  period : Option Duration := none
  grace : Option Duration := none
  token : Option String := none
  deriving DecidableEq, Repr

/-- The result of evaluating one check once: `ProbeOutcome` with all its fields. -/
structure ProbeResult extends ProbeOutcome where
  degraded : Bool := false
  latencyMs : Option ℚ := none
  deriving DecidableEq, Repr

namespace ProbeResult

def up : ProbeResult := { ok := true, message := none }

/-- `ProbeOutcome::degraded`. -/
def slow (message : String) : ProbeResult :=
  { ok := true, message := some message, degraded := true }

def down (message : String) : ProbeResult := { ok := false, message := some message }

def withLatency (ms : ℚ) (r : ProbeResult) : ProbeResult := { r with latencyMs := some ms }

/-- Only a check that passes can be degraded, and one that fails or is degraded says why. -/
structure Explained (r : ProbeResult) : Prop where
  degraded_ok : r.degraded = true → r.ok = true
  message : r.ok = false ∨ r.degraded = true → r.message.isSome

theorem explained_up : up.Explained := ⟨nofun, nofun⟩

theorem explained_slow (message : String) : (slow message).Explained := ⟨fun _ => rfl, fun _ => rfl⟩

theorem explained_down (message : String) : (down message).Explained := ⟨nofun, fun _ => rfl⟩

theorem Explained.withLatency {r : ProbeResult} (h : r.Explained) (ms : ℚ) :
    (r.withLatency ms).Explained := ⟨h.degraded_ok, h.message⟩

end ProbeResult

/-- How the source prints numbers and durations. -/
structure NumberFormat where
  /-- `{:.0}` and `{:.1}`. -/
  fixed : ℕ → ℚ → String
  /-- `{}`. -/
  display : ℚ → String
  /-- `{:?}` of a `Duration`. -/
  debug : Duration → String

/-- `docker.rs`, as far as a probe reads it. -/
structure ContainerStat where
  name : String
  running : Bool
  health : Option String
  restartCount : ℤ
  deriving DecidableEq, Repr

/-- `systemd.rs`. -/
structure UnitStat where
  unit : String
  activeState : String
  deriving DecidableEq, Repr

/-- What comes of an HTTP request. -/
inductive HttpReply
  | failed (isTimeout : Bool) (error : String)
  /-- The time to the response, its status, the body if it can be read, the time that has passed
  by then, and the days that the certificate has left, if it can be had. -/
  | answered (latency : ℚ) (status : ℕ) (body : Except String String) (elapsed : Duration)
    (daysLeft : Except String ℤ)

/-- What comes of a TCP connection. -/
inductive TcpReply
  | connected (latency : ℚ)
  | failed (error : String)
  | timedOut

/-- `i64 as u64`. -/
def asU64 (n : ℤ) : ℕ := (n % 2 ^ 64).toNat

namespace ProbedCheck

variable (fmt : NumberFormat) (c : ProbedCheck)

def timeoutOr (default : Duration) : Duration := c.timeout.getD default

/-- The statuses that pass: `200..400` unless others are configured. -/
def allows (status : ℕ) : Bool :=
  match c.expectedStatus with
  | some allowed => allowed.contains status
  | none => 200 ≤ status && status < 400

/-- The body does not hold the text it has to. -/
def bodyFault (body : Except String String) : Option String :=
  match c.bodyContains, body with
  | none, _ => none
  | some needle, .ok text =>
    if needle.toList <:+: text.toList then none else some "body did not contain expected text"
  | some _, .error e => some s!"reading body: {e}"

/-- The certificate check at the end of `probe_http`. -/
def judgeCert (latency : ℚ) (daysLeft : Except String ℤ) (r : ProbeResult) : ProbeResult :=
  match c.certDaysWarn with
  | none => r
  | some warnDays =>
    match daysLeft with
    | .ok days =>
      if days < 0 then (ProbeResult.down "TLS certificate expired").withLatency latency
      else if days < warnDays then
        (ProbeResult.slow s!"TLS certificate expires in {days} days").withLatency latency
      else r
    | .error e => { r with message := some s!"TLS check failed: {e}" }

def probeHttp (reply : HttpReply) : ProbeResult :=
  match c.url, reply with
  | none, _ => .down "no url configured"
  | some _, .failed true _ => .down s!"timeout after {fmt.debug (c.timeoutOr (.fromSecs 10))}"
  | some _, .failed false e => .down s!"request failed: {e}"
  | some _, .answered latency status body elapsed daysLeft =>
    if !c.allows status then
      (ProbeResult.down s!"unexpected status {status}").withLatency latency
    else
      match c.bodyFault body with
      | some message => (ProbeResult.down message).withLatency latency
      | none =>
        let r := if c.latencyDegraded.any fun limit => decide (elapsed.nanos > limit.nanos) then
            ProbeResult.slow s!"slow: {fmt.fixed 0 latency} ms" else .up
        c.judgeCert latency daysLeft (r.withLatency latency)

def probeTcp (reply : TcpReply) : ProbeResult :=
  match c.host, c.port with
  | some _, some _ =>
    match reply with
    | .connected latency => ProbeResult.up.withLatency latency
    | .failed e => .down s!"connect failed: {e}"
    | .timedOut => .down s!"timeout after {fmt.debug (c.timeoutOr (.fromSecs 5))}"
  | _, _ => .down "no host/port configured"

/-- What a resource check calls its resource. -/
def resourceLabel : String :=
  match c.kind with
  | .disk =>
    let mount := c.mount.getD ""
    s!"disk {mount}"
  | .ram => "memory"
  | .swap => "swap"
  | .load => "load"
  | _ => "resource"

/-- Resource threshold check against the latest collected value. -/
def probeResource (latest : Option ℚ) : ProbeResult :=
  match latest with
  | none => { ok := true, message := some "no sample yet" }
  | some value =>
    match c.critical.filter fun limit => decide (value ≥ limit) with
    | some limit =>
      .down s!"{c.resourceLabel} at {fmt.fixed 1 value} (>= {fmt.display limit})"
    | none =>
      match c.warn.filter fun limit => decide (value ≥ limit) with
      | some limit =>
        .slow s!"{c.resourceLabel} at {fmt.fixed 1 value} (>= {fmt.display limit})"
      | none => .up

/-- Docker container check: running, health and restart loop. -/
def probeDocker (containers : List ContainerStat) : ProbeResult :=
  let name := c.container.getD ""
  match containers.find? (·.name == name) with
  | none => .down s!"container {name} not found"
  | some stat =>
    if !stat.running then .down "container is not running"
    else if stat.health = some "unhealthy" then .down "container is unhealthy"
    else if stat.health = some "starting" then .slow "container health is starting"
    else
      match c.restartLimit.filter fun limit => decide (asU64 stat.restartCount > limit) with
      | some limit => .down s!"restart loop: {stat.restartCount} restarts (limit {limit})"
      | none => .up

/-- systemd unit check against the expected states. -/
def probeSystemd (states : List UnitStat) : ProbeResult :=
  let unit := c.unit.getD ""
  match states.find? (·.unit == unit) with
  | none => .down s!"unit {unit} state unknown"
  | some stat =>
    if (c.expectedActive.getD ["active"]).contains stat.activeState then .up
    else .down s!"unit {unit} is {stat.activeState}"

/-- The check as `probe_heartbeat` reads it. -/
def watched : WatchedCheck where
  id := c.id
  kind := c.kind
  interval := c.interval
  period := c.period
  grace := c.grace
  token := c.token

def probeHeartbeat (lastPing : Option ℤ) (watchingSince now : ℤ) : ProbeResult :=
  { c.watched.probeHeartbeat lastPing watchingSince now with }

end ProbedCheck

/-! ### Results are explained -/

section Explained

open ProbeResult

variable (fmt : NumberFormat) (c : ProbedCheck)

theorem explained_judgeCert {latency : ℚ} {daysLeft : Except String ℤ} {r : ProbeResult}
    (h : r.Explained) : (c.judgeCert latency daysLeft r).Explained := by
  rw [ProbedCheck.judgeCert]
  cases c.certDaysWarn with
  | none => exact h
  | some warnDays =>
    cases daysLeft with
    | error e => exact ⟨h.degraded_ok, fun _ => rfl⟩
    | ok days =>
      show (if days < 0 then _ else if days < warnDays then _ else r).Explained
      split_ifs
      · exact (explained_down _).withLatency latency
      · exact (explained_slow _).withLatency latency
      · exact h

theorem explained_probeHttp (reply : HttpReply) : (c.probeHttp fmt reply).Explained := by
  rw [ProbedCheck.probeHttp.eq_def]
  split
  · exact explained_down _
  · exact explained_down _
  · exact explained_down _
  · rename_i latency status body elapsed daysLeft _
    split
    · exact (explained_down _).withLatency latency
    · split
      · exact (explained_down _).withLatency latency
      · refine explained_judgeCert c (Explained.withLatency ?_ latency)
        split
        · exact explained_slow _
        · exact explained_up

theorem explained_probeTcp (reply : TcpReply) : (c.probeTcp fmt reply).Explained := by
  rw [ProbedCheck.probeTcp.eq_def]
  split
  · cases reply with
    | connected latency => exact explained_up.withLatency latency
    | failed e => exact explained_down _
    | timedOut => exact explained_down _
  · exact explained_down _

theorem explained_probeResource (latest : Option ℚ) : (c.probeResource fmt latest).Explained := by
  rw [ProbedCheck.probeResource.eq_def]
  split
  · exact ⟨nofun, fun _ => rfl⟩
  · split
    · exact explained_down _
    · split
      · exact explained_slow _
      · exact explained_up

theorem explained_probeDocker (containers : List ContainerStat) :
    (c.probeDocker containers).Explained := by
  rw [ProbedCheck.probeDocker.eq_def]
  dsimp only
  split
  · exact explained_down _
  · split_ifs
    · exact explained_down _
    · exact explained_down _
    · exact explained_slow _
    · split
      · exact explained_down _
      · exact explained_up

theorem explained_probeSystemd (states : List UnitStat) : (c.probeSystemd states).Explained := by
  rw [ProbedCheck.probeSystemd.eq_def]
  dsimp only
  split
  · exact explained_down _
  · split
    · exact explained_up
    · exact explained_down _

theorem explained_probeHeartbeat (lastPing : Option ℤ) (watchingSince now : ℤ) :
    (c.probeHeartbeat lastPing watchingSince now).Explained := by
  refine ⟨nofun, fun hfails => ?_⟩
  have hok : (c.watched.probeHeartbeat lastPing watchingSince now).ok = false :=
    hfails.resolve_right nofun
  show (c.watched.probeHeartbeat lastPing watchingSince now).message.isSome
  cases lastPing with
  | none =>
    rw [WatchedCheck.probeHeartbeat]
    split <;> rfl
  | some ts =>
    rw [WatchedCheck.probeHeartbeat] at hok ⊢
    split
    · rfl
    · rename_i hlate
      rw [if_neg hlate] at hok
      cases hok

end Explained

/-- The samples that are stored with a result. -/
def checkSamples (c : ProbedCheck) (r : ProbeResult) (now : ℤ) : List Sample :=
  ⟨now, "check", "up", c.id, if r.ok then 1 else 0⟩ ::
    (r.latencyMs.map fun ms => ⟨now, "check", "latency_ms", c.id, ms⟩).toList

end Dunlin

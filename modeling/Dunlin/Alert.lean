import Dunlin.Lib.Prog
import Dunlin.Store

/-!
# The alert engine

The model of `alert.rs`: the state machine of one check, and the engine that turns its transitions
into incidents, timeline entries, subscriber messages and notifications.

The engine is a `Prog` over a `World`. A statement of the database can fail, and `?` then leaves
the rest of the function out; the engine's own memory (`machines`) changes between statements and
never fails. What a failing statement leaves behind is therefore part of the model.

`publishIncident` is here too, since the engine and the operator's handlers share it. It swallows
every error, and its transaction counts as one statement.

## Scope

A time is a reading of the clock in seconds. It is an integer here and `i64` in the code, where the
difference of two of them (`now - t` in `onResult`) stays in range as long as no two readings are
`2 ^ 63` seconds apart. The counters of a machine are `u32` and wrap around, as in a release build.
-/

namespace Dunlin

open Lib

/-! ### The machine of one check -/

/-- What the state machine wants done after one result. -/
inductive Transition
  | nothing
  | open
  | resolve (id : ℤ)
  | remind (id : ℤ)
  deriving DecidableEq, Repr

/-- Failure/success counters for one check. The counters are `u32`. -/
structure CheckMachine where
  state : Health := .up
  failures : ℕ := 0
  successes : ℕ := 0
  lastReminder : Option ℤ := none
  incidentId : Option ℤ := none
  deriving DecidableEq, Repr

namespace CheckMachine

/-- Rebuild a machine after a restart from an already-open incident. -/
def resumed (incidentId : ℤ) : CheckMachine := { state := .down, incidentId := some incidentId }

/-- `+= 1` on a `u32`. -/
def bump (n : ℕ) : ℕ := (n + 1) % 2 ^ 32

/-- Feed one result. -/
def onResult (m : CheckMachine) (check : CheckConfig) (ok : Bool) (now : ℤ) :
    CheckMachine × Transition :=
  if ok then
    let m := { m with failures := 0, successes := bump m.successes }
    if m.state = .down ∧ m.successes ≥ check.successesToResolve then
      let m' := { m with state := .up, successes := 0, lastReminder := none, incidentId := none }
      match m.incidentId with
      | some id => (m', .resolve id)
      | none => (m', .nothing)
    else (m, .nothing)
  else
    let m := { m with successes := 0, failures := bump m.failures }
    if m.state = .up then
      if m.failures ≥ check.failuresToOpen then
        ({ m with state := .down, lastReminder := some now }, .open)
      else (m, .nothing)
    else
      let reminder := asI64 check.reminderInterval.asSecs
      if m.lastReminder.all (now - · ≥ reminder) then
        let m := { m with lastReminder := some now }
        match m.incidentId with
        | some id => (m, .remind id)
        | none => (m, .nothing)
      else (m, .nothing)

end CheckMachine

/-- One probe outcome fed into the engine. -/
structure AlertInput where
  component : String
  check : CheckConfig
  ok : Bool
  message : Option String
  now : ℤ
  /-- Suppress notifications (maintenance window). -/
  muted : Bool

/-- Every check's machine, and the parts of the config the engine follows. -/
structure AlertEngine where
  machines : String → Option CheckMachine := fun _ => none
  /-- `public_url` from the config; notifications link to the incident. -/
  publicUrl : Option String
  /-- The running config, for telling subscribers; `none` tells nobody. -/
  subscriptions : Option Config := none

/-- The program as far as incidents go. -/
structure World where
  store : Store
  engine : AlertEngine
  /-- The config in force, which the operator's handlers read. -/
  running : Config
  /-- The config the prober loop last reconciled the engine with. -/
  applied : Config
  /-- What the notifiers were given, oldest first. -/
  sent : List Notification

namespace World

/-- The incident the machine of a check points at. -/
def held (w : World) (checkId : String) : Option ℤ :=
  (w.engine.machines checkId).bind (·.incidentId)

/-- `machines.entry(check_id).or_default()`. -/
def machine (w : World) (checkId : String) : CheckMachine :=
  (w.engine.machines checkId).getD {}

/-- `machines.insert(check_id, m)`. -/
def setMachine (checkId : String) (m : CheckMachine) (w : World) : World :=
  { w with
    engine := { w.engine with machines := Function.update w.engine.machines checkId (some m) } }

/-- A change to the tables. -/
def onStore (f : Store → Store) (w : World) : World := { w with store := f w.store }

end World

/-! ### Statements -/

/-- A statement that changes the tables. -/
def statement (f : Store → Store) : Prog World Unit := .exec (World.onStore f)

/-- A query. -/
def select {α : Type} (f : Store → α) : Prog World α := .query fun w => f w.store

/-- `create_incident`, which returns the new id. -/
def createIncident (component title : String) (impact : State) (state : IncidentState)
    (auto : Bool) (ts : ℤ) : Prog World ℤ :=
  .execReturning
    (World.onStore (·.createIncident component title impact state auto ts))
    fun w => w.store.incidents.next

/-- `add_update`, which the foreign key rejects for an incident that does not exist. -/
def addUpdate (incidentId ts : ℤ) (state : IncidentState) (message : String) (auto : Bool) :
    Prog World Unit :=
  .stmt
    (fun w => if (w.store.incident incidentId).isSome then
      w.onStore (·.addUpdate incidentId ts state message auto) else w)
    (fun w => if (w.store.incident incidentId).isSome then .done () else .fail) .fail

/-- Tell subscribers about an incident change. Failing to queue must not fail what the operator or
the alert engine did. -/
def publishIncident (cfg : Config) (incidentId : ℤ) (change : IncidentChange) (message : String)
    (now : ℤ) : Prog World Unit :=
  if !cfg.subscriptions.enabled then pure ()
  else do
    let _ ← Prog.attempt do
      let some incident ← select (·.incident incidentId) | return ()
      if ← select (·.isQuiet incidentId) then return ()
      statement (·.publish cfg (change.event (incidentEvent cfg incident message)) now)
    return ()

/-! ### The engine -/

/-- A probe error as a sentence, for the timeline. -/
def sentenceCase (pf : Platform) (text : String) : String :=
  match (trim text).toList with
  | [] => ""
  | first :: rest =>
    let out := pf.toUppercase first ++ rest
    if out.getLast?.any fun c => c == '.' || c == '!' || c == '?' then String.ofList out
    else String.ofList (out ++ ['.'])

/-- Whether some check in `cfg` reports to a component. -/
def Config.monitors (cfg : Config) (component : String) : Bool :=
  (cfg.checks.map fun c => cfg.incidentComponent c.id).contains component ||
    ((cfg.components.filter fun c => c.check.any (· ≠ "")).map (·.id)).contains component

/-- The component a check reports to is monitored. -/
theorem Config.monitors_incidentComponent (cfg : Config) {c : CheckConfig} (h : c ∈ cfg.checks) :
    cfg.monitors (cfg.incidentComponent c.id) := by
  simp only [monitors, Bool.or_eq_true, List.contains_iff_mem, List.mem_map]
  exact .inl ⟨c, h, rfl⟩

namespace AlertEngine

/-- A notification with the link to its incident. -/
def linkTo (publicUrl : Option String) (n : Notification) : Notification :=
  match publicUrl, n.incidentId with
  | some base, some id =>
    { n with
      message := s!"{n.message}\n{incidentUrl base id}"
      link := some (incidentUrl base id) }
  | _, _ => n

/-- Hand a notification to the notifiers. -/
def notify (n : Notification) : Prog World Unit :=
  .modify fun w => { w with sent := w.sent ++ [linkTo w.engine.publicUrl n] }

section

variable (pf : Platform)

/-- Resolve one automatic incident nobody reports to any more, unless it is not one. -/
def forgetIncident (cfg : Config) (previous : Option Config) (now : ℤ) (resolved : List ℤ)
    (incident : Incident) : Prog World (List ℤ) :=
  if !incident.auto || cfg.monitors incident.component then pure resolved
  else do
    let name := ((previous.bind (·.component incident.component)).map (·.name)).getD
      incident.component
    statement (·.resolveIncident incident.id now)
    let text := s!"Resolved: {name} is no longer monitored."
    addUpdate incident.id now .resolved text true
    publishIncident cfg incident.id .resolved text now
    return resolved ++ [incident.id]

/-- Drop the machines of checks that are gone, and those pointing at a resolved incident. -/
def retain (cfg : Config) (resolved : List ℤ) (w : World) : World :=
  { w with
    engine := { w.engine with
      machines := fun checkId => (w.engine.machines checkId).filter fun m =>
        (cfg.check checkId).isSome && m.incidentId.all (!resolved.contains ·) } }

/-- Resolve automatic incidents on components that no check in `cfg` reports to any more, and drop
machines of checks that are gone. Returns the ids of the incidents it resolved. -/
def forgetUnmonitored (cfg : Config) (previous : Option Config) (now : ℤ) :
    Prog World (List ℤ) := do
  let incidents ← select (·.activeIncidents pf)
  let resolved ← incidents.foldlM (forgetIncident cfg previous now) []
  Prog.modify (retain cfg resolved)
  return resolved

/-- Resume the machine of one check from an open incident. -/
def resume (cfg : Config) (check : CheckConfig) : Prog World Unit := do
  let incident ← select (·.activeIncidentFor pf (cfg.incidentComponent check.id))
  match incident with
  | some incident => Prog.modify (World.setMachine check.id (.resumed incident.id))
  | none => pure ()

/-- Rebuild machines for checks that already have an open incident. -/
def bootstrap (cfg : Config) (now : ℤ) : Prog World Unit := do
  let _ ← forgetUnmonitored pf cfg none now
  cfg.checks.foldlM (fun _ check => resume pf cfg check) ()

/-- Start over when the incident the machine points at is closed. -/
def dropClosed (checkId : String) : Prog World Unit := do
  match ← Prog.get (World.held · checkId) with
  | none => pure ()
  | some id =>
    let incident ← select (·.incident id)
    if incident.all (·.resolvedAt.isSome) then Prog.modify (World.setMachine checkId {})

/-- Feed the result to the machine. -/
def advance (input : AlertInput) : Prog World Transition :=
  .mem
    (fun w => w.setMachine input.check.id
      ((w.machine input.check.id).onResult input.check input.ok input.now).1)
    fun w => .done ((w.machine input.check.id).onResult input.check input.ok input.now).2

/-- Open a new incident. -/
def openNew (input : AlertInput) : Prog World ℤ := do
  let id ← createIncident input.component s!"{input.check.name} is down" .majorOutage
    .investigating true input.now
  let text := sentenceCase pf (input.message.getD "check failed")
  addUpdate id input.now .investigating text true
  if input.muted then statement (·.markQuiet id)
  else
    match ← Prog.get (·.engine.subscriptions) with
    | some cfg => publishIncident cfg id .opened text input.now
    | none => pure ()
  return id

/-- Point the machine at an incident: `if let Some(m) = machines.get_mut(…)`. -/
def point (checkId : String) (id : ℤ) (w : World) : World :=
  match w.engine.machines checkId with
  | some m => w.setMachine checkId { m with incidentId := some id }
  | none => w

/-- The notification of a check that went down. -/
def downNotification (input : AlertInput) (id : ℤ) : Notification where
  event := "down"
  title := s!"{input.check.name} is down"
  message := input.message.getD "check failed"
  component := input.component
  state := .majorOutage
  incidentId := some id
  link := none

/-- The notification of a check that recovered. -/
def upNotification (input : AlertInput) (id : ℤ) : Notification where
  event := "up"
  title := s!"{input.check.name} recovered"
  message := "The check is passing again."
  component := input.component
  state := .operational
  incidentId := some id
  link := none

/-- The reminder that a check is still down. -/
def reminderNotification (input : AlertInput) (id : ℤ) : Notification where
  event := "reminder"
  title := s!"{input.check.name} is still down"
  message := input.message.getD "check still failing"
  component := input.component
  state := .majorOutage
  incidentId := some id
  link := none

/-- `Transition::Open`: adopt the component's open incident, or open one. -/
def onOpen (input : AlertInput) : Prog World Unit := do
  let id ← match ← select (·.activeIncidentFor pf input.component) with
    | some existing => pure existing.id
    | none => openNew pf input
  Prog.modify (point input.check.id id)
  if !input.muted then notify (downNotification input id)

/-- `Transition::Resolve`. -/
def onResolve (input : AlertInput) (id : ℤ) : Prog World Unit := do
  statement (·.resolveIncident id input.now)
  let text := "Automatically resolved after recovery."
  addUpdate id input.now .resolved text true
  match ← Prog.get (·.engine.subscriptions) with
  | some cfg => publishIncident cfg id .resolved text input.now
  | none => pure ()
  if !input.muted then notify (upNotification input id)

/-- `Transition::Remind`. -/
def onRemind (input : AlertInput) (id : ℤ) : Prog World Unit :=
  if !input.muted then notify (reminderNotification input id) else pure ()

/-- Feed one probe outcome. -/
def handle (input : AlertInput) : Prog World Unit := do
  dropClosed input.check.id
  match ← advance input with
  | .nothing => pure ()
  | .open => onOpen pf input
  | .resolve id => onResolve input id
  | .remind id => onRemind input id

end

end AlertEngine

end Dunlin

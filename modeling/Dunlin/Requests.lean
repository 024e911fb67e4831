import Dunlin.Lib.Script
import Dunlin.Operator

/-!
# Requests, statement by statement

The handlers of `Operator` and the engine's `handle` and `forgetUnmonitored`, with their database
statements written out as commands (`Cmd`), so that one can say which statement a request is about
to execute while others run in between. Each script is the handler it is named after, word for word,
and the `toProg_` theorem below it says that its program is that handler.

A command is a statement with what it does to the world, and with whether it can fail. A script
takes the answers of its queries and may branch on them, so the statement it is about to execute is
known only at run time. What runs as one program in `Alert` runs here command by command, between
the commands of others.

## Main results

* `prog_handle`, `prog_forgetUnmonitored` — the engine's scripts
* `toProg_script` — every request, as the program of its handler
-/

namespace Dunlin

open Lib

/-! ### Statements -/

/-- A database statement of a request. -/
inductive Cmd
  /-- `create_incident`. -/
  | insert (component title : String) (impact : State) (state : IncidentState) (auto : Bool)
    (ts : ℤ)
  /-- `add_update`. -/
  | entry (incidentId ts : ℤ) (state : IncidentState) (message : String) (auto : Bool)
  /-- `resolve_incident`. -/
  | close (id ts : ℤ)
  /-- `set_incident_state`. -/
  | setState (id : ℤ) (state : IncidentState)
  /-- `mark_quiet`. -/
  | quiet (id : ℤ)
  /-- `subscriptions::publish`. -/
  | publish (cfg : Config) (event : SubscriberEvent) (now : ℤ)
  /-- A query. -/
  | read

/-- What a statement does. -/
def Cmd.act : Cmd → World → World
  | .insert component title impact state auto ts =>
    World.onStore (·.createIncident component title impact state auto ts)
  | .entry incidentId ts state message auto => fun w =>
    if (w.store.incident incidentId).isSome then
      w.onStore (·.addUpdate incidentId ts state message auto) else w
  | .close id ts => World.onStore (·.resolveIncident id ts)
  | .setState id state => World.onStore (·.setIncidentState id state)
  | .quiet id => World.onStore (·.markQuiet id)
  | .publish cfg event now => World.onStore (·.publish cfg event now)
  | .read => id

/-- A request, or a part of one that returns an `α`. -/
abbrev Job (α : Type) : Type := Script Cmd World α

namespace Job

/-- A query. -/
def select {α : Type} (f : Store → α) : Job α := .execReturning .read fun w => f w.store

def createIncident (component title : String) (impact : State) (state : IncidentState) (auto : Bool)
    (ts : ℤ) : Job ℤ :=
  .execReturning (.insert component title impact state auto ts) fun w => w.store.incidents.next

def addUpdate (incidentId ts : ℤ) (state : IncidentState) (message : String) (auto : Bool) :
    Job Unit :=
  .stmt (.entry incidentId ts state message auto)
    (fun w => if (w.store.incident incidentId).isSome then .done () else .fail) .fail

def publishIncident (cfg : Config) (incidentId : ℤ) (change : IncidentChange) (message : String)
    (now : ℤ) : Job Unit :=
  if !cfg.subscriptions.enabled then pure ()
  else do
    let _ ← Script.attempt do
      let some incident ← select (·.incident incidentId) | return ()
      if ← select (·.isQuiet incidentId) then return ()
      Script.exec (.publish cfg (change.event (incidentEvent cfg incident message)) now)
    return ()

/-! ### The operator -/

/-- `create_incident`. -/
def create (form : CreateIncidentForm) (now : ℤ) : Job Unit := do
  let id ← createIncident form.componentId form.title form.impactState .investigating false now
  addUpdate id now .investigating form.text false
  let cfg ← Script.get (·.running)
  publishIncident cfg id .opened form.text now

/-- `add_update`. -/
def update (id : ℤ) (form : UpdateForm) (now : ℤ) : Job Unit := do
  addUpdate id now form.incidentState form.message false
  if form.incidentState = .resolved then Script.exec (.close id now)
  else Script.exec (.setState id form.incidentState)
  let cfg ← Script.get (·.running)
  publishIncident cfg id (changeFor form.incidentState) form.message now

/-- `resolve_incident`. -/
def resolve (id now : ℤ) : Job Unit := do
  Script.exec (.close id now)
  addUpdate id now .resolved "Resolved by operator." false
  let cfg ← Script.get (·.running)
  publishIncident cfg id .resolved "Resolved by operator." now

/-! ### The engine -/

section

variable (pf : Platform)

def forgetIncident (cfg : Config) (previous : Option Config) (now : ℤ) (resolved : List ℤ)
    (incident : Incident) : Job (List ℤ) :=
  if !incident.auto || cfg.monitors incident.component then pure resolved
  else do
    let name := ((previous.bind (·.component incident.component)).map (·.name)).getD
      incident.component
    Script.exec (.close incident.id now)
    let text := s!"Resolved: {name} is no longer monitored."
    addUpdate incident.id now .resolved text true
    publishIncident cfg incident.id .resolved text now
    return resolved ++ [incident.id]

/-- `forget_unmonitored`. -/
def forgetUnmonitored (cfg : Config) (previous : Option Config) (now : ℤ) : Job (List ℤ) := do
  let incidents ← select (·.activeIncidents pf)
  let resolved ← incidents.foldlM (forgetIncident cfg previous now) []
  Script.modify (AlertEngine.retain cfg resolved)
  return resolved

def dropClosed (checkId : String) : Job Unit := do
  match ← Script.get (World.held · checkId) with
  | none => pure ()
  | some id =>
    let incident ← select (·.incident id)
    if incident.all (·.resolvedAt.isSome) then Script.modify (World.setMachine checkId {})

def advance (input : AlertInput) : Job Transition :=
  .mem
    (fun w => w.setMachine input.check.id
      ((w.machine input.check.id).onResult input.check input.ok input.now).1)
    fun w => .done ((w.machine input.check.id).onResult input.check input.ok input.now).2

def notify (n : Notification) : Job Unit :=
  .modify fun w => { w with sent := w.sent ++ [AlertEngine.linkTo w.engine.publicUrl n] }

def openNew (input : AlertInput) : Job ℤ := do
  let id ← createIncident input.component s!"{input.check.name} is down" .majorOutage
    .investigating true input.now
  let text := sentenceCase pf (input.message.getD "check failed")
  addUpdate id input.now .investigating text true
  if input.muted then Script.exec (.quiet id)
  else
    match ← Script.get (·.engine.subscriptions) with
    | some cfg => publishIncident cfg id .opened text input.now
    | none => pure ()
  return id

def onOpen (input : AlertInput) : Job Unit := do
  let id ← match ← select (·.activeIncidentFor pf input.component) with
    | some existing => pure existing.id
    | none => openNew pf input
  Script.modify (AlertEngine.point input.check.id id)
  if !input.muted then notify (AlertEngine.downNotification input id)

def onResolve (input : AlertInput) (id : ℤ) : Job Unit := do
  Script.exec (.close id input.now)
  let text := "Automatically resolved after recovery."
  addUpdate id input.now .resolved text true
  match ← Script.get (·.engine.subscriptions) with
  | some cfg => publishIncident cfg id .resolved text input.now
  | none => pure ()
  if !input.muted then notify (AlertEngine.upNotification input id)

def onRemind (input : AlertInput) (id : ℤ) : Job Unit :=
  if !input.muted then notify (AlertEngine.reminderNotification input id) else pure ()

/-- `handle`. -/
def handle (input : AlertInput) : Job Unit := do
  dropClosed input.check.id
  match ← advance input with
  | .nothing => pure ()
  | .open => onOpen pf input
  | .resolve id => onResolve input id
  | .remind id => onRemind input id

end

/-! ### They are the handlers -/

section Programs

variable {α : Type} {pf : Platform} {cfg : Config} {previous : Option Config} {id ts now : ℤ}
  {state : IncidentState} {change : IncidentChange} {text : String} {auto : Bool}
  {input : AlertInput}

@[simp] theorem prog_select (f : Store → α) : (select f).toProg Cmd.act = Dunlin.select f := rfl

@[simp] theorem prog_createIncident (component title : String) (impact : State) :
    (createIncident component title impact state auto ts).toProg Cmd.act =
      Dunlin.createIncident component title impact state auto ts := rfl

@[simp] theorem prog_addUpdate :
    (addUpdate id ts state text auto).toProg Cmd.act = Dunlin.addUpdate id ts state text auto := by
  rw [addUpdate, Dunlin.addUpdate]
  simp only [Script.toProg, Cmd.act]
  congr 1
  funext w
  split <;> rfl

@[simp] theorem prog_publishIncident :
    (publishIncident cfg id change text now).toProg Cmd.act =
      Dunlin.publishIncident cfg id change text now := by
  rw [publishIncident, Dunlin.publishIncident]
  split
  · rfl
  · simp only [Script.bind_eq, Script.toProg_bind, Script.toProg_attempt, prog_select,
      Prog.bind_eq, Script.pure_eq, Script.toProg_done, Prog.pure_eq]
    congr 2
    congr 1
    funext i
    cases i with
    | none => rfl
    | some i =>
      simp only [Script.toProg_bind, prog_select]
      congr 1
      funext q
      cases q <;> rfl

theorem prog_create (form : CreateIncidentForm) :
    (create form now).toProg Cmd.act = Operator.create form now := by
  rw [create, Operator.create]
  simp only [Script.bind_eq, Script.toProg_bind, prog_createIncident, prog_addUpdate,
    Script.toProg_get, prog_publishIncident, Prog.bind_eq]

theorem prog_update (form : UpdateForm) :
    (update id form now).toProg Cmd.act = Operator.update id form now := by
  rw [update, Operator.update]
  simp only [Script.bind_eq, Script.toProg_bind, prog_addUpdate, Prog.bind_eq]
  congr 1
  funext _
  split <;> simp only [Script.toProg_bind, Script.toProg_exec, Script.toProg_get,
    prog_publishIncident] <;> rfl

theorem prog_resolve : (resolve id now).toProg Cmd.act = Operator.resolve id now := by
  rw [resolve, Operator.resolve]
  simp only [Script.bind_eq, Script.toProg_bind, Script.toProg_exec, prog_addUpdate,
    Script.toProg_get, prog_publishIncident, Prog.bind_eq]
  rfl

theorem prog_forgetIncident (resolved : List ℤ) (incident : Incident) :
    (forgetIncident cfg previous now resolved incident).toProg Cmd.act =
      AlertEngine.forgetIncident cfg previous now resolved incident := by
  rw [forgetIncident, AlertEngine.forgetIncident]
  split
  · rfl
  · simp only [Script.bind_eq, Script.toProg_bind, Script.toProg_exec, prog_addUpdate,
      prog_publishIncident, Prog.bind_eq]
    rfl

theorem prog_forgetUnmonitored :
    (forgetUnmonitored pf cfg previous now).toProg Cmd.act =
      AlertEngine.forgetUnmonitored pf cfg previous now := by
  rw [forgetUnmonitored, AlertEngine.forgetUnmonitored]
  simp only [Script.bind_eq, Script.toProg_bind, prog_select, Script.toProg_foldlM,
    prog_forgetIncident, Script.toProg_modify, Prog.bind_eq]
  rfl

theorem prog_dropClosed (checkId : String) :
    (dropClosed checkId).toProg Cmd.act = AlertEngine.dropClosed checkId := by
  rw [dropClosed, AlertEngine.dropClosed]
  simp only [Script.bind_eq, Script.toProg_bind, Script.toProg_get, Prog.bind_eq]
  congr 1
  funext held
  cases held with
  | none => rfl
  | some id =>
    simp only [Script.toProg_bind, prog_select]
    congr 1
    funext incident
    split <;> rfl

theorem prog_openNew : (openNew pf input).toProg Cmd.act = AlertEngine.openNew pf input := by
  rw [openNew, AlertEngine.openNew]
  simp only [Script.bind_eq, Script.toProg_bind, prog_createIncident, prog_addUpdate, Prog.bind_eq]
  congr 1
  funext id
  congr 1
  funext _
  split
  · simp only [Script.toProg_bind]
    rfl
  · simp only [Script.toProg_bind, Script.toProg_get]
    congr 1
    funext subscriptions
    cases subscriptions with
    | none => rfl
    | some cfg => simp only [Script.toProg_bind, prog_publishIncident, Script.pure_eq,
        Script.toProg_done, Prog.pure_eq]

theorem prog_notifyUnless (n : Notification) :
    (if !input.muted then notify n else pure ()).toProg Cmd.act =
      if !input.muted then AlertEngine.notify n else pure () := by
  split <;> rfl

theorem prog_onOpen : (onOpen pf input).toProg Cmd.act = AlertEngine.onOpen pf input := by
  rw [onOpen, AlertEngine.onOpen]
  simp only [Script.bind_eq, Script.toProg_bind, prog_select, Prog.bind_eq]
  congr 1
  funext existing
  cases existing with
  | none => simp only [Script.toProg_bind, prog_openNew, Script.toProg_modify, prog_notifyUnless]
  | some i => simp only [Script.toProg_bind, Script.toProg_modify, prog_notifyUnless]; rfl

theorem prog_onResolve : (onResolve input id).toProg Cmd.act = AlertEngine.onResolve input id := by
  rw [onResolve, AlertEngine.onResolve]
  simp only [Script.bind_eq, Script.toProg_bind, Script.toProg_exec, prog_addUpdate,
    Script.toProg_get, Prog.bind_eq]
  refine congrArg (Prog.bind (Dunlin.statement (·.resolveIncident id input.now)))
    (funext fun _ => ?_)
  congr 1
  funext _
  congr 1
  funext subscriptions
  cases subscriptions with
  | none => exact prog_notifyUnless _
  | some cfg => simp only [Script.toProg_bind, prog_publishIncident, prog_notifyUnless]

theorem prog_handle : (handle pf input).toProg Cmd.act = AlertEngine.handle pf input := by
  rw [handle, AlertEngine.handle]
  simp only [Script.bind_eq, Script.toProg_bind, prog_dropClosed, Prog.bind_eq]
  congr 1
  funext _
  refine congrArg (Prog.bind (AlertEngine.advance input)) (funext fun transition => ?_)
  cases transition with
  | nothing => rfl
  | «open» => exact prog_onOpen
  | resolve id => exact prog_onResolve
  | remind id => exact prog_notifyUnless _

end Programs

end Job

/-- A request of an operator, or a call of the engine. -/
inductive Request
  | create (form : CreateIncidentForm) (now : ℤ)
  | update (id : ℤ) (form : UpdateForm) (now : ℤ)
  | resolve (id now : ℤ)
  | handle (input : AlertInput)
  | forget (cfg : Config) (previous : Option Config) (now : ℤ)

namespace Request

variable (pf : Platform)

/-- Whether a request runs with the engine's mutex locked. -/
def isEngine : Request → Bool
  | .handle _ | .forget .. => true
  | _ => false

/-- What a request executes. -/
def script : Request → Job Unit
  | .create form now => Job.create form now
  | .update id form now => Job.update id form now
  | .resolve id now => Job.resolve id now
  | .handle input => Job.handle pf input
  | .forget cfg previous now => do
    let _ ← Job.forgetUnmonitored pf cfg previous now
    return ()

/-- The handler or the method of the engine that a request runs. -/
def prog : Request → Prog World Unit
  | .create form now => Operator.create form now
  | .update id form now => Operator.update id form now
  | .resolve id now => Operator.resolve id now
  | .handle input => AlertEngine.handle pf input
  | .forget cfg previous now => do
    let _ ← AlertEngine.forgetUnmonitored pf cfg previous now
    return ()

/-- **The statements of a request are those of its handler.** -/
theorem toProg_script (r : Request) : (r.script pf).toProg Cmd.act = r.prog pf := by
  cases r with
  | create form now => exact Job.prog_create form
  | update id form now => exact Job.prog_update form
  | resolve id now => exact Job.prog_resolve
  | handle input => exact Job.prog_handle
  | forget cfg previous now =>
    simp only [script, prog, Script.bind_eq, Script.toProg_bind, Job.prog_forgetUnmonitored,
      Prog.bind_eq, Script.pure_eq, Script.toProg_done, Prog.pure_eq]

end Request

end Dunlin

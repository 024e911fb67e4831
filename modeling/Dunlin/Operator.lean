import Dunlin.Alert

/-!
# The operator's actions

The model of the incident handlers behind the management page in `web.rs`. Authentication and the
redirects are left out: a handler is what happens once the guard has let the request through, and
its failure is the error page.

Each handler is a `Prog` of the statements it runs, in order, so that a failing statement leaves out
what follows it. A blank message is replaced, an impact that is no impact counts as a major outage,
and a state that is none as investigating.

## Scope

The forms have the fields the handlers read. What a handler writes to subscribers goes through
`publishIncident` of the alert engine, as in the source; `ManualIncidents` and `Timelines` have the
results about handlers and engine together.
-/

namespace Dunlin

open Lib

/-- The form that creates an incident. -/
structure CreateIncidentForm where
  component : String
  title : String
  message : String := ""
  impact : Option String := none
  /-- Accepted in place of `impact`. -/
  state : Option String := none
  deriving DecidableEq, Repr

/-- `StateParam::state`. -/
def stateParam (name : String) : State := (State.fromName name).getD .majorOutage

/-- The impact a form asks for. -/
def CreateIncidentForm.impactState (form : CreateIncidentForm) : State :=
  ((form.impact.or form.state).map stateParam).getD .majorOutage

/-- The component a form names; `__all` stands for every component. -/
def CreateIncidentForm.componentId (form : CreateIncidentForm) : String :=
  if form.component = "__all" then "" else form.component

/-- The first timeline entry of a form's incident. -/
def CreateIncidentForm.text (form : CreateIncidentForm) : String :=
  if trim form.message = "" then "Incident created." else form.message

/-- The form that adds a timeline entry. -/
structure UpdateForm where
  state : String
  message : String
  deriving DecidableEq, Repr

/-- The state an update moves to. -/
def UpdateForm.incidentState (form : UpdateForm) : IncidentState :=
  (IncidentState.fromName form.state).getD .investigating

namespace Operator

/-- `create_incident`. -/
def create (form : CreateIncidentForm) (now : ℤ) : Prog World Unit := do
  let id ← createIncident form.componentId form.title form.impactState .investigating false now
  addUpdate id now .investigating form.text false
  let cfg ← Prog.get (·.running)
  publishIncident cfg id .opened form.text now

/-- `add_update`. -/
def update (id : ℤ) (form : UpdateForm) (now : ℤ) : Prog World Unit := do
  addUpdate id now form.incidentState form.message false
  if form.incidentState = .resolved then statement (·.resolveIncident id now)
  else statement (·.setIncidentState id form.incidentState)
  let cfg ← Prog.get (·.running)
  publishIncident cfg id (changeFor form.incidentState) form.message now

/-- `resolve_incident`. -/
def resolve (id now : ℤ) : Prog World Unit := do
  statement (·.resolveIncident id now)
  addUpdate id now .resolved "Resolved by operator." false
  let cfg ← Prog.get (·.running)
  publishIncident cfg id .resolved "Resolved by operator." now

end Operator

end Dunlin

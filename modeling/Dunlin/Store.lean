import Dunlin.Subscriptions
import Mathlib.Data.List.Sort

/-!
# The incident tables

The part of `db.rs` that keeps incidents and their timelines, and the columns of `incidents` that
`subscriptions/mod.rs` reads and writes. A `Store` is the whole database as far as incidents and
subscriptions go.

## What is left to the platform

`ORDER BY created_at DESC` does not say in which order rows of the same second come back, so the
order is a parameter: `Platform.newestFirst` is any arrangement that puts newer rows first. The
same structure holds the one Unicode table the alert engine needs.

## Scope

Statements are functions from store to store. Which of them fail is decided by the programs that
execute them (`Alert`, `Operator`), never here. `publish` queues an event for all its readers at
once, since the statements of the source are one transaction.

## Main results

* `activeIncidentFor_eq_some`, `activeIncidentFor_eq_none_iff` — what the look-up finds
* `mem_createIncident`, `mem_resolveIncident`, `mem_setIncidentState`, `mem_markQuiet` — the rows
  after each statement
-/

namespace Dunlin

open Lib

/-- What the source leaves to SQLite and to Unicode. -/
structure Platform where
  /-- `ORDER BY created_at DESC`. -/
  newestFirst : List Incident → List Incident
  newestFirst_perm : ∀ l, (newestFirst l).Perm l
  newestFirst_sorted : ∀ l, (newestFirst l).Pairwise fun a b => b.createdAt ≤ a.createdAt
  /-- `char::to_uppercase`. -/
  toUppercase : Char → List Char

/-- SQLite reading the index on `created_at` backwards, and ASCII. -/
def Platform.ascii : Platform where
  newestFirst l := l.reverse.insertionSort fun a b => b.createdAt ≤ a.createdAt
  newestFirst_perm l := (List.perm_insertionSort _ _).trans (List.reverse_perm l)
  newestFirst_sorted l := by
    have htotal : Std.Total fun a b : Incident => b.createdAt ≤ a.createdAt :=
      ⟨fun a b => Int.le_total b.createdAt a.createdAt⟩
    have htrans : IsTrans Incident fun a b => b.createdAt ≤ a.createdAt :=
      ⟨fun _ _ _ hab hbc => Int.le_trans hbc hab⟩
    exact List.pairwise_insertionSort _ _
  toUppercase c := [c.toUpper]

/-- The tables of the database. -/
structure Store where
  incidents : Table Incident
  updates : Table IncidentUpdate
  subs : Subs

/-- Nothing has closed the incident. -/
def Incident.isActive (i : Incident) : Bool := i.resolvedAt.isNone

/-- The incident with `resolved_at` set. -/
def Incident.closed (ts : ℤ) (i : Incident) : Incident :=
  { i with resolvedAt := some ts, state := .resolved }

@[simp] theorem Incident.id_closed (ts : ℤ) (i : Incident) : HasId.id (i.closed ts) = HasId.id i :=
  rfl

namespace Store

/-- A new database. -/
def empty : Store := ⟨.empty, .empty, .empty⟩

/-! ### Statements -/

/-- The row `createIncident` inserts; `quiet` takes its default. -/
def newIncident (component title : String) (impact : State) (state : IncidentState) (auto : Bool)
    (ts id : ℤ) : Incident where
  id := id
  component := component
  title := title
  state := state
  impact := impact
  createdAt := ts
  resolvedAt := none
  auto := auto
  quiet := false

@[simp] theorem id_newIncident (component title : String) (impact : State) (state : IncidentState)
    (auto : Bool) (ts id : ℤ) :
    HasId.id (newIncident component title impact state auto ts id) = id := rfl

/-- `create_incident`; the new id is the table's `next`. -/
def createIncident (s : Store) (component title : String) (impact : State) (state : IncidentState)
    (auto : Bool) (ts : ℤ) : Store :=
  { s with
    incidents := s.incidents.insert (newIncident component title impact state auto ts)
      (id_newIncident component title impact state auto ts) }

/-- `incident`. -/
def incident (s : Store) (id : ℤ) : Option Incident := s.incidents.find? id

/-- `add_update` for an incident that exists. Without one the foreign key rejects the row. -/
def addUpdate (s : Store) (incidentId ts : ℤ) (state : IncidentState) (message : String)
    (auto : Bool) : Store :=
  { s with
    updates := s.updates.insert (fun id => ⟨id, incidentId, ts, state, message, auto⟩)
      fun _ => rfl }

/-- `resolve_incident`. -/
def resolveIncident (s : Store) (id ts : ℤ) : Store :=
  { s with
    incidents := s.incidents.update (·.id == id) (Incident.closed ts) (Incident.id_closed ts) }

/-- `set_incident_state`. -/
def setIncidentState (s : Store) (id : ℤ) (state : IncidentState) : Store :=
  { s with
    incidents := s.incidents.update (·.id == id) (fun i => { i with state := state })
      fun _ => rfl }

/-- `mark_quiet`. -/
def markQuiet (s : Store) (id : ℤ) : Store :=
  { s with
    incidents := s.incidents.update (·.id == id) (fun i => { i with quiet := true }) fun _ => rfl }

/-- `is_quiet`. -/
def isQuiet (s : Store) (id : ℤ) : Bool := (s.incident id).any (·.quiet)

/-- `subscriptions::publish`. -/
def publish (s : Store) (cfg : Config) (event : SubscriberEvent) (now : ℤ) : Store :=
  { s with subs := s.subs.publish cfg event now }

section Queries

variable (pf : Platform) (s : Store)

/-- `active_incidents`. -/
def activeIncidents : List Incident := pf.newestFirst (s.incidents.rows.filter Incident.isActive)

/-- `active_incident_for`. -/
def activeIncidentFor (component : String) : Option Incident :=
  (pf.newestFirst (s.incidents.rows.filter fun i => i.isActive && i.component == component)).head?

variable {pf s} {component : String} {i : Incident}

theorem mem_activeIncidents : i ∈ s.activeIncidents pf ↔ i ∈ s.incidents.rows ∧ i.isActive := by
  rw [activeIncidents, (pf.newestFirst_perm _).mem_iff, List.mem_filter]

theorem nodup_activeIncidents : ((s.activeIncidents pf).map (·.id)).Nodup := by
  refine (((pf.newestFirst_perm _).map _).nodup_iff).mpr ?_
  refine List.pairwise_map.mpr ((s.incidents.sorted.filter _).imp fun h => ?_)
  exact Int.ne_of_lt h

theorem activeIncidentFor_eq_none_iff :
    s.activeIncidentFor pf component = none ↔
      ∀ i ∈ s.incidents.rows, i.isActive → i.component ≠ component := by
  rw [activeIncidentFor, List.head?_eq_none_iff, ← List.length_eq_zero_iff,
    (pf.newestFirst_perm _).length_eq, List.length_eq_zero_iff, List.filter_eq_nil_iff]
  simp

/-- The incident found is active, on the component, and no other such incident is newer. -/
theorem activeIncidentFor_eq_some (h : s.activeIncidentFor pf component = some i) :
    i ∈ s.incidents.rows ∧ i.isActive ∧ i.component = component ∧
      ∀ j ∈ s.incidents.rows, j.isActive → j.component = component →
        j.createdAt ≤ i.createdAt := by
  obtain ⟨rest, hrest⟩ := List.head?_eq_some_iff.mp h
  have hperm := pf.newestFirst_perm
    (s.incidents.rows.filter fun i => i.isActive && i.component == component)
  have hmem : ∀ j, j ∈ i :: rest ↔
      j ∈ s.incidents.rows ∧ j.isActive ∧ j.component = component := by
    intro j
    rw [← hrest, hperm.mem_iff, List.mem_filter]
    simp
  obtain ⟨hi, hact, hcomp⟩ := (hmem i).mp List.mem_cons_self
  refine ⟨hi, hact, hcomp, fun j hj hjact hjcomp => ?_⟩
  have hsorted := pf.newestFirst_sorted
    (s.incidents.rows.filter fun i => i.isActive && i.component == component)
  rw [hrest, List.pairwise_cons] at hsorted
  rcases List.mem_cons.mp ((hmem j).mpr ⟨hj, hjact, hjcomp⟩) with rfl | hj'
  · exact Int.le_refl _
  · exact hsorted.1 j hj'

end Queries

/-! ### What a statement does to the incidents -/

variable {s : Store} {i : Incident} {id : ℤ}

theorem incident_eq_some_iff : s.incident id = some i ↔ i ∈ s.incidents.rows ∧ i.id = id :=
  Table.find?_eq_some_iff

theorem incident_eq_none_iff : s.incident id = none ↔ ∀ i ∈ s.incidents.rows, i.id ≠ id :=
  Table.find?_eq_none_iff

/-- The id of an existing incident is below the next one. -/
theorem id_lt_next (h : i ∈ s.incidents.rows) : i.id < s.incidents.next :=
  s.incidents.lt_next i h

theorem mem_createIncident {component title : String} {impact : State} {state : IncidentState}
    {auto : Bool} {ts : ℤ} :
    i ∈ (s.createIncident component title impact state auto ts).incidents.rows ↔
      i ∈ s.incidents.rows ∨
        i = newIncident component title impact state auto ts s.incidents.next :=
  Table.mem_insert _ (id_newIncident component title impact state auto ts)

theorem mem_resolveIncident {ts : ℤ} :
    i ∈ (s.resolveIncident id ts).incidents.rows ↔
      ∃ i₀ ∈ s.incidents.rows, (if i₀.id = id then i₀.closed ts else i₀) = i := by
  rw [resolveIncident, Table.mem_update]
  simp only [beq_iff_eq]

theorem mem_setIncidentState {state : IncidentState} :
    i ∈ (s.setIncidentState id state).incidents.rows ↔
      ∃ i₀ ∈ s.incidents.rows, (if i₀.id = id then { i₀ with state := state } else i₀) = i := by
  rw [setIncidentState, Table.mem_update]
  simp only [beq_iff_eq]

theorem mem_markQuiet :
    i ∈ (s.markQuiet id).incidents.rows ↔
      ∃ i₀ ∈ s.incidents.rows, (if i₀.id = id then { i₀ with quiet := true } else i₀) = i := by
  rw [markQuiet, Table.mem_update]
  simp only [beq_iff_eq]

/-- Marking the incident just created leaves the others alone. -/
theorem rows_markQuiet_createIncident {component title : String} {impact : State}
    {state : IncidentState} {auto : Bool} {ts : ℤ} :
    ((s.createIncident component title impact state auto ts).markQuiet
        s.incidents.next).incidents.rows =
      s.incidents.rows ++
        [{ newIncident component title impact state auto ts s.incidents.next with
            quiet := true }] := by
  refine Table.rows_update_insert ?_ ?_ fun _ => beq_iff_eq
  · exact id_newIncident component title impact state auto ts
  · exact fun _ => rfl

end Store

end Dunlin

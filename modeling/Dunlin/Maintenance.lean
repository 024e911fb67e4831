import Dunlin.Subscriptions

/-!
# Maintenance windows

The model of `maintenance` in `db.rs`, of the two handlers in `web.rs` that write it, and of the
part of `subscriptions/mod.rs` that tells subscribers: `publishScheduled` when a window is planned
for later, and `maintenanceTick` when its time has come. An `Upkeep` is what these functions share.

The form's start time is read by `parse_local_start` in the configured timezone. What it makes of a
text is a parameter: any function to timestamps that may reject its input.

A tick goes through the windows that are due and claims them one after the other: the flag of a
window is set and its messages are queued in one transaction, so a window is announced by the tick
that sets its flag.

## Scope

The order in which the windows come is that of the query, up to windows with the same start
(`WindowOrder`); nothing depends on it. What a run of these operations tells a subscriber is in
`MaintenanceRun` and `MaintenanceMessages`.
-/

namespace Dunlin

open Lib

/-- A row of `maintenance`. The three flags are the columns added with subscriptions: what has been
said about the window. -/
structure Maintenance where
  id : ℤ
  /-- Component id; empty for all components. -/
  component : String
  note : String
  startsAt : ℤ
  endsAt : ℤ
  createdAt : ℤ
  scheduledSent : Bool
  startedSent : Bool
  completedSent : Bool
  deriving DecidableEq, Repr

instance : HasId Maintenance := ⟨Maintenance.id⟩

@[simp] theorem id_maintenance (m : Maintenance) : HasId.id m = m.id := rfl

/-- The order in which `maintenanceTick` gets its windows. -/
structure WindowOrder where
  byStart : OrderBy Maintenance.startsAt
  byEnd : OrderBy Maintenance.endsAt

/-- Windows of the same second in the order they were made. -/
def WindowOrder.stable : WindowOrder := ⟨.stable _, .stable _⟩

/-- The tables of maintenance. -/
structure Upkeep where
  windows : Table Maintenance
  subs : Subs

/-- `maintenance_event`. -/
def maintenanceEvent (cfg : Config) (m : Maintenance) : MaintenanceEvent where
  maintenanceId := m.id
  component := m.component
  componentName := componentLabel cfg m.component
  note := m.note
  startsAt := m.startsAt
  endsAt := m.endsAt
  url := cfg.publicUrl.map fun base => s!"{trimEndSlashes base}/"

/-! ### The form -/

/-- Longest maintenance window, and furthest start, that the form accepts. -/
def maxMaintenanceSecs : ℤ := 366 * 86400

/-- `Ord::clamp`. -/
def clamp (x lo hi : ℤ) : ℤ := max lo (min x hi)

theorem le_clamp (x lo hi : ℤ) : lo ≤ clamp x lo hi := Int.le_max_left _ _

/-- The form that starts maintenance. -/
structure MaintenanceForm where
  component : String := ""
  note : String
  durationMinutes : ℤ
  /-- Wall time in the configured timezone. Empty starts now. Wins over `startsInSeconds`. -/
  startsAt : String := ""
  startsInSeconds : Option ℤ := none
  deriving DecidableEq, Repr

/-- The length of the window, clamped to a year. -/
def MaintenanceForm.duration (form : MaintenanceForm) : ℤ :=
  clamp form.durationMinutes 1 (maxMaintenanceSecs / 60) * 60

/-- When the window starts: never in the past. `none` is the page that rejects the start time. -/
def MaintenanceForm.starts (form : MaintenanceForm) (parse : String → Option ℤ) (now : ℤ) :
    Option ℤ :=
  if trim form.startsAt = "" then
    some (now + clamp (form.startsInSeconds.getD 0) 0 maxMaintenanceSecs)
  else (parse form.startsAt).map fun ts => clamp ts now (now + maxMaintenanceSecs)

namespace Upkeep

/-! ### Statements -/

/-- The row `createMaintenance` inserts; the flags take their defaults. -/
def newWindow (component note : String) (startsAt endsAt createdAt id : ℤ) : Maintenance where
  id := id
  component := component
  note := note
  startsAt := startsAt
  endsAt := endsAt
  createdAt := createdAt
  scheduledSent := false
  startedSent := false
  completedSent := false

/-- `create_maintenance`; the new id is the table's `next`. -/
def createMaintenance (u : Upkeep) (component note : String) (startsAt endsAt createdAt : ℤ) :
    Upkeep :=
  { u with
    windows := u.windows.insert (newWindow component note startsAt endsAt createdAt) fun _ => rfl }

/-- `end_maintenance`: a window that is over stays as it is. -/
def endMaintenance (u : Upkeep) (id now : ℤ) : Upkeep :=
  { u with
    windows := u.windows.update (fun m => m.id == id && decide (m.endsAt > now))
      (fun m => { m with endsAt := now }) fun _ => rfl }

/-! ### Telling subscribers -/

/-- Tell subscribers about a window planned for later. -/
def publishScheduled (u : Upkeep) (cfg : Config) (id now : ℤ) : Upkeep :=
  if !cfg.subscriptions.enabled then u
  else
    match u.windows.find? id with
    | some m =>
      -- recorded with the messages, so a later cancellation goes out exactly when this did
      { windows := u.windows.update (·.id == m.id) (fun m => { m with scheduledSent := true })
          fun _ => rfl
        subs := u.subs.fanOut (.maintenanceScheduled (maintenanceEvent cfg m)) now }
    | none => u

/-- The `start_maintenance` handler, past its guard. -/
def startMaintenance (u : Upkeep) (cfg : Config) (parse : String → Option ℤ)
    (form : MaintenanceForm) (now : ℤ) : Upkeep :=
  match form.starts parse now with
  | some starts =>
    let id := u.windows.next
    let u := u.createMaintenance form.component form.note starts (starts + form.duration) now
    if starts > now then u.publishScheduled cfg id now else u
  | none => u

/-- One window of the first half of `maintenanceTick`: claim it, and say that it has started. -/
def claimStarted (cfg : Config) (now : ℤ) (u : Upkeep) (m : Maintenance) : Upkeep :=
  if (u.windows.find? m.id).any (!·.startedSent) then
    { windows := u.windows.update (fun m' => m'.id == m.id && !m'.startedSent)
        (fun m' => { m' with startedSent := true }) fun _ => rfl
      subs :=
        if m.endsAt > now && cfg.subscriptions.enabled then
          u.subs.fanOut (.maintenanceStarted (maintenanceEvent cfg m)) now
        else u.subs }
  else u

/-- What subscribers are told about a window that is over. -/
def closing (cfg : Config) (m : Maintenance) : Option SubscriberEvent :=
  let e := maintenanceEvent cfg m
  if m.endsAt > m.startsAt then some (.maintenanceCompleted e)
  else if m.scheduledSent then some (.maintenanceCancelled e)
  else none

/-- One window of the second half of `maintenanceTick`: claim it, and say how it ended. -/
def claimCompleted (cfg : Config) (now : ℤ) (u : Upkeep) (m : Maintenance) : Upkeep :=
  if (u.windows.find? m.id).any (!·.completedSent) then
    { windows := u.windows.update (fun m' => m'.id == m.id && !m'.completedSent)
        (fun m' => { m' with completedSent := true, startedSent := true }) fun _ => rfl
      subs :=
        if cfg.subscriptions.enabled then
          match closing cfg m with
          | some event => u.subs.fanOut event now
          | none => u.subs
        else u.subs }
  else u

/-- Send "started" and "completed" for windows whose time has come. Each half reads its windows
first and then claims them one by one. -/
def maintenanceTick (wo : WindowOrder) (cfg : Config) (now : ℤ) (u : Upkeep) : Upkeep :=
  let due := wo.byStart.sort (u.windows.rows.filter fun m => !m.startedSent && m.startsAt ≤ now)
  let u := due.foldl (claimStarted cfg now) u
  let ended := wo.byEnd.sort (u.windows.rows.filter fun m => !m.completedSent && m.endsAt ≤ now)
  ended.foldl (claimCompleted cfg now) u

end Upkeep

/-! ### Runs -/

/-- One operation on maintenance windows. -/
inductive MaintenanceOp
  | start (cfg : Config) (parse : String → Option ℤ) (form : MaintenanceForm) (now : ℤ)
  | finish (id now : ℤ)
  | tick (cfg : Config) (now : ℤ)
  /-- A new process. It keeps nothing about windows in memory. -/
  | restart

namespace MaintenanceOp

/-- One operation. -/
def step (wo : WindowOrder) (u : Upkeep) : MaintenanceOp → Upkeep
  | .start cfg parse form now => u.startMaintenance cfg parse form now
  | .finish id now => u.endMaintenance id now
  | .tick cfg now => u.maintenanceTick wo cfg now
  | .restart => u

/-- When an operation happens. -/
def time : MaintenanceOp → Option ℤ
  | .start _ _ _ now | .finish _ now | .tick _ now => some now
  | .restart => none

/-- Subscriptions are on when the operation reads the config. -/
def Announces : MaintenanceOp → Prop
  | .start cfg _ _ _ | .tick cfg _ => cfg.subscriptions.enabled = true
  | .finish .. | .restart => True

instance : DecidablePred Announces
  | .start .. | .tick .. => inferInstanceAs (Decidable (_ = true))
  | .finish .. | .restart => isTrue trivial

end MaintenanceOp

end Dunlin

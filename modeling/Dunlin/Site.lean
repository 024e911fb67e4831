import Dunlin.AlertSystem
import Dunlin.MaintenanceRun
import Dunlin.SubscriptionSystem

/-!
# The whole program

Incidents, subscriptions and maintenance share one database. A `Site` is that database with what the
loops of the program keep in memory, and a run of it is any sequence of operations of the three
systems, each of them atomic and with every statement succeeding.

Events reach subscribers through `publishIncident` and the maintenance check alone. So on a site the
operation `SubsOp.publish`, which queues any event, is not one of its own.

Each of the three systems is a part of a site, and an operation of one leaves the others alone but
for the outbox they share. Results about a part are carried over by projecting the run.

## Scope

Failing statements have models of their own (`AlertFaults`, `Recording`, `Timelines`), and so have
statements of several requests that mix.
-/

namespace Dunlin

open Lib

/-- Whether an operation queues an event it is given. -/
def SubsOp.publishes : SubsOp → Bool
  | .publish .. => true
  | _ => false

/-- One operation on the site. -/
inductive SiteOp
  /-- The engine and the operator's incidents. -/
  | incidents (op : Op)
  /-- Visitors, the dispatcher and pruning. -/
  | subscriptions (op : SubsOp) (h : op.publishes = false)
  | maintenance (op : MaintenanceOp)

/-- The program and its database. -/
structure Site where
  world : World
  windows : Table Maintenance
  pacer : Pacer := {}
  stats : DispatchStats := {}
  log : List LogEntry := []

namespace Site

/-- The tables of incidents. -/
def store (s : Site) : Store := s.world.store

/-- The tables of subscriptions. -/
def subs (s : Site) : Subs := s.world.store.subs

/-- The site as the dispatcher sees it. -/
def dispatcher (s : Site) : Dispatcher := ⟨s.subs, s.pacer, s.stats, s.log⟩

/-- The site as far as maintenance goes. -/
def upkeep (s : Site) : Upkeep := ⟨s.windows, s.subs⟩

/-- The site with other tables of subscriptions. -/
def withSubs (s : Site) (subs : Subs) : Site :=
  { s with world := s.world.onStore fun store => { store with subs := subs } }

/-- A program that has never run, on an empty database. -/
def initial (cfg : Config) : Site where
  world := .initial .empty cfg
  windows := .empty

end Site

variable (pf : Platform) (cr : Crypto) (wo : WindowOrder)

/-- One operation. -/
def SiteOp.step (s : Site) : SiteOp → Site
  | .incidents op => { s with world := Dunlin.step pf s.world op }
  | .subscriptions op _ =>
    let d := op.step cr s.dispatcher
    { s.withSubs d.subs with pacer := d.pacer, stats := d.stats, log := d.log }
  | .maintenance op =>
    let u := op.step wo s.upkeep
    { s.withSubs u.subs with windows := u.windows }

end Dunlin

import Dunlin.Lib.Run
import Dunlin.Operator

/-!
# The alert engine at work

The operations that reach the incident tables, as `app.rs` performs them: starting the process,
reconciling the engine with a reloaded config, following the config before a probe, feeding a probe
outcome, and the operator's actions. The engine sits behind a mutex and the handlers are modelled
as atomic, so a run of the system is a list of operations.

An operation comes with a fault plan for its statements. A failing operation leaves whatever its
statements did before, and the system goes on: the prober loop logs an error of `handle` and drops
the result, a failed reconciliation is tried again, and a failed handler answers with an error page.
Only a failed start ends the process; here the next operation then finds a half-started engine,
which is one behaviour more than the program has.

## Scope

Statements of a handler and of the engine that mix are in `Timelines`. The times of probes and the
rounds of the prober are in `Monitor`, where an operation here is one part of a probe.
-/

namespace Dunlin

open Lib AlertEngine

/-- One operation of the system. -/
inductive Op
  /-- `app::run`: a new engine, bootstrapped from the tables. -/
  | start (cfg : Config) (now : ℤ)
  /-- The config in force changed: `prober_loop` reconciles the engine with it. The same operation
  with the running config again is the retry after a failure. -/
  | reload (cfg : Config) (now : ℤ)
  /-- `set_public_url` and `set_subscriptions`, which `prober_loop` calls before each `handle`. -/
  | follow
  /-- `AlertEngine::handle`. -/
  | handle (input : AlertInput)
  | create (form : CreateIncidentForm) (now : ℤ)
  | update (id : ℤ) (form : UpdateForm) (now : ℤ)
  | resolve (id now : ℤ)

/-- Whether an operation is the operator's. -/
def Op.isOperator : Op → Bool
  | .create .. | .update .. | .resolve .. => true
  | _ => false

variable (pf : Platform)

/-- A process that has just started with a config, before `bootstrap`. -/
def World.restarted (cfg : Config) (w : World) : World :=
  { w with
    engine := { publicUrl := cfg.publicUrl, subscriptions := some cfg }
    running := cfg
    applied := cfg }

/-- The config watcher has swapped in a new config. -/
def World.reloaded (cfg : Config) (w : World) : World := { w with running := cfg }

/-- The engine follows the config in force. -/
def World.following (w : World) : World :=
  { w with
    engine := { w.engine with
      publicUrl := w.running.publicUrl
      subscriptions := some w.running } }

/-- The reconciliation in `prober_loop`: `applied` stays put when it fails. -/
def reconcile (cfg : Config) (now : ℤ) : Prog World Unit := do
  let applied ← Prog.get (·.applied)
  let _ ← forgetUnmonitored pf cfg (some applied) now
  Prog.modify fun w => { w with applied := cfg }

/-- The program of an operation. -/
def Op.prog : Op → Prog World Unit
  | .start cfg now => do
    Prog.modify (World.restarted cfg)
    bootstrap pf cfg now
  | .reload cfg now => do
    Prog.modify (World.reloaded cfg)
    reconcile pf cfg now
  | .follow => Prog.modify World.following
  | .handle input => AlertEngine.handle pf input
  | .create form now => Operator.create form now
  | .update id form now => Operator.update id form now
  | .resolve id now => Operator.resolve id now

/-- One operation against a fault plan. -/
def faultyStep (w : World) (op : Op × List Bool) : World := ((op.1.prog pf).run op.2 w).state

/-- One operation with every database call succeeding. -/
def step (w : World) (op : Op) : World := ((op.prog pf).run [] w).state

/-- A process that has never run, on a given database. -/
def World.initial (store : Store) (cfg : Config) : World where
  store := store
  engine := { publicUrl := cfg.publicUrl }
  running := cfg
  applied := cfg
  sent := []

/-! ### A small site

One component that mirrors one check, which goes down and up at the first result. -/

def quickCheck : CheckConfig where
  id := "web"
  name := "Web"
  failuresToOpen := 1
  successesToResolve := 1

def quickConfig : Config where
  publicUrl := some "https://status.example.org"
  subscriptions := { enabled := true }
  components := [{ id := "web", name := "Website", check := some "web" }]
  checks := [quickCheck]

/-- A result of the check. -/
def probe (ok : Bool) (now : ℤ) : AlertInput where
  component := "web"
  check := quickCheck
  ok := ok
  message := none
  now := now
  muted := false

example : quickConfig.validate = [] := by decide

end Dunlin

import Dunlin.Dispatch
import Dunlin.Lib.Run
import Dunlin.Telegram

/-!
# Subscriptions at work

The operations that reach the tables of subscriptions, each of them atomic: what visitors do on the
pages and in a chat, the operator's delete, events being published, rounds of the dispatcher and
pruning. A run is a list of operations.

A transaction that breaks a uniqueness constraint is rolled back, so the operation then does
nothing. The `log` of the dispatcher is not a table: it remembers what was handed to channels over
the whole run, also when the process is restarted.

## Scope

A form is taken after it has been parsed, and a token as the link has it. Failing statements are in
`Recording` and `ChatLinks`, and the turns of a round one by one in `DispatchRun`.
-/

namespace Dunlin

open Lib

/-- One operation on subscriptions. -/
inductive SubsOp
  /-- The form, past its checks. -/
  | signUp (req : SignUp) (rnd : ℕ → String) (now : ℤ)
  | confirm (token : String) (now : ℤ)
  | linkChat (token : String) (chat now : ℤ)
  | stopChat (chat : ℤ)
  | unsubscribe (token : String)
  /-- The operator's delete. -/
  | delete (id : ℤ)
  | publish (cfg : Config) (event : SubscriberEvent) (now : ℤ)
  | dispatch (ρ : Round)
  | prune (now : ℤ)
  /-- A new process, whose pacer knows nothing. -/
  | restart

variable (cr : Crypto)

/-- The end of `subscribe_submit`: channels that learn the address later take another path. -/
def Subs.subscribe (req : SignUp) (rnd : ℕ → String) (now : ℤ) (s : Subs) : Subs :=
  if !req.channel.needsAddress then ((s.signUpByLink cr req rnd now).map (·.2)).getD s
  else (s.signUp cr req rnd now).getD s

/-- The tables after an operation other than a round. -/
def SubsOp.tables (s : Subs) : SubsOp → Subs
  | .signUp req rnd now => s.subscribe cr req rnd now
  | .confirm token now => (s.confirm cr token now).2
  | .linkChat token chat now => ((s.linkChat cr token chat now).map (·.2)).getD s
  | .stopChat chat => (s.stopChat chat).2
  | .unsubscribe token => s.unsubscribe cr token
  | .delete id => s.delete id
  | .publish cfg event now => s.publish cfg event now
  | .prune now => s.prune now
  | .dispatch _ | .restart => s

/-- One operation. -/
def SubsOp.step (d : Dispatcher) : SubsOp → Dispatcher
  | .dispatch ρ => ρ.run cr d
  | .restart => { d with pacer := {} }
  | op => { d with subs := op.tables cr d.subs }

/-- The program before its first subscriber. -/
def Dispatcher.initial : Dispatcher := { subs := .empty }

end Dunlin

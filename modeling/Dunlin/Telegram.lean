import Dunlin.Subscriptions
import Mathlib.Data.List.Sort

/-!
# Linking a Telegram chat

The model of the bot's writes in `subscriptions/telegram.rs`: `linkChat` ties a pending sign-up to
the chat that opened its link, `stopChat` forgets a chat. A chat is known by its number, and the
number in decimal is the subscriber's address.

Both are transactions in the source. Here each is one function that says what the transaction does
when it is committed; `ChatLinks` has the statements of `link_chat` one by one and shows that a
failure leaves the store as it was.

## Scope

What the bot answers, and how it polls for updates, is in `BotPolling`. That signing up through the
bot takes the subscriber's own doing is part of `DoubleOptIn`.
-/

namespace Dunlin

open Lib

/-- What happened to a `/start` link. -/
inductive Linked
  | subscribed (allComponents : Bool) (components : List String) (maintenance : Bool)
  | expired
  | invalid
  deriving DecidableEq, Repr

/-- The address of a chat. -/
def chatAddress (chat : ℤ) : String := toString chat

namespace Subs

variable (cr : Crypto)

/-- `UPDATE subscriber_components SET subscriber_id = ? WHERE subscriber_id = ?`. -/
def moveComponents (s : Subs) (target source : ℤ) : Subs :=
  { s with components := s.components.map fun c => if c.1 = source then (target, c.2) else c }

/-- The columns of a chat that takes new choices. -/
def relinked (pending : Subscriber) (now : ℤ) (r : Subscriber) : Subscriber :=
  { r with
    allComponents := pending.allComponents
    maintenance := pending.maintenance
    status := .active
    confirmedAt := some now
    failureWindowStart := none
    failuresInWindow := 0
    quarantinedAt := none }

/-- The columns of a sign-up that found its chat. -/
def linked (chat now : ℤ) (r : Subscriber) : Subscriber :=
  { r with
    address := chatAddress chat
    status := .active
    confirmedAt := some now
    confirmHash := none
    confirmExpires := none }

@[simp] theorem id_linked (chat now : ℤ) (r : Subscriber) : (linked chat now r).id = r.id := rfl

/-- Tie a pending sign-up to the chat that opened its link. A chat already subscribed takes the new
choices instead of getting a second row. -/
def linkChat (s : Subs) (token : String) (chat now : ℤ) : Option (Linked × Subs) :=
  match s.subscribers.rows.find? fun r => r.channel == .telegram && r.status == .pending &&
      r.confirmHash == some (cr.tokenHash token) with
  | none => some (.invalid, s)
  | some row =>
    if row.confirmExpires.all (· ≤ now) then some (.expired, s)
    else
      let chosen := (s.components.filter fun c => c.1 == row.id).map (·.2)
      let components := chosen.insertionSort (· ≤ ·)
      let result := Linked.subscribed row.allComponents components row.maintenance
      match s.subscribers.rows.find? fun r =>
          r.channel == .telegram && r.address == chatAddress chat with
      | some existing =>
        let s := s.updateSubscribers (·.id == existing.id) (relinked row now)
          ⟨fun _ => rfl, fun _ => rfl, fun _ => rfl, fun _ => rfl, fun _ => rfl,
            fun _ => .inl ⟨rfl, rfl⟩⟩
        let s := s.clearComponents existing.id
        let s := s.moveComponents existing.id row.id
        some (result, s.deleteSubscribers (·.id == row.id))
      | none => do
        let s ← s.updateUnique row.id (linked chat now) (id_linked chat now)
        return (result, s)

/-- Unsubscribe a chat. Whether it was subscribed. -/
def stopChat (s : Subs) (chat : ℤ) : Bool × Subs :=
  let gone := fun r : Subscriber => r.channel == .telegram && r.address == chatAddress chat
  (s.subscribers.rows.any gone, s.deleteSubscribers gone)

end Subs

end Dunlin

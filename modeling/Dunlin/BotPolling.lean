import Dunlin.CpuUsage
import Dunlin.Lib.Cursor
import Dunlin.Lib.Keyed
import Dunlin.Lib.Script
import Dunlin.Messages
import Dunlin.SubscriptionSystem

/-!
# The bot

The model of the bot in `subscriptions/telegram.rs`: `pollOnce` asks for the messages that came in,
answers each of them and stores the offset past it. It is a script, one command for each statement
and each call to the Bot API, so that anything may happen between two of them.

## The server

The Bot API is not part of the program. `Mailbox` is what it promises: an update has an id, ids
grow, an answer holds the updates from the offset on, as many as it likes, and asking with an offset
makes it forget what comes before. Every bot has a mailbox of its own.

## What is remembered

`handled` and `effects` are not part of the program either. They keep, over the whole run, which
updates were taken up, whether they were answered, and which of them have changed the tables. An
update is taken up when the offset is about to move past it. That `answer` failed on it is logged
and does not hold the offset back, so being taken up and being answered are two things.

What holds of a run of these is in `BotDelivery` and, for what the commands do, in `BotEffects`.
-/

namespace Dunlin

open Lib

/-! ### Updates -/

/-- What `poll_once` reads of an update. -/
structure Update where
  updateId : Option ℤ
  chat : Option ℤ
  text : Option String
  deriving DecidableEq, Repr

/-- The number of an update. -/
def Update.num (u : Update) : ℤ := u.updateId.getD 0

/-- What the Bot API keeps for a bot. -/
structure Mailbox where
  posted : List Update := []
  dropped : ℤ := 0

/-- `getUpdates`: the updates from the offset on, at most `limit` of them. -/
def Mailbox.reply (m : Mailbox) (offset : ℤ) (limit : ℕ) : List Update :=
  (m.posted.filter (max m.dropped offset ≤ ·.num)).take limit

/-- What is forgotten when an offset is asked for. -/
def Mailbox.forget (m : Mailbox) (offset : ℤ) : Mailbox :=
  { m with dropped := max m.dropped offset }

/-- A new update, if the Bot API may give it its id. -/
def Mailbox.post (m : Mailbox) (u : Update) : Mailbox :=
  if u.updateId.isSome ∧ u.num + 1 < 2 ^ 63 ∧ 0 ≤ u.num ∧ ∀ v ∈ m.posted, v.num < u.num then
    { m with posted := m.posted ++ [u] }
  else m

/-! ### The world of the bot -/

/-- What the bot and everybody else works on. -/
structure BotWorld where
  dispatcher : Dispatcher
  /-- The table `meta`. -/
  metas : Lib.Keyed String String
  mail : String → Mailbox
  /-- How many updates an answer holds at present. -/
  limit : ℕ
  clock : ℤ
  /-- The updates taken up, each time they were, and whether the answer came about. -/
  handled : List (String × Update × Bool)
  effects : List (String × Update)

namespace BotWorld

def onSubs (f : Subs → Subs) (w : BotWorld) : BotWorld :=
  { w with dispatcher := { w.dispatcher with subs := f w.dispatcher.subs } }

/-- The tables of subscriptions. -/
def subs (w : BotWorld) : Subs := w.dispatcher.subs

/-- An update has been taken up. `ok` says whether it was answered, or its answer failed. -/
def tookUp (bot : String) (u : Update) (ok : Bool) (w : BotWorld) : BotWorld :=
  { w with handled := w.handled ++ [(bot, u, ok)] }

/-- The tables after a message, which is remembered if it changed them. -/
def write (origin : String × Update) (worked : Bool) (s : Subs) (w : BotWorld) : BotWorld :=
  { w.onSubs fun _ => s with effects := if worked then w.effects ++ [origin] else w.effects }

end BotWorld

/-- A statement of the bot, or a call to the Bot API. -/
inductive BotCmd
  /-- `db::get_meta`. -/
  | getMeta (key : String)
  /-- `db::set_meta`. -/
  | setMeta (key value : String)
  | getUpdates (bot : String) (offset : ℤ)
  /-- `link_chat`. -/
  | linkChat (origin : String × Update) (token : String) (chat now : ℤ)
  /-- `stop_chat`. -/
  | stopChat (origin : String × Update) (chat : ℤ)
  | sendMessage (bot : String) (chat : ℤ) (html : String)

/-- The link worked. -/
def Linked.worked : Linked → Bool
  | .subscribed .. => true
  | _ => false

/-- What a command does. A message to a chat leaves the program. -/
def BotCmd.act (cr : Crypto) : BotCmd → BotWorld → BotWorld
  | .getMeta _, w => w
  | .setMeta key value, w => { w with metas := w.metas.upsert key fun _ => value }
  | .getUpdates bot offset, w =>
    { w with mail := Function.update w.mail bot ((w.mail bot).forget offset) }
  | .linkChat origin token chat now, w =>
    match w.subs.linkChat cr token chat now with
    | some (res, s) => w.write origin res.worked s
    | none => w
  | .stopChat origin chat, w => w.write origin (w.subs.stopChat chat).1 (w.subs.stopChat chat).2
  | .sendMessage .., w => w

/-! ### One round -/

/-- A script of the bot. -/
abbrev BotJob (α : Type) : Type := Script BotCmd BotWorld α

/-- `BotApi::bot_id`: the part of the token before the colon. -/
def botId (token : String) : String := String.ofList (token.toList.takeWhile (· ≠ ':'))

/-- Where the next `getUpdates` starts, per bot. -/
def offsetKey (bot : String) : String := s!"telegram_offset:{bot}"

/-- The offset a value of the table stands for. -/
def readOffset (value : Option String) : ℤ :=
  (value.bind fun v => parseSigned (2 ^ 63) v.toList).getD 0

/-- A hexadecimal digit. -/
def isAsciiHexdigit (c : Char) : Bool :=
  c.isDigit || ('a' ≤ c && c ≤ 'f') || ('A' ≤ c && c ≤ 'F')

/-- A start payload can only be a token we made. -/
def plausibleToken (p : List Char) : Bool := p.length == 64 && p.all isAsciiHexdigit

def subscribeUrl (cfg : Config) : String :=
  s!"{baseUrl cfg}/subscribe"

/-- What a subscription is about, as the bot says it. -/
def aboutText (cfg : Config) (allComponents : Bool) (components : List String) : String :=
  if allComponents then "all components"
  else ", ".intercalate (components.map fun c => slackEscape (componentLabel cfg c))

/-- The reply to a `/start` link. -/
def linkedReply (cfg : Config) : Linked → String
  | .subscribed allComponents components maintenance =>
    let about := aboutText cfg allComponents components
    let extra := if maintenance then ", and maintenance" else ""
    let site := slackEscape (trim cfg.theme.title)
    s!"Subscribed to updates from <b>{site}</b> about {about}{extra}.\nSend /stop to unsubscribe."
  | .expired => "This link has expired; links work for 24 hours. Subscribe again at " ++
      slackEscape (subscribeUrl cfg)
  | .invalid => "This link is not valid or was already used. Subscribe again at " ++
      slackEscape (subscribeUrl cfg)

section

variable (cr : Crypto)

/-- What `link_chat` returns; a transaction that breaks a constraint fails. -/
def linkOutcome : Option (Linked × Subs) → BotJob Linked
  | some (res, _) => .done res
  | none => .fail

/-- `link_chat` as a command. -/
def linkChatCmd (origin : String × Update) (token : String) (chat now : ℤ) : BotJob Linked :=
  .stmt (.linkChat origin token chat now)
    (fun w => linkOutcome (w.subs.linkChat cr token chat now)) .fail

/-- What is made of a start payload: only a plausible one is looked up. -/
def present (origin : String × Update) (p : List Char) (chat now : ℤ) : BotJob Linked :=
  if plausibleToken p then linkChatCmd cr origin (String.ofList p) chat now else pure .invalid

/-- The command of a message and what comes after it. -/
def commandOf (text : String) : String × Option (List Char) :=
  let words := splitWhitespace text.toList
  (String.ofList ((words.head?.getD []).takeWhile (· ≠ '@')), words.tail.head?)

/-- The reply to one message, if it is a command the bot knows. -/
@[irreducible] def answer (cfg : Config) (origin : String × Update) (chat : ℤ) (text : String)
    (now : ℤ) : BotJob (Option String) :=
  match commandOf text with
  | ("/start", none) =>
    let site := slackEscape (trim cfg.theme.title)
    let signup := slackEscape (subscribeUrl cfg)
    pure (some s!"To get updates from <b>{site}</b>, choose what to follow at {signup}")
  | ("/start", some p) => do
    let linked ← present cr origin p chat now
    return some (linkedReply cfg linked)
  | ("/stop", _) | ("/unsubscribe", _) => do
    let gone ← Script.execReturning (.stopChat origin chat) fun w => (w.subs.stopChat chat).1
    return some (if gone then "Unsubscribed. This chat gets no more updates."
      else "This chat is not subscribed.")
  | _ => pure none

/-- The reply to an update, with the chat it goes to; no reply if there is no message to answer or
nothing to say, and `none` if the answer fails. -/
def replyTo (cfg : Config) (bot : String) (u : Update) : BotJob (Option (Option (ℤ × String))) :=
  match u.chat, u.text with
  | some chat, some text => do
    let now ← Script.get (·.clock)
    Script.attempt ((answer cr cfg (bot, u) chat text now).bind fun reply =>
      pure (reply.map fun html => (chat, html)))
  | _, _ => pure (some none)

/-- Send the reply, if there is one. That it cannot be sent is logged and nothing else. -/
def sendReply (bot : String) : Option (ℤ × String) → BotJob Unit
  | some (chat, html) => do
    let _ ← Script.attempt (Script.exec (.sendMessage bot chat html))
    return ()
  | none => pure ()

/-- The body of the loop in `poll_once`. An answer that fails is logged, and the offset moves on as
if there had been one. -/
def handleUpdate (cfg : Config) (bot : String) (u : Update) : BotJob Unit :=
  match u.updateId with
  | none => pure ()
  | some id => do
    let reply ← replyTo cr cfg bot u
    Script.modify (BotWorld.tookUp bot u reply.isSome)
    sendReply bot reply.join
    Script.exec (.setMeta (offsetKey bot) (toString (id + 1)))

/-- One `getUpdates` round: answer each message, then move the offset past it. Returns how many
updates came in. -/
def pollOnce (cfg : Config) (bot : String) : BotJob ℕ := do
  let value ← Script.execReturning (.getMeta (offsetKey bot)) fun w => w.metas.get? (offsetKey bot)
  let offset := readOffset value
  let updates ← Script.execReturning (.getUpdates bot offset) fun w =>
    (w.mail bot).reply offset w.limit
  updates.foldlM (fun _ u => handleUpdate cr cfg bot u) ()
  return updates.length

end

/-! ### The system -/

/-- What happens to the bot. -/
inductive BotStep
  /-- Somebody writes to a bot. -/
  | post (bot : String) (u : Update)
  | limit (n : ℕ)
  | tick (now : ℤ)
  /-- `poll_loop` starts a round, with the config and the token of that moment. -/
  | poll (cfg : Config) (token : String)
  /-- The next piece of the round; a command fails if `fault` says so. -/
  | work (fault : Bool)
  /-- The process ends in the middle of a round. -/
  | crash
  /-- Anything else that reaches the tables of subscriptions. -/
  | other (op : SubsOp)

/-- Something went wrong. -/
def BotStep.isFailure : BotStep → Bool
  | .work fault => fault
  | .crash => true
  | _ => false

/-- The bot at work: the round in progress, with the bot it is for. -/
structure BotSystem where
  world : BotWorld
  round : Option (String × BotJob ℕ)

/-- The updates a bot has taken up, each time it did, and whether they were answered. -/
def BotWorld.handledBy (w : BotWorld) (bot : String) : List (Update × Bool) :=
  (w.handled.filter (·.1 = bot)).map (·.2)

/-- The updates a bot has taken up, each time it did. -/
def BotWorld.takenUp (w : BotWorld) (bot : String) : List Update := (w.handledBy bot).map (·.1)

/-- The updates a bot has answered, each time it did. -/
def BotWorld.answersOf (w : BotWorld) (bot : String) : List Update :=
  ((w.handledBy bot).filter (·.2)).map (·.1)

/-- The updates whose answer failed, each time it did. -/
def BotWorld.failedAnswers (w : BotWorld) (bot : String) : List Update :=
  ((w.handledBy bot).filter fun h => !h.2).map (·.1)

/-- The offset stored for a bot. -/
def BotWorld.offset (w : BotWorld) (bot : String) : ℤ := readOffset (w.metas.get? (offsetKey bot))

namespace BotSystem

/-- An empty database, and nothing posted. -/
def initial : BotSystem where
  world := ⟨.initial, .empty, fun _ => {}, 100, 0, [], []⟩
  round := none

/-- An operation that only the bot performs. -/
def isBots : SubsOp → Bool
  | .linkChat .. => true
  | .stopChat _ => true
  | _ => false

/-- One step. -/
def step (cr : Crypto) (s : BotSystem) : BotStep → BotSystem
  | .post bot u =>
    { s with world.mail := Function.update s.world.mail bot ((s.world.mail bot).post u) }
  | .limit n => { s with world.limit := n }
  | .tick now => { s with world.clock := now }
  | .poll cfg token =>
    match s.round with
    | none => { s with round := some (botId token, pollOnce cr cfg (botId token)) }
    | some _ => s
  | .work fault =>
    match s.round with
    | none => s
    | some (bot, p) =>
      let (p, w) := p.move (BotCmd.act cr) fault s.world
      { world := w, round := if p.isOver then none else some (bot, p) }
  | .crash => { s with round := none }
  | .other op =>
    if isBots op then s
    else { s with world.dispatcher := op.step cr s.world.dispatcher }

end BotSystem

end Dunlin

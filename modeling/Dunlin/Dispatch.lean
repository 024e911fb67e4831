import Dunlin.Subscriptions
import Mathlib.Algebra.Group.Int.Defs
import Mathlib.Data.List.Nodup

/-!
# Delivering the outbox

The model of `subscriptions/dispatch.rs`. A round (`dispatchDue`) takes a snapshot of the due outbox
rows joined with their subscribers and then works through it row by row (`dispatchRow`), while the
tables change under it. That the two are separate steps is the point of the model: what a row of
the snapshot says about its subscriber may no longer be so when its turn comes.

## What a round depends on

The database statements of a round succeed. Everything else the outside world decides is in a
`SendEnv`: whether the channel is still switched on, what the monotonic clock shows, and what
became of the send. A round gets one for each outbox row, by id.

## What a round leaves behind

Besides the tables and the pacer, a round has counters (`DispatchStats`) and a `log`: the messages
handed to channels, in order, and the two moments the source logs as well, a subscriber quarantined
and a subscriber removed.

What a round does is read once in `DispatchRun`; `Recording` has the statements of a turn one by
one, and `TimedRounds` gives a turn its times.
-/

namespace Dunlin

open Lib

/-- Attempts before a message is given up on. -/
def maxAttempts : ℤ := 8

def retryBaseSecs : ℤ := 30

def retryCapSecs : ℤ := 3600

/-- Rows handled per poll. -/
def batch : ℕ := 100

/-- Counted failures that quarantine a subscriber. -/
def quarantineFailures : ℤ := 10

/-- The window failures are counted in. -/
def quarantineWindowSecs : ℤ := 3600

/-- Wait before the next try after `attempts` failed ones: 30 s, doubling, at most an hour. -/
def retryDelay (attempts : ℤ) : ℤ :=
  min (retryBaseSecs * 2 ^ (max 0 (min 20 (attempts - 1))).toNat) retryCapSecs

/-! ### Channels -/

/-- How fast a channel may be sent to. -/
structure Pacing where
  /-- Least time between two sends on the channel. -/
  global : Duration
  /-- Least time between two sends to the same address. -/
  perAddress : Duration
  deriving DecidableEq, Repr

/-- `SubscriberChannel::pacing`, in milliseconds. -/
def Channel.pacing : Channel → Pacing
  | .email => ⟨⟨200 * 1000000⟩, ⟨0⟩⟩
  | .telegram => ⟨⟨34 * 1000000⟩, .fromSecs 1⟩
  | .webhook => ⟨⟨0⟩, .fromSecs 1⟩

/-- What a channel is asked to send. -/
inductive Message
  | confirm (confirmUrl unsubscribeUrl : String)
  | event (event : SubscriberEvent) (unsubscribeUrl : String)
  deriving DecidableEq, Repr

/-- The unsubscribe link every message carries. -/
def Message.unsubscribeUrl : Message → String
  | .confirm _ url => url
  | .event _ url => url

structure Delivery where
  address : String
  /-- The status page's title. -/
  siteTitle : String
  timezone : String
  /-- `public_url`. -/
  siteUrl : Option String
  message : Message
  deriving DecidableEq, Repr

/-- How a send failed, as far as the dispatcher tells errors apart. -/
inductive Failure
  /-- Any other error: retried, not counted. -/
  | plain
  /-- `CountedFailure`: retried, and counts toward quarantine. -/
  | counted
  /-- `PermanentFailure`: given up at once, and counts too. -/
  | permanent
  /-- `SubscriberGone`: the address is gone for good. -/
  | gone
  /-- `RetryAfter`: rate limited, with the wait the service asked for. -/
  | retryAfter (secs : ℤ)
  deriving DecidableEq, Repr

/-- What became of a send. -/
inductive SendResult
  | ok
  | err (failure : Failure) (text : String)
  /-- The channel did not answer within `SEND_LIMIT`. -/
  | timeout
  deriving DecidableEq, Repr

/-- The error of a send, if it failed; a timeout is an error of its own. -/
def SendResult.error : SendResult → Option (Failure × String)
  | .ok => none
  | .err failure text => some (failure, text)
  | .timeout => some (.plain, "send did not finish in 30s")

/-- The wait the service asked for, if it did. -/
def Failure.wait : Failure → ℤ
  | .retryAfter secs => secs
  | _ => 0

/-- The failures that count toward quarantine. -/
def Failure.counts : Failure → Bool
  | .counted | .permanent => true
  | _ => false

/-! ### Pacing

Instants are nanoseconds on the monotonic clock. -/

/-- When each channel and each address was last sent to. -/
structure Pacer where
  lastChannel : List (Channel × ℕ) := []
  lastAddress : List ((Channel × String) × ℕ) := []
  deriving DecidableEq, Repr

namespace Pacer

/-- `HashMap::insert`. -/
def put {κ : Type} [DecidableEq κ] (m : List (κ × ℕ)) (k : κ) (t : ℕ) : List (κ × ℕ) :=
  (k, t) :: m.filter fun e => e.1 ≠ k

def addressReady (p : Pacer) (channel : Channel) (address : String) (pacing : Pacing) (now : ℕ) :
    Bool :=
  ((p.lastAddress.lookup (channel, address)).map fun t => now - t).all
    (pacing.perAddress.nanos ≤ ·)

def channelWait (p : Pacer) (channel : Channel) (pacing : Pacing) (now : ℕ) : Duration :=
  match p.lastChannel.lookup channel with
  | none => ⟨0⟩
  | some t => ⟨pacing.global.nanos - (now - t)⟩

def record (p : Pacer) (channel : Channel) (address : String) (now : ℕ) : Pacer :=
  let lastAddress := put p.lastAddress (channel, address) now
  { lastChannel := put p.lastChannel channel now
    -- addresses only matter for a moment; forget them so the map does not grow for ever
    lastAddress :=
      if lastAddress.length > 10000 then
        lastAddress.filter fun e => now - e.2 < (Duration.fromSecs 60).nanos
      else lastAddress }

end Pacer

/-! ### The quarantine counter -/

namespace Subs

/-- Whether the failure window is over, or none is open. -/
def windowOver (r : Subscriber) (now : ℤ) : Bool :=
  r.failureWindowStart.all (· ≤ now - quarantineWindowSecs)

/-- The counter columns after one more failure. -/
def countFailureRow (now : ℤ) (r : Subscriber) : Subscriber :=
  { r with
    failuresInWindow := if windowOver r now then 1 else r.failuresInWindow + 1
    failureWindowStart := if windowOver r now then some now else r.failureWindowStart }

/-- Quarantine a row. -/
def quarantineRow (now : ℤ) (r : Subscriber) : Subscriber :=
  { r with status := .quarantined, quarantinedAt := some now }

/-- Count one failure against a subscriber, quarantining it at the limit. Whether it was
quarantined by this failure. -/
def countFailure (s : Subs) (subscriberId now : ℤ) : Bool × Subs :=
  let s := s.updateSubscribers (·.id == subscriberId) (countFailureRow now)
    ⟨fun _ => rfl, fun _ => rfl, fun _ => rfl, fun _ => rfl, fun _ => rfl,
      fun _ => .inl ⟨rfl, rfl⟩⟩
  match s.subscribers.find? subscriberId with
  | none => (false, s)
  | some r =>
    if r.failuresInWindow < quarantineFailures then (false, s)
    else
      let s' := s.updateSubscribers (fun r => r.id == subscriberId && r.status != .quarantined)
        (quarantineRow now)
        ⟨fun _ => rfl, fun _ => rfl, fun _ => rfl, fun _ => rfl, fun _ => rfl,
          fun _ => .inl ⟨rfl, rfl⟩⟩
      (r.status != .quarantined, s')

/-- A success wipes the slate. -/
def clearFailures (s : Subs) (subscriberId : ℤ) : Subs :=
  s.updateSubscribers (fun r => r.id == subscriberId && r.failuresInWindow > 0) (fun r => { r with
      failuresInWindow := 0
      failureWindowStart := none })
    ⟨fun _ => rfl, fun _ => rfl, fun _ => rfl, fun _ => rfl, fun _ => rfl,
      fun _ => .inl ⟨rfl, rfl⟩⟩

/-- Give a message up without sending it. -/
def giveUp (s : Subs) (id now : ℤ) (error : String) : Subs :=
  s.updateOutbox id (fun o => { o with failedAt := some now, lastError := some error })
    fun _ => rfl

end Subs

/-! ### A round -/

/-- A due outbox row joined with its subscriber, as the round's query returns it. -/
structure DueRow where
  id : ℤ
  kind : String
  payload : Payload
  attempts : ℤ
  sid : ℤ
  channel : Channel
  address : String
  status : Status
  createdAt : ℤ
  confirmExpires : Option ℤ
  deriving DecidableEq, Repr

/-- The due row made of an outbox row and its subscriber. -/
def DueRow.of (o : OutboxRow) (r : Subscriber) : DueRow where
  id := o.id
  kind := o.kind
  payload := o.payload
  attempts := o.attempts
  sid := r.id
  channel := r.channel
  address := r.address
  status := r.status
  createdAt := r.createdAt
  confirmExpires := r.confirmExpires

/-- Whether a round over the channels `names` picks a row up. -/
def DueRow.due (names : List Channel) (now : ℤ) (o : OutboxRow) (r : Subscriber) : Bool :=
  o.waiting && o.nextAttemptAt ≤ now && (r.status == .pending || r.status == .active) &&
    names.contains r.channel

/-- Every due row, in the order of its id, at most `batch` of them. -/
def Subs.dueRows (s : Subs) (names : List Channel) (now : ℤ) : List DueRow :=
  (s.outbox.rows.filterMap fun o =>
    (s.subscribers.find? o.subscriberId).bind fun r =>
      if DueRow.due names now o r then some (DueRow.of o r) else none).take batch

/-- What the outside world does while one row is handled. -/
structure SendEnv where
  /-- Whether `channels.get` still finds the channel. -/
  enabled : Bool := true
  /-- The clock when the address is checked. -/
  readyAt : ℕ
  /-- The clock when the channel's wait is worked out. -/
  waitAt : ℕ
  /-- The clock when the send is recorded. -/
  doneAt : ℕ
  result : SendResult
  deriving DecidableEq, Repr

structure DispatchStats where
  sent : ℕ := 0
  retried : ℕ := 0
  givenUp : ℕ := 0
  quarantined : ℕ := 0
  removed : ℕ := 0
  deriving DecidableEq, Repr

/-- What a round does outside the database. -/
inductive LogEntry
  /-- A message was handed to a channel, for a row of a subscriber, with this outcome. -/
  | handed (outboxId sid : ℤ) (channel : Channel) (delivery : Delivery) (result : SendResult)
  /-- "subscriber quarantined after repeated failures" -/
  | quarantined (sid : ℤ)
  /-- "subscriber removed: address gone" -/
  | removed (sid : ℤ)
  deriving DecidableEq, Repr

/-- The dispatcher: the tables it shares with the rest of the program, and what is its own. -/
structure Dispatcher where
  subs : Subs
  pacer : Pacer := {}
  stats : DispatchStats := {}
  log : List LogEntry := []

/-- What a due row comes to before it is sent. -/
inductive Prepared
  | message (m : Message)
  | skip
  /-- Given up without a send; whether `stats.given_up` counts it. -/
  | giveUp (error : String) (counted : Bool)
  deriving DecidableEq, Repr

section Round

variable (cr : Crypto) (cfg : Config) (key : String) (now : ℤ)

/-- The message a due row carries. -/
def prepare (row : DueRow) : Prepared :=
  let unsubscribe := unsubscribeUrl cfg (unsubscribeToken cr key row.sid row.createdAt)
  if row.kind = "confirm" then
    match row.confirmExpires with
    | some e =>
      if row.status = .pending ∧ e > now then
        .message (.confirm (confirmUrl cfg (confirmToken cr key row.sid e)) unsubscribe)
      else .giveUp "confirmation no longer needed" false
    | none => .giveUp "confirmation no longer needed" false
  else if row.status ≠ .active then .skip
  else
    match row.payload.parse with
    | .ok event => .message (.event event unsubscribe)
    | .error e => .giveUp s!"bad payload: {e}" true

/-- The delivery made of a message. -/
def deliveryOf (row : DueRow) (m : Message) : Delivery where
  address := row.address
  siteTitle := trim cfg.theme.title
  timezone := cfg.timezone
  siteUrl := cfg.publicUrl
  message := m

/-- A delivered message. -/
def onSent (row : DueRow) (d : Dispatcher) : Dispatcher :=
  let subs := d.subs.updateOutbox row.id (fun o => { o with
      sentAt := some now
      attempts := row.attempts + 1
      lastError := none }) fun _ => rfl
  { d with
    subs := subs.clearFailures row.sid
    stats := { d.stats with sent := d.stats.sent + 1 } }

/-- Count a failure that counts. -/
def onCounted (row : DueRow) (failure : Failure) (d : Dispatcher) : Dispatcher :=
  if failure.counts then
    let (quarantined, subs) := d.subs.countFailure row.sid now
    if quarantined then
      { d with
        subs := subs
        stats := { d.stats with quarantined := d.stats.quarantined + 1 }
        log := d.log ++ [.quarantined row.sid] }
    else { d with subs := subs }
  else d

/-- Give a failed message up, or put it off. -/
def onFailed (row : DueRow) (failure : Failure) (error : String) (d : Dispatcher) : Dispatcher :=
  let attempts := row.attempts + 1
  if failure = .permanent ∨ attempts ≥ maxAttempts then
    { d with
      subs := d.subs.updateOutbox row.id (fun o => { o with
          failedAt := some now
          attempts := attempts
          lastError := some error }) fun _ => rfl
      stats := { d.stats with givenUp := d.stats.givenUp + 1 } }
  else
    { d with
      subs := d.subs.updateOutbox row.id (fun o => { o with
          nextAttemptAt := now + max (retryDelay attempts) failure.wait
          attempts := attempts
          lastError := some error }) fun _ => rfl
      stats := { d.stats with retried := d.stats.retried + 1 } }

/-- A send that failed. -/
def onError (row : DueRow) (failure : Failure) (text : String) (d : Dispatcher) : Dispatcher :=
  let error := String.ofList (text.toList.take 500)
  if failure = .gone then
    { d with
      subs := d.subs.delete row.sid
      stats := { d.stats with removed := d.stats.removed + 1 }
      log := d.log ++ [.removed row.sid] }
  else onFailed now row failure error (onCounted now row failure d)

/-- Hand a message to its channel and record the outcome. -/
def handOver (row : DueRow) (m : Message) (env : SendEnv) (d : Dispatcher) : Dispatcher :=
  let d := { d with
    pacer := d.pacer.record row.channel row.address env.doneAt
    log := d.log ++ [.handed row.id row.sid row.channel (deliveryOf cfg row m) env.result] }
  match env.result.error with
  | none => onSent now row d
  | some (failure, text) => onError now row failure text d

/-- Work through one row of the snapshot. -/
def dispatchRow (row : DueRow) (env : SendEnv) (d : Dispatcher) : Dispatcher :=
  if !env.enabled then d
  else
    match prepare cr cfg key now row with
    | .skip => d
    | .giveUp error counted =>
      { d with
        subs := d.subs.giveUp row.id now error
        stats := if counted then { d.stats with givenUp := d.stats.givenUp + 1 } else d.stats }
    | .message m =>
      if !d.pacer.addressReady row.channel row.address row.channel.pacing env.readyAt then d
      else handOver cfg now row m env d

/-- Work through the rest of a snapshot. -/
def dispatchRows (envs : ℤ → SendEnv) (rows : List DueRow) (d : Dispatcher) : Dispatcher :=
  rows.foldl (fun d row => dispatchRow cr cfg key now row (envs row.id) d) d

end Round

/-- Send every due outbox row once. `names` are the channels switched on when the round starts,
`candidate` a random token should the signing key not exist yet. -/
def dispatchDue (cr : Crypto) (cfg : Config) (names : List Channel) (candidate : String) (now : ℤ)
    (envs : ℤ → SendEnv) (d : Dispatcher) : Dispatcher :=
  let d := { d with stats := {} }
  let rows := d.subs.dueRows names now
  if names.isEmpty || rows.isEmpty then d
  else
    let (key, subs) := d.subs.signingKey candidate
    dispatchRows cr cfg key now envs rows { d with subs := subs }

/-- What one call of `dispatchDue` is given. -/
structure Round where
  cfg : Config
  names : List Channel
  candidate : String
  now : ℤ
  envs : ℤ → SendEnv

/-- One round. -/
def Round.run (cr : Crypto) (d : Dispatcher) (ρ : Round) : Dispatcher :=
  dispatchDue cr ρ.cfg ρ.names ρ.candidate ρ.now ρ.envs d

/-! ### Digests

The primitives behind tokens, given by their values on the tokens of one sign-up: subscriber 1, at
time 0, under a signing key of zeros. -/

/-- The function with the given values, and fresh ones elsewhere. -/
def patched (pairs : List (String × String)) (x : String) : String :=
  (pairs.lookup x).getD ("?" ++ x)

theorem patched_injective {pairs : List (String × String)} (hnodup : (pairs.map Prod.snd).Nodup)
    (hfresh : ∀ p ∈ pairs, p.2.toList.head? ≠ some '?') : Function.Injective (patched pairs) := by
  have hmem : ∀ {x a}, pairs.lookup x = some a → (x, a) ∈ pairs := fun h => by
    obtain ⟨l₁, l₂, rfl, -⟩ := List.lookup_eq_some_iff.mp h
    exact List.mem_append_right _ List.mem_cons_self
  have hclash : ∀ {x a y}, pairs.lookup x = some a → a ≠ "?" ++ y := fun h ha => by
    refine hfresh _ (hmem h) ?_
    rw [ha, String.toList_append]
    rfl
  intro x y h
  unfold patched at h
  cases hx : pairs.lookup x with
  | some a =>
    cases hy : pairs.lookup y with
    | some b =>
      simp only [hx, hy, Option.getD_some] at h
      subst h
      exact congrArg Prod.fst (List.inj_on_of_nodup_map hnodup (hmem hx) (hmem hy) rfl)
    | none =>
      simp only [hx, hy, Option.getD_some, Option.getD_none] at h
      exact absurd h (hclash hx)
  | none =>
    cases hy : pairs.lookup y with
    | some b =>
      simp only [hx, hy, Option.getD_some, Option.getD_none] at h
      exact absurd h.symm (hclash hy)
    | none =>
      simp only [hx, hy, Option.getD_none] at h
      exact (String.append_right_inj "?").mp h

def sampleKey : String := String.ofList (List.replicate 64 '0')

def sampleCrypto : Crypto where
  hmac _ := patched
    [("unsubscribe\n1\n0", "e9fc27a35cab93c8958f22ed9ea037998f9a2475fe3d83f522e58dd353739094"),
      ("confirm\n1\n86400", "55a2c2d2964c72e23a7ceaea6cda0259774128091981ba0507cf4f2a38857a64")]
  tokenHash := patched
    [("e9fc27a35cab93c8958f22ed9ea037998f9a2475fe3d83f522e58dd353739094",
        "24995d4835a8ff5d33c21b70281834d0372dbf9be55379c8473834001cae67ba"),
      ("55a2c2d2964c72e23a7ceaea6cda0259774128091981ba0507cf4f2a38857a64",
        "ded43c438a560dc3d8fda19de0a3a01e83e13c78b2d22767d7b1958a2eb4cd45")]
  hmac_injective _ := patched_injective (by decide) (by decide)
  tokenHash_injective := patched_injective (by decide) (by decide)

end Dunlin

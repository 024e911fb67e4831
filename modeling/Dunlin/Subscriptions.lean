import Dunlin.Config
import Mathlib.Logic.Function.Basic

/-!
# Subscriptions

The model of `subscriptions/mod.rs`: the subscriber and outbox tables, the tokens in links, signing
up, confirming, unsubscribing, queueing events and pruning. Every function here is one transaction
or one statement of the source, so it is a function from `Subs` to `Subs`; one that can break a
uniqueness constraint returns `Option Subs`, with `none` for the rolled-back transaction.

## What is a parameter

Tokens go through HMAC-SHA256 and SHA-256. Neither is modelled: `Crypto` is any keyed function and
any hash, both injective, which is what the source relies on. `random_token` is an argument: `rnd i`
is the value of the `i`-th call made by the operation.

## Uniqueness

`subscribers` has three uniqueness constraints. They are the field `Subs.distinct`, so that every
`Subs` has them and an operation that would break one has no result. A statement that leaves the
constrained columns alone, or only clears a confirmation hash, keeps them (`updateSubscribers`); a
statement that writes one of them is checked (`insertSubscriber`, `updateUnique`).

## Scope

Texts and limits are the source's. Whether a request gets this far, the limits by address and what
is answered, is in `Sessions`; the operations as a system are in `SubscriptionSystem`.
-/

namespace Dunlin

open Lib

/-! ### Tokens -/

/-- The two primitives behind tokens. -/
structure Crypto where
  /-- `hex::encode(hmac_sha256(key, msg))`. -/
  hmac : String → String → String
  /-- `token_hash`. -/
  tokenHash : String → String
  hmac_injective : ∀ key, Function.Injective (hmac key)
  tokenHash_injective : Function.Injective tokenHash

variable (cr : Crypto)

/-- A token bound to one subscriber row and to `nonce` (the link's expiry, or the row's creation
time). -/
def deriveToken (key purpose : String) (subscriberId nonce : ℤ) : String :=
  cr.hmac key s!"{purpose}\n{subscriberId}\n{nonce}"

def confirmToken (key : String) (subscriberId expires : ℤ) : String :=
  deriveToken cr key "confirm" subscriberId expires

def unsubscribeToken (key : String) (subscriberId createdAt : ℤ) : String :=
  deriveToken cr key "unsubscribe" subscriberId createdAt

/-- `public_url` without its trailing slashes. -/
def baseUrl (cfg : Config) : String := trimEndSlashes (cfg.publicUrl.getD "")

def confirmUrl (cfg : Config) (token : String) : String :=
  s!"{baseUrl cfg}/subscribe/confirm/{token}"

def unsubscribeUrl (cfg : Config) (token : String) : String :=
  s!"{baseUrl cfg}/unsubscribe/{token}"

/-! ### Events -/

/-- News about an incident, as subscribers get it. -/
structure IncidentEvent where
  incidentId : ℤ
  title : String
  /-- Component id; empty for an incident on all components. -/
  component : String
  componentName : String
  impact : String
  state : String
  /-- The timeline entry this event is about. -/
  message : String
  url : Option String
  deriving DecidableEq, Repr

/-- News about a maintenance window. -/
structure MaintenanceEvent where
  maintenanceId : ℤ
  component : String
  componentName : String
  note : String
  startsAt : ℤ
  endsAt : ℤ
  url : Option String
  deriving DecidableEq, Repr

/-- Something subscribers are told about. -/
inductive SubscriberEvent
  | incidentOpened (e : IncidentEvent)
  | incidentUpdated (e : IncidentEvent)
  | incidentResolved (e : IncidentEvent)
  | maintenanceScheduled (e : MaintenanceEvent)
  | maintenanceStarted (e : MaintenanceEvent)
  | maintenanceCompleted (e : MaintenanceEvent)
  | maintenanceCancelled (e : MaintenanceEvent)
  deriving DecidableEq, Repr

namespace SubscriberEvent

def kind : SubscriberEvent → String
  | incidentOpened _ => "incident_opened"
  | incidentUpdated _ => "incident_updated"
  | incidentResolved _ => "incident_resolved"
  | maintenanceScheduled _ => "maintenance_scheduled"
  | maintenanceStarted _ => "maintenance_started"
  | maintenanceCompleted _ => "maintenance_completed"
  | maintenanceCancelled _ => "maintenance_cancelled"

def component : SubscriberEvent → String
  | incidentOpened e | incidentUpdated e | incidentResolved e => e.component
  | maintenanceScheduled e | maintenanceStarted e | maintenanceCompleted e
  | maintenanceCancelled e => e.component

def isMaintenance : SubscriberEvent → Bool
  | incidentOpened _ | incidentUpdated _ | incidentResolved _ => false
  | _ => true

/-- No event is queued under the kind of a confirmation. -/
theorem kind_ne_confirm (e : SubscriberEvent) : e.kind ≠ "confirm" := by
  cases e <;> simp [kind]

end SubscriberEvent

/-- What happened to an incident, for `publishIncident`. -/
inductive IncidentChange
  | opened
  | updated
  | resolved
  deriving DecidableEq, Repr

/-- The event of a change. -/
def IncidentChange.event : IncidentChange → IncidentEvent → SubscriberEvent
  | .opened => .incidentOpened
  | .updated => .incidentUpdated
  | .resolved => .incidentResolved

/-- The incident state an operator's update moves to, as a subscriber change. -/
def changeFor (state : IncidentState) : IncidentChange :=
  if state = .resolved then .resolved else .updated

/-- Display name for a component id as messages show it. -/
def componentLabel (cfg : Config) (id : String) : String :=
  if id = "" then "All components" else ((cfg.component id).map (·.name)).getD id

def incidentEvent (cfg : Config) (incident : Incident) (message : String) : IncidentEvent where
  incidentId := incident.id
  title := incident.title
  component := incident.component
  componentName := componentLabel cfg incident.component
  impact := incident.impact.asStr
  state := incident.state.asStr
  message := message
  url := cfg.publicUrl.map fun base => incidentUrl base incident.id

/-! ### Rows -/

/-- The channels `build_channels` knows. -/
inductive Channel
  | email
  | telegram
  | webhook
  deriving DecidableEq, Repr

/-- False for a channel whose address arrives later, by the subscriber following a link. -/
def Channel.needsAddress : Channel → Bool
  | .telegram => false
  | _ => true

/-- `subscribers.status`. -/
inductive Status
  | pending
  | active
  | quarantined
  deriving DecidableEq, Repr

/-- A row of `subscribers`. -/
structure Subscriber where
  id : ℤ
  channel : Channel
  address : String
  allComponents : Bool
  maintenance : Bool
  status : Status
  confirmHash : Option String
  confirmExpires : Option ℤ
  unsubHash : String
  createdAt : ℤ
  confirmedAt : Option ℤ
  failureWindowStart : Option ℤ
  failuresInWindow : ℤ
  quarantinedAt : Option ℤ
  deriving DecidableEq, Repr

instance : HasId Subscriber := ⟨Subscriber.id⟩

@[simp] theorem id_subscriber (r : Subscriber) : HasId.id r = r.id := rfl

/-- `outbox.payload`: `{}` for a confirmation, otherwise the event as JSON. -/
inductive Payload
  | braces
  | json (event : SubscriberEvent)
  deriving DecidableEq, Repr

/-- `serde_json::from_str::<SubscriberEvent>`. `{}` lacks the tag of an event. -/
def Payload.parse : Payload → Except String SubscriberEvent
  | .braces => .error "missing field kind"
  | .json event => .ok event

/-- A row of `outbox`: one message to one subscriber. -/
structure OutboxRow where
  id : ℤ
  subscriberId : ℤ
  /-- `confirm` or an event kind such as `incident_opened`. -/
  kind : String
  payload : Payload
  createdAt : ℤ
  nextAttemptAt : ℤ
  attempts : ℤ
  sentAt : Option ℤ
  failedAt : Option ℤ
  lastError : Option String
  deriving DecidableEq, Repr

instance : HasId OutboxRow := ⟨OutboxRow.id⟩

@[simp] theorem id_outboxRow (o : OutboxRow) : HasId.id o = o.id := rfl

/-- Neither delivered nor given up. -/
def OutboxRow.waiting (o : OutboxRow) : Bool := o.sentAt.isNone && o.failedAt.isNone

/-- A fresh row, due at once. -/
def OutboxRow.queued (subscriberId : ℤ) (kind : String) (payload : Payload) (now id : ℤ) :
    OutboxRow where
  id := id
  subscriberId := subscriberId
  kind := kind
  payload := payload
  createdAt := now
  nextAttemptAt := now
  attempts := 0
  sentAt := none
  failedAt := none
  lastError := none

@[simp] theorem OutboxRow.id_queued (subscriberId : ℤ) (kind : String) (payload : Payload)
    (now id : ℤ) : HasId.id (OutboxRow.queued subscriberId kind payload now id) = id := rfl

/-- Two rows the uniqueness constraints allow next to each other. -/
def Distinct (a b : Subscriber) : Prop :=
  ¬(a.channel = b.channel ∧ a.address = b.address) ∧ a.unsubHash ≠ b.unsubHash ∧
    (a.confirmHash = none ∨ a.confirmHash ≠ b.confirmHash)

instance : DecidableRel Distinct := fun _ _ => inferInstanceAs (Decidable (_ ∧ _))

theorem Distinct.symm {a b : Subscriber} (h : Distinct a b) : Distinct b a := by
  refine ⟨fun hab => h.1 ⟨hab.1.symm, hab.2.symm⟩, h.2.1.symm, ?_⟩
  by_cases hb : b.confirmHash = none
  · exact .inl hb
  · refine .inr fun hba => h.2.2.elim (fun ha => hb (hba.trans ha)) fun hne => hne hba.symm

/-- The tables of subscriptions, and the row of `meta` that holds the signing key. -/
structure Subs where
  subscribers : Table Subscriber
  /-- `subscriber_components`: pairs of a subscriber id and a component id. -/
  components : List (ℤ × String)
  outbox : Table OutboxRow
  /-- `meta` under `subscription_key`. -/
  key : Option String
  /-- The uniqueness constraints of `subscribers`. -/
  distinct : subscribers.rows.Pairwise Distinct

namespace Subs

/-- No subscribers yet. -/
def empty : Subs := ⟨.empty, [], .empty, none, .nil⟩

/-! ### Statements -/

/-- `INSERT INTO subscribers … RETURNING id`. -/
def insertSubscriber (s : Subs) (mk : ℤ → Subscriber) (hmk : ∀ n, (mk n).id = n) :
    Option (ℤ × Subs) :=
  if h : ((s.subscribers.insert mk hmk).rows).Pairwise Distinct then
    some (s.subscribers.next, { s with subscribers := s.subscribers.insert mk hmk, distinct := h })
  else none

/-- An `UPDATE` of the row `id` that may write a constrained column. -/
def updateUnique (s : Subs) (id : ℤ) (f : Subscriber → Subscriber) (hf : ∀ r, (f r).id = r.id) :
    Option Subs :=
  if h : ((s.subscribers.update (·.id == id) f hf).rows).Pairwise Distinct then
    some { s with subscribers := s.subscribers.update (·.id == id) f hf, distinct := h }
  else none

/-- `f` leaves the id and the constrained columns alone, or clears the confirmation hash. -/
structure Keeps (f : Subscriber → Subscriber) : Prop where
  id : ∀ r, (f r).id = r.id
  channel : ∀ r, (f r).channel = r.channel
  address : ∀ r, (f r).address = r.address
  unsubHash : ∀ r, (f r).unsubHash = r.unsubHash
  createdAt : ∀ r, (f r).createdAt = r.createdAt
  confirm : ∀ r, ((f r).confirmHash = r.confirmHash ∧ (f r).confirmExpires = r.confirmExpires) ∨
    ((f r).confirmHash = none ∧ (f r).confirmExpires = none)

theorem Keeps.distinct {f g : Subscriber → Subscriber} (hf : Keeps f) (hg : Keeps g)
    {a b : Subscriber} (h : Distinct a b) : Distinct (f a) (g b) := by
  refine ⟨by simpa only [hf.channel, hf.address, hg.channel, hg.address] using h.1,
    by simpa only [hf.unsubHash, hg.unsubHash] using h.2.1, ?_⟩
  rcases hf.confirm a with ⟨ha, -⟩ | ⟨ha, -⟩
  · rcases hg.confirm b with ⟨hb, -⟩ | ⟨hb, -⟩
    · simpa only [ha, hb] using h.2.2
    · rw [ha, hb]
      by_cases hn : a.confirmHash = none
      · exact .inl hn
      · exact .inr hn
  · exact .inl ha

theorem Keeps.refl : Keeps fun r => r :=
  ⟨fun _ => rfl, fun _ => rfl, fun _ => rfl, fun _ => rfl, fun _ => rfl, fun _ => .inl ⟨rfl, rfl⟩⟩

/-- An `UPDATE` of `subscribers` that keeps the constrained columns. -/
def updateSubscribers (s : Subs) (p : Subscriber → Bool) (f : Subscriber → Subscriber)
    (hf : Keeps f) : Subs where
  subscribers := s.subscribers.update p f hf.id
  components := s.components
  outbox := s.outbox
  key := s.key
  distinct := by
    refine List.pairwise_map.mpr (s.distinct.imp fun {a b} h => ?_)
    split <;> split
    · exact hf.distinct hf h
    · exact hf.distinct Keeps.refl h
    · exact Keeps.refl.distinct hf h
    · exact h

/-- `DELETE FROM subscribers WHERE p`, which cascades to the subscriber's components and queued
messages. -/
def deleteSubscribers (s : Subs) (p : Subscriber → Bool) : Subs where
  subscribers := s.subscribers.delete p
  components := s.components.filter fun c => !s.subscribers.rows.any fun r => r.id == c.1 && p r
  outbox := s.outbox.delete fun o => s.subscribers.rows.any fun r => r.id == o.subscriberId && p r
  key := s.key
  distinct := s.distinct.filter _

/-- `INSERT OR IGNORE` of the signing key, then reading it back. -/
def signingKey (s : Subs) (candidate : String) : String × Subs :=
  match s.key with
  | some key => (key, s)
  | none => (candidate, { s with key := some candidate })

/-- `INSERT OR IGNORE INTO subscriber_components`, once for each component. -/
def addComponents (s : Subs) (id : ℤ) (components : List String) : Subs :=
  { s with
    components := components.foldl
      (fun cs c => if (id, c) ∈ cs then cs else cs ++ [(id, c)]) s.components }

/-- `DELETE FROM subscriber_components WHERE subscriber_id = ?`. -/
def clearComponents (s : Subs) (id : ℤ) : Subs :=
  { s with components := s.components.filter fun c => !(c.1 == id) }

/-- `DELETE FROM outbox WHERE p`. -/
def deleteOutbox (s : Subs) (p : OutboxRow → Bool) : Subs := { s with outbox := s.outbox.delete p }

/-- An `UPDATE` of one outbox row. -/
def updateOutbox (s : Subs) (id : ℤ) (f : OutboxRow → OutboxRow) (hf : ∀ o, (f o).id = o.id) :
    Subs :=
  { s with outbox := s.outbox.update (·.id == id) f hf }

/-- `INSERT INTO outbox`. -/
def queue (s : Subs) (subscriberId : ℤ) (kind : String) (payload : Payload) (now : ℤ) : Subs :=
  { s with
    outbox := s.outbox.insert (OutboxRow.queued subscriberId kind payload now)
      (OutboxRow.id_queued subscriberId kind payload now) }

/-! ### Queueing events -/

/-- Whether `fan_out` queues `event` to a subscriber. -/
def concerns (s : Subs) (event : SubscriberEvent) (r : Subscriber) : Bool :=
  r.status == .active && (!event.isMaintenance || r.maintenance) &&
    (event.component == "" || r.allComponents ||
      s.components.any fun c => c.1 == r.id && c.2 == event.component)

/-- Queue one outbox row per active subscriber `event` concerns. -/
def fanOut (s : Subs) (event : SubscriberEvent) (now : ℤ) : Subs :=
  { s with
    outbox := Table.insertMany
      (fun r : Subscriber => OutboxRow.queued r.id event.kind (.json event) now)
      (fun r => OutboxRow.id_queued r.id event.kind (.json event) now)
      s.outbox (s.subscribers.rows.filter (s.concerns event)) }

/-- `fan_out` in its own transaction; nothing when subscriptions are off. -/
def publish (s : Subs) (cfg : Config) (event : SubscriberEvent) (now : ℤ) : Subs :=
  if !cfg.subscriptions.enabled then s else s.fanOut event now

end Subs

/-! ### Signing up -/

/-- How long a confirmation link works. -/
def confirmTtlSecs : ℤ := 24 * 3600

/-- A pending address gets at most one new confirmation per this long. -/
def confirmResendSecs : ℤ := 15 * 60

/-- Delivered and given-up outbox rows are kept this long. -/
def outboxKeepSecs : ℤ := 30 * 86400

/-- Pending subscribers are deleted this long after their link expired. -/
def pendingKeepSecs : ℤ := 7 * 86400

/-- Quarantined subscribers are deleted after this long. -/
def quarantineKeepSecs : ℤ := 90 * 86400

/-- Addresses of sign-ups whose address is not known yet start with this. -/
def pendingAddress : String := "pending:"

/-- A validated sign-up from the form. -/
structure SignUp where
  channel : Channel
  address : String
  allComponents : Bool
  components : List String
  maintenance : Bool
  deriving DecidableEq, Repr

/-- A sign-up's pending row before its hashes are known. -/
def SignUp.row (req : SignUp) (address throwaway : String) (expires : Option ℤ) (now id : ℤ) :
    Subscriber where
  id := id
  channel := req.channel
  address := address
  allComponents := req.allComponents
  maintenance := req.maintenance
  status := .pending
  confirmHash := none
  confirmExpires := expires
  unsubHash := throwaway
  createdAt := now
  confirmedAt := none
  failureWindowStart := none
  failuresInWindow := 0
  quarantinedAt := none

@[simp] theorem SignUp.id_row (req : SignUp) (address throwaway : String) (expires : Option ℤ)
    (now id : ℤ) : (req.row address throwaway expires now id).id = id := rfl

namespace Subs

/-- The end of `sign_up`: store the chosen components, issue a new confirmation token and queue
the message that carries it in place of any older one. -/
def queueConfirmation (req : SignUp) (candidate : String) (now id : ℤ) (s : Subs) :
    Option Subs := do
  let s := s.clearComponents id
  let s := if req.allComponents then s else s.addComponents id req.components
  let (key, s) := s.signingKey candidate
  let expires := now + confirmTtlSecs
  let s ← s.updateUnique id (fun r => { r with
    confirmHash := some (cr.tokenHash (confirmToken cr key id expires))
    confirmExpires := some expires }) fun _ => rfl
  -- any older confirmation still waiting would carry a dead link
  let s := s.deleteOutbox fun o => o.subscriberId == id && o.kind == "confirm" && o.sentAt.isNone
  return s.queue id "confirm" .braces now

/-- Whether a confirmation went out in the last `confirmResendSecs`. -/
def recentlyIssued (r : Subscriber) (now : ℤ) : Bool :=
  (r.confirmExpires.map (· - confirmTtlSecs)).any fun t => now - t < confirmResendSecs

/-- Record a sign-up and queue its confirmation. -/
def signUp (req : SignUp) (rnd : ℕ → String) (now : ℤ) (s : Subs) : Option Subs :=
  match s.subscribers.rows.find? fun r => r.channel == req.channel && r.address == req.address with
  | none => do
    let (id, s) ← s.insertSubscriber (req.row req.address (rnd 0) none now)
      (req.id_row req.address (rnd 0) none now)
    let (key, s) := s.signingKey (rnd 1)
    let s ← s.updateUnique id (fun r => { r with
      unsubHash := cr.tokenHash (unsubscribeToken cr key id now) }) fun _ => rfl
    s.queueConfirmation cr req (rnd 2) now id
  | some row =>
    if row.status = .active then some s
    else if recentlyIssued row now then some s
    else
      -- held while the endpoint was failing; by the time it is confirmed again, that news is stale
      let s := if row.status = .quarantined then
          s.deleteOutbox fun o => o.subscriberId == row.id && o.waiting
        else s
      let s := s.updateSubscribers (·.id == row.id) (fun r => { r with
          allComponents := req.allComponents
          maintenance := req.maintenance
          status := .pending
          failureWindowStart := none
          failuresInWindow := 0
          quarantinedAt := none })
        ⟨fun _ => rfl, fun _ => rfl, fun _ => rfl, fun _ => rfl, fun _ => rfl,
          fun _ => .inl ⟨rfl, rfl⟩⟩
      s.queueConfirmation cr req (rnd 0) now row.id

/-- Record a sign-up for a channel that learns the address from the subscriber following a link.
Returns the confirm token for that link. -/
def signUpByLink (req : SignUp) (rnd : ℕ → String) (now : ℤ) (s : Subs) :
    Option (String × Subs) := do
  let (key, s) := s.signingKey (rnd 0)
  let expires := now + confirmTtlSecs
  let (id, s) ← s.insertSubscriber
    (req.row s!"{pendingAddress}{rnd 1}" (rnd 2) (some expires) now)
    (req.id_row s!"{pendingAddress}{rnd 1}" (rnd 2) (some expires) now)
  let token := confirmToken cr key id expires
  let s ← s.updateUnique id (fun r => { r with
    unsubHash := cr.tokenHash (unsubscribeToken cr key id now)
    confirmHash := some (cr.tokenHash token) }) fun _ => rfl
  let s := if req.allComponents then s else s.addComponents id req.components
  return (token, s)

end Subs

/-- What a confirmation link points at. -/
inductive ConfirmLink
  | valid
  | expired
  /-- Unknown, or already used. -/
  | invalid
  deriving DecidableEq, Repr

namespace Subs

/-- What a confirmation token is good for. -/
def checkConfirm (s : Subs) (token : String) (now : ℤ) : ConfirmLink :=
  match s.subscribers.rows.find? fun r =>
      r.confirmHash == some (cr.tokenHash token) && r.status == .pending with
  | some r =>
    match r.confirmExpires with
    | some e => if e > now then .valid else .expired
    | none => .expired
  | none => .invalid

/-- The row `confirm` activates. -/
def confirms (token : String) (now : ℤ) (r : Subscriber) : Bool :=
  r.confirmHash == some (cr.tokenHash token) && r.status == .pending &&
    r.confirmExpires.any (· > now)

/-- Activate the subscriber a confirmation link belongs to. -/
def confirm (s : Subs) (token : String) (now : ℤ) : ConfirmLink × Subs :=
  let s' := s.updateSubscribers (confirms cr token now) (fun r => { r with
      status := .active
      confirmedAt := some now
      confirmHash := none
      confirmExpires := none })
    ⟨fun _ => rfl, fun _ => rfl, fun _ => rfl, fun _ => rfl, fun _ => rfl,
      fun _ => .inr ⟨rfl, rfl⟩⟩
  if (s.subscribers.rows.filter (confirms cr token now)).length = 1 then (.valid, s')
  else (s'.checkConfirm cr token now, s')

/-- Whether an unsubscribe link belongs to a subscriber. -/
def checkUnsubscribe (s : Subs) (token : String) : Bool :=
  s.subscribers.rows.any fun r => r.unsubHash == cr.tokenHash token

/-- Delete the subscriber an unsubscribe link belongs to, with its queued messages. -/
def unsubscribe (s : Subs) (token : String) : Subs :=
  s.deleteSubscribers fun r => r.unsubHash == cr.tokenHash token

/-- The operator's delete. -/
def delete (s : Subs) (id : ℤ) : Subs := s.deleteSubscribers (·.id == id)

/-- Drop old delivered or abandoned messages and sign-ups never confirmed. -/
def prune (s : Subs) (now : ℤ) : Subs :=
  let s := s.deleteOutbox fun o =>
    o.sentAt.any (· < now - outboxKeepSecs) || o.failedAt.any (· < now - outboxKeepSecs)
  let s := s.deleteSubscribers fun r =>
    r.status == .pending && r.confirmExpires.any (· < now - pendingKeepSecs)
  s.deleteSubscribers fun r =>
    r.status == .quarantined && r.quarantinedAt.any (· < now - quarantineKeepSecs)

/-! ### What a statement does to the rows -/

variable {s s' : Subs} {r r' : Subscriber} {o : OutboxRow} {id : ℤ}

/-- Two rows that break a uniqueness constraint are one row. -/
theorem eq_of_not_distinct (hr : r ∈ s.subscribers.rows) (hr' : r' ∈ s.subscribers.rows)
    (h : ¬Distinct r r') : r = r' := by
  by_contra hne
  have hsymm : Std.Symm Distinct := ⟨fun _ _ h => h.symm⟩
  exact h (List.Pairwise.forall s.distinct hr hr' hne)

theorem eq_of_address (hr : r ∈ s.subscribers.rows) (hr' : r' ∈ s.subscribers.rows)
    (hchannel : r.channel = r'.channel) (haddress : r.address = r'.address) : r = r' :=
  eq_of_not_distinct hr hr' fun h => h.1 ⟨hchannel, haddress⟩

theorem eq_of_confirmHash {hash : String} (hr : r ∈ s.subscribers.rows)
    (hr' : r' ∈ s.subscribers.rows) (h : r.confirmHash = some hash)
    (h' : r'.confirmHash = some hash) : r = r' :=
  eq_of_not_distinct hr hr' fun hd => hd.2.2.elim (fun hnone => by simp [h] at hnone)
    fun hne => hne (h.trans h'.symm)

theorem mem_updateSubscribers {p : Subscriber → Bool} {f : Subscriber → Subscriber}
    {hf : Keeps f} :
    r ∈ (s.updateSubscribers p f hf).subscribers.rows ↔
      ∃ r₀ ∈ s.subscribers.rows, (if p r₀ then f r₀ else r₀) = r :=
  Table.mem_update hf.id

@[simp] theorem outbox_updateSubscribers {p : Subscriber → Bool} {f : Subscriber → Subscriber}
    {hf : Keeps f} : (s.updateSubscribers p f hf).outbox = s.outbox := rfl

@[simp] theorem key_updateSubscribers {p : Subscriber → Bool} {f : Subscriber → Subscriber}
    {hf : Keeps f} : (s.updateSubscribers p f hf).key = s.key := rfl

theorem mem_deleteSubscribers {p : Subscriber → Bool} :
    r ∈ (s.deleteSubscribers p).subscribers.rows ↔ r ∈ s.subscribers.rows ∧ p r = false :=
  Table.mem_delete

/-- The cascade leaves exactly the messages of the subscribers that stay, and of none. -/
theorem mem_outbox_deleteSubscribers {p : Subscriber → Bool} :
    o ∈ (s.deleteSubscribers p).outbox.rows ↔
      o ∈ s.outbox.rows ∧ ∀ r ∈ s.subscribers.rows, r.id = o.subscriberId → p r = false := by
  rw [deleteSubscribers, Table.mem_delete]
  simp

theorem mem_deleteOutbox {p : OutboxRow → Bool} :
    o ∈ (s.deleteOutbox p).outbox.rows ↔ o ∈ s.outbox.rows ∧ p o = false :=
  Table.mem_delete

theorem mem_updateOutbox {f : OutboxRow → OutboxRow} {hf : ∀ o, (f o).id = o.id} :
    o ∈ (s.updateOutbox id f hf).outbox.rows ↔
      ∃ o₀ ∈ s.outbox.rows, (if o₀.id = id then f o₀ else o₀) = o := by
  rw [updateOutbox, Table.mem_update]
  simp only [beq_iff_eq]

theorem mem_queue {subscriberId now : ℤ} {kind : String} {payload : Payload} :
    o ∈ (s.queue subscriberId kind payload now).outbox.rows ↔
      o ∈ s.outbox.rows ∨ o = .queued subscriberId kind payload now s.outbox.next :=
  Table.mem_insert _ (OutboxRow.id_queued subscriberId kind payload now)

/-- A message of an event goes to active subscribers it concerns. -/
theorem mem_fanOut {event : SubscriberEvent} {now : ℤ} (h : o ∈ (s.fanOut event now).outbox.rows) :
    o ∈ s.outbox.rows ∨ ∃ r ∈ s.subscribers.rows, r.status = .active ∧ ∃ n, s.outbox.next ≤ n ∧
      o = .queued r.id event.kind (.json event) now n := by
  refine (Table.mem_insertMany h).imp_right fun ⟨r, hr, n, hn, ho⟩ => ?_
  obtain ⟨hmem, hconcerns⟩ := List.mem_filter.mp hr
  have hactive : r.status = .active := by
    simp only [concerns, Bool.and_eq_true, beq_iff_eq] at hconcerns
    exact hconcerns.1.1
  exact ⟨r, hmem, hactive, n, hn, ho⟩

theorem updateUnique_eq_some {f : Subscriber → Subscriber} {hf : ∀ r, (f r).id = r.id}
    (h : s.updateUnique id f hf = some s') :
    s'.subscribers = s.subscribers.update (·.id == id) f hf ∧ s'.components = s.components ∧
      s'.outbox = s.outbox ∧ s'.key = s.key := by
  unfold updateUnique at h
  split at h
  · rw [Option.some.injEq] at h
    subst h
    exact ⟨rfl, rfl, rfl, rfl⟩
  · cases h

theorem insertSubscriber_eq_some {mk : ℤ → Subscriber} {hmk : ∀ n, (mk n).id = n}
    (h : s.insertSubscriber mk hmk = some (id, s')) :
    id = s.subscribers.next ∧ s'.subscribers = s.subscribers.insert mk hmk ∧
      s'.components = s.components ∧ s'.outbox = s.outbox ∧ s'.key = s.key := by
  unfold insertSubscriber at h
  split at h
  · rw [Option.some.injEq, Prod.mk.injEq] at h
    obtain ⟨rfl, rfl⟩ := h
    exact ⟨rfl, rfl, rfl, rfl, rfl⟩
  · cases h

/-- The signing key, once made, stays. -/
theorem key_signingKey (candidate : String) :
    (s.signingKey candidate).2.key = some (s.signingKey candidate).1 := by
  rw [signingKey]
  split
  · assumption
  · rfl

theorem tables_signingKey (candidate : String) :
    (s.signingKey candidate).2.subscribers = s.subscribers ∧
      (s.signingKey candidate).2.components = s.components ∧
        (s.signingKey candidate).2.outbox = s.outbox := by
  rw [signingKey]
  split <;> exact ⟨rfl, rfl, rfl⟩

end Subs

/-! ### A small site -/

/-- A site that takes subscriptions. -/
def sampleConfig : Config where
  publicUrl := some "https://status.example.org"
  subscriptions := { enabled := true }

/-- A subscriber to everything. -/
def listener : Subscriber where
  id := 1
  channel := .email
  address := "reader@example.org"
  allComponents := true
  maintenance := true
  status := .active
  confirmHash := none
  confirmExpires := none
  unsubHash := "hash"
  createdAt := 0
  confirmedAt := some 0
  failureWindowStart := none
  failuresInWindow := 0
  quarantinedAt := none

/-- The tables of a site with that subscriber. -/
def listenerSubs : Subs :=
  { Subs.empty with
    subscribers := Table.empty.insert (fun id => { listener with id := id }) fun _ => rfl
    distinct := List.pairwise_singleton _ _ }

end Dunlin

import Dunlin.AlertSystem
import Dunlin.Csrf
import Dunlin.LoginLimiter
import Dunlin.Maintenance
import Dunlin.Requests
import Dunlin.SubscriptionSystem

/-!
# Sessions

The model of who may do what in `web.rs`: the sessions of `db.rs`, `login_submit` and `logout`, the
guards in front of the pages, and the handlers behind `write_guard`. The bodies of the three
incident handlers are the scripts of `Requests`.

The public forms of `web/subscribe.rs` are here too (`Visit`), since they change the subscribers
without `write_guard`: `subscribe_submit` asks for a readable page and for a form of the site, and
`confirm_submit` and `unsubscribe_submit` for nothing but the token in their path.

## Requests

Requests run side by side. A request takes the config and the time where its handler starts, and
from there on a move is one of its statements, which may fail, or a look at the memory of the
process. Between two moves of a request other requests move, time passes, a rollup prunes, the
config is reloaded, the channels are built anew and the process restarts.

## Scope

The routes that only read and ask for nothing (the login form, the GET pages of the token links, the
static files) have no part in who may do what and are left out. `sign_up` and `sign_up_by_link` are
one transaction each and one command here; `SubsOp` has what they do.
-/

namespace Dunlin

open Lib

/-- `SESSION_TTL_SECS`. -/
def sessionTtlSecs : ℤ := 30 * 86400

/-- A row of `sessions`, whose key is the hash of the token. -/
structure Session where
  createdAt : ℤ
  expiresAt : ℤ
  deriving DecidableEq, Repr

/-- An API key of the config. -/
structure ApiKey where
  name : String
  hash : String
  deriving DecidableEq, Repr

/-- What the guards and the login read of the config. -/
structure WebConfig where
  passwordHash : Option String
  protectRead : Bool
  apiKeys : List ApiKey
  trustedProxy : Bool
  deriving DecidableEq, Repr

/-- `SUBSCRIBE_MAX`. -/
def subscribeMax : ℕ := 5

/-- `SUBSCRIBE_WINDOW_SECS`. -/
def subscribeWindowSecs : ℤ := 3600

/-- A channel that is switched on, as far as the form asks it. -/
structure FormChannel where
  name : String
  channel : Channel
  /-- `normalize_address`. -/
  normalizeAddress : String → Except String String

/-- The program as far as requests go. -/
structure WebState where
  world : World
  upkeep : Upkeep
  sessions : Lib.Keyed String Session
  limiter : LoginLimiter
  subscribeLimiter : LoginLimiter
  /-- `Channels`. -/
  channels : List FormChannel
  web : WebConfig
  /-- `now_ts`. -/
  clock : ℤ

/-- What the program takes from libraries. -/
structure WebCrates where
  crypto : Crypto
  url : UrlCrate
  /-- `argon2`: whether the password has the hash, if that is a hash at all. -/
  verifyPassword : String → String → Option Bool
  /-- `form_urlencoded::parse`. -/
  formPairs : String → List (String × String)
  /-- `parse_local_start`, in the timezone of the config. -/
  parseLocalStart : Config → String → Option ℤ

/-! ### Statements -/

namespace WebState

/-- `session_valid`. -/
def sessionValid (s : WebState) (tokenHash : String) (now : ℤ) : Bool :=
  (s.sessions.get? tokenHash).any fun session => decide (session.expiresAt > now)

/-- `prune_sessions`. -/
def pruneSessions (s : WebState) (now : ℤ) : WebState :=
  { s with sessions := s.sessions.delete fun _ session => decide (session.expiresAt ≤ now) }

end WebState

/-- A database statement of a request. -/
inductive WebCmd
  | createSession (tokenHash : String) (createdAt expiresAt : ℤ)
  | sessionValid (tokenHash : String) (now : ℤ)
  | deleteSession (tokenHash : String)
  | incident (command : Cmd)
  | createMaintenance (component note : String) (startsAt endsAt createdAt : ℤ)
  | publishScheduled (cfg : Config) (id now : ℤ)
  | endMaintenance (id now : ℤ)
  | deleteSubscriber (id : ℤ)
  /-- `sign_up` or `sign_up_by_link`. -/
  | signUp (req : SignUp) (rnd : ℕ → String) (now : ℤ)
  /-- The `UPDATE` of `confirm`. -/
  | confirm (token : String) (now : ℤ)
  | checkConfirm (token : String) (now : ℤ)
  | unsubscribe (token : String)

namespace WebCmd

/-- What a visitor's statement does to the tables of subscriptions. -/
def subsOp : WebCmd → Option SubsOp
  | .signUp req rnd now => some (.signUp req rnd now)
  | .confirm token now => some (.confirm token now)
  | .unsubscribe token => some (.unsubscribe token)
  | _ => none

/-- What a statement does. -/
def act (cr : Crypto) : WebCmd → WebState → WebState
  | .createSession tokenHash createdAt expiresAt => fun s =>
    -- the hash is the primary key
    if (s.sessions.get? tokenHash).isSome then s
    else { s with sessions := s.sessions.upsert tokenHash fun _ => ⟨createdAt, expiresAt⟩ }
  | .sessionValid .. => id
  | .deleteSession tokenHash => fun s =>
    { s with sessions := s.sessions.delete fun k _ => k == tokenHash }
  | .incident command => fun s => { s with world := command.act s.world }
  | .createMaintenance component note startsAt endsAt createdAt => fun s =>
    { s with upkeep := s.upkeep.createMaintenance component note startsAt endsAt createdAt }
  | .publishScheduled cfg id now => fun s =>
    { s with upkeep := s.upkeep.publishScheduled cfg id now }
  | .endMaintenance id now => fun s => { s with upkeep := s.upkeep.endMaintenance id now }
  | .deleteSubscriber id => fun s =>
    { s with upkeep := { s.upkeep with subs := s.upkeep.subs.delete id } }
  | .signUp req rnd now => fun s =>
    { s with upkeep := { s.upkeep with subs := s.upkeep.subs.subscribe cr req rnd now } }
  | .confirm token now => fun s =>
    { s with upkeep := { s.upkeep with subs := (s.upkeep.subs.confirm cr token now).2 } }
  | .checkConfirm .. => id
  | .unsubscribe token => fun s =>
    { s with upkeep := { s.upkeep with subs := s.upkeep.subs.unsubscribe cr token } }

/-- A statement about sessions. -/
def isSession : WebCmd → Bool
  | .createSession .. => true
  | .sessionValid .. => true
  | .deleteSession _ => true
  | _ => false

end WebCmd

/-- A request, or a part of one that returns an `α`. -/
abbrev WebJob (α : Type) : Type := Script WebCmd WebState α

/-- A part of a request that is about incidents. -/
def WebJob.ofJob {α : Type} : Job α → WebJob α
  | .done a => .done a
  | .fail => .fail
  | .stmt command next onErr =>
    .stmt (.incident command) (fun s => ofJob (next s.world)) (ofJob onErr)
  | .mem effect next =>
    .mem (fun s => { s with world := effect s.world }) fun s => ofJob (next s.world)

/-! ### Requests -/

/-- The actions behind `write_guard`. -/
inductive WriteAction
  | createIncident (form : CreateIncidentForm)
  | addUpdate (id : ℤ) (form : UpdateForm)
  | resolveIncident (id : ℤ)
  | startMaintenance (form : MaintenanceForm)
  | endMaintenance (id : ℤ)
  | deleteSubscriber (id : ℤ)

/-- The public forms. -/
inductive Visit
  /-- The body of the form, what `random_token` will return, and whether a channel that gives out a
  link can be reached now. -/
  | subscribe (body : String) (rnd : ℕ → String) (reachable : Bool)
  | confirm (token : String)
  | unsubscribe (token : String)

/-- The guard of a page: `read_guard`, and the one that also takes API keys, which is behind
`api_guard`, `badge_guard` and `scrape_guard`. -/
inductive ReadGuard
  | read
  | keyed
  deriving DecidableEq, Repr

/-- What a request asks for. -/
inductive WebCall
  /-- The password of the form, and what `random_token` will return. -/
  | login (password token : String)
  | logout
  | write (action : WriteAction)
  | visit (form : Visit)
  | manage
  | page (guard : ReadGuard)

structure WebRequest where
  call : WebCall
  headers : HeaderMap
  /-- The value of the session cookie. -/
  cookie : Option String
  query : Option String
  /-- The address of the socket. -/
  addr : String

inductive WebReply
  /-- The page asked for. -/
  | page
  /-- The action is done. -/
  | done
  /-- A session cookie with this token. -/
  | signedIn (token : String)
  | signedOut
  | tooManyRequests
  | incorrectPassword
  | forbidden
  | toLogin
  | unauthorized
  | badStart
  /-- The form again, with what is wrong with it. -/
  | badForm
  | notFound
  /-- The link has expired. -/
  | gone
  | internal
  deriving DecidableEq, Repr

/-- What comes before the first blank, and what comes after it. -/
def splitOnceBlank (s : String) : Option (String × String) :=
  match s.toList.dropWhile (· ≠ ' ') with
  | _ :: rest => some (String.ofList (s.toList.takeWhile (· ≠ ' ')), String.ofList rest)
  | [] => none

section

variable (cx : WebCrates)

/-- The token a request presents. -/
def presentedToken (r : WebRequest) : Option String :=
  let bearer := do
    let value ← (r.headers.get "authorization").bind HeaderValue.toStr
    let (scheme, token) ← splitOnceBlank value
    if eqIgnoreAsciiCase scheme "bearer" then some (trim token) else none
  bearer <|> do
    let query ← r.query
    let pair ← (cx.formPairs query).find? (·.1 == "token")
    return pair.2

/-- The name of the key whose token the request presents. Every key is compared, and the first that
matches is the one. -/
def apiKeyName (web : WebConfig) (r : WebRequest) : Option String := do
  let token ← presentedToken cx r
  let hash := cx.crypto.tokenHash token
  web.apiKeys.foldl
    (fun found key => if key.hash == hash && found.isNone then some key.name else found) none

def isLoggedIn (r : WebRequest) : WebJob Bool :=
  match r.cookie with
  | none => pure false
  | some token => do
    let hash := cx.crypto.tokenHash token
    let now ← Script.get (·.clock)
    let valid ← Script.attempt
      (Script.execReturning (.sessionValid hash now) (·.sessionValid hash now))
    return valid.getD false

def readGuard (r : WebRequest) : WebJob (Option WebReply) := do
  let web ← Script.get (·.web)
  if web.protectRead then
    if ← isLoggedIn cx r then return none else return some .toLogin
  else return none

def readAllowed (r : WebRequest) : WebJob Bool := do
  let web ← Script.get (·.web)
  if !web.protectRead then return true
  else if (apiKeyName cx web r).isSome then return true
  else isLoggedIn cx r

/-- `api_guard`; those of badges and scrapes redirect instead. -/
def keyedGuard (r : WebRequest) : WebJob (Option WebReply) := do
  if ← readAllowed cx r then return none else return some .unauthorized

def writeGuard (r : WebRequest) : WebJob (Option WebReply) :=
  if !csrfOk cx.url r.headers then pure (some .forbidden)
  else do
    if ← isLoggedIn cx r then return none else return some .toLogin

/-- An action whose failure is answered by the error page. -/
def orInternal (job : WebJob Unit) : WebJob WebReply := do
  match ← job.attempt with
  | some _ => return .done
  | none => return .internal

/-- `start_maintenance`, past its guard. -/
def startMaintenance (form : MaintenanceForm) : WebJob WebReply := do
  let now ← Script.get (·.clock)
  let cfg ← Script.get (·.world.running)
  match form.starts (cx.parseLocalStart cfg) now with
  | none => return .badStart
  | some starts =>
    orInternal do
      let id ← Script.execReturning
        (.createMaintenance form.component form.note starts (starts + form.duration) now)
        (·.upkeep.windows.next)
      if starts > now then
        let cfg ← Script.get (·.world.running)
        let _ ← Script.attempt (Script.exec (.publishScheduled cfg id now))
        return ()

/-- The handlers past their guard. -/
def WriteAction.job : WriteAction → WebJob WebReply
  | .createIncident form => do
    let now ← Script.get (·.clock)
    orInternal (.ofJob (Job.create form now))
  | .addUpdate id form => do
    let now ← Script.get (·.clock)
    orInternal (.ofJob (Job.update id form now))
  | .resolveIncident id => do
    let now ← Script.get (·.clock)
    orInternal (.ofJob (Job.resolve id now))
  | .startMaintenance form => Dunlin.startMaintenance cx form
  | .endMaintenance id => do
    let now ← Script.get (·.clock)
    orInternal (Script.exec (.endMaintenance id now))
  | .deleteSubscriber id => orInternal (Script.exec (.deleteSubscriber id))

/-- `is_blocked`. -/
def isBlocked (ip : String) (now : ℤ) : WebJob Bool :=
  .mem (fun s => { s with limiter := (s.limiter.isBlocked ip now).2 })
    fun s => .done (s.limiter.isBlocked ip now).1

/-- The password is the configured one. -/
def passwordOk (web : WebConfig) (password : String) : Bool :=
  match web.passwordHash with
  | some phc => (cx.verifyPassword password phc).getD false
  | none => false

/-- `create_session`; a hash that is there already breaks the primary key. -/
def createSession (tokenHash : String) (createdAt expiresAt : ℤ) : WebJob Unit :=
  .stmt (.createSession tokenHash createdAt expiresAt)
    (fun s => if (s.sessions.get? tokenHash).isSome then .fail else .done ()) .fail

def loginSubmit (web : WebConfig) (now : ℤ) (r : WebRequest) (password token : String) :
    WebJob WebReply := do
  let ip := clientIp r.headers (some r.addr) web.trustedProxy
  if ← isBlocked ip now then return .tooManyRequests
  else if !passwordOk cx web password then
    Script.modify fun s => { s with limiter := s.limiter.recordFailure ip now }
    return .incorrectPassword
  else
    Script.modify fun s => { s with limiter := s.limiter.recordSuccess ip }
    match ← Script.attempt
      (createSession (cx.crypto.tokenHash token) now (now + sessionTtlSecs)) with
    | some _ => return .signedIn token
    | none => return .internal

def logout (r : WebRequest) : WebJob WebReply :=
  if !csrfOk cx.url r.headers then pure .forbidden
  else
    match r.cookie with
    | none => pure .signedOut
    | some token => do
      let _ ← Script.attempt (Script.exec (.deleteSession (cx.crypto.tokenHash token)))
      return .signedOut

/-- What the visitor sent. -/
structure SubscribeForm where
  channel : String := ""
  address : String := ""
  all : Bool := false
  components : List String := []
  maintenance : Bool := false
  /-- The honeypot. -/
  website : String := ""
  deriving DecidableEq, Repr

/-- `SubscribeForm::parse`, past the decoding. -/
def SubscribeForm.parse (pairs : List (String × String)) : SubscribeForm :=
  pairs.foldl (fun f pair => match pair.1 with
    | "channel" => { f with channel := pair.2 }
    | "address" => { f with address := pair.2 }
    | "all" => { f with all := true }
    | "components" => { f with components := f.components ++ [pair.2] }
    | "maintenance" => { f with maintenance := true }
    | "website" => { f with website := pair.2 }
    | _ => f) {}

/-- The sign-up a form asks for; `none` where the form comes back. -/
def SubscribeForm.signUp (cfg : Config) (channels : List FormChannel) (f : SubscribeForm) :
    Option SignUp := do
  let channel ← channels.find? (·.name == f.channel)
  let address ←
    if channel.channel.needsAddress then
      match channel.normalizeAddress f.address with
      | .ok address => some address
      | .error _ => none
    else some ""
  let components := f.components.filter fun id => (cfg.component id).isSome
  if !f.all && components.isEmpty then none
  else
    return {
      channel := channel.channel
      address := address
      allComponents := f.all
      components := components
      maintenance := f.maintenance }

/-- `sign_up` and `sign_up_by_link`; one that breaks a constraint is rolled back. -/
def signUp (req : SignUp) (rnd : ℕ → String) (now : ℤ) : WebJob Unit :=
  .stmt (.signUp req rnd now) (fun s =>
    let worked :=
      if req.channel.needsAddress then (s.upkeep.subs.signUp cx.crypto req rnd now).isSome
      else (s.upkeep.subs.signUpByLink cx.crypto req rnd now).isSome
    if worked then .done () else .fail) .fail

/-- What `subscribe_submit` does about the sign-up of a form. One by a link that cannot be given out
leaves nothing behind. -/
def recordSignUp (rnd : ℕ → String) (reachable : Bool) (now : ℤ) : Option SignUp → WebJob WebReply
  | none => pure .badForm
  | some req =>
    if !req.channel.needsAddress && !reachable then pure .badForm
    else orInternal (signUp cx req rnd now)

/-- `subscribe_submit` past its guard. -/
def subscribeForm (cfg : Config) (web : WebConfig) (r : WebRequest) (body : String)
    (rnd : ℕ → String) (reachable : Bool) : WebJob WebReply :=
  if !csrfOk cx.url r.headers then pure .forbidden
  else do
    let _ ← isLoggedIn cx r
    let form := SubscribeForm.parse (cx.formPairs body)
    let ip := clientIp r.headers (some r.addr) web.trustedProxy
    let now ← Script.get (·.clock)
    let blocked ← .mem (fun s =>
      { s with subscribeLimiter := (s.subscribeLimiter.isBlocked ip now).2 }) fun s =>
        .done (s.subscribeLimiter.isBlocked ip now).1
    if blocked then return .tooManyRequests
    else
      Script.modify fun s => { s with subscribeLimiter := s.subscribeLimiter.recordFailure ip now }
      -- a bot gets the same answer as a person
      if form.website ≠ "" then return .done
      else
        let channels ← Script.get (·.channels)
        recordSignUp cx rnd reachable now (form.signUp cfg channels)

/-- The page a confirmation is answered with. -/
def confirmReply : Option ConfirmLink → WebReply
  | some .valid => .done
  | some .expired => .gone
  | some .invalid => .notFound
  | none => .internal

/-- `confirm_submit`, with subscriptions on. -/
def confirmSubmit (token : String) : WebJob WebReply := do
  let now ← Script.get (·.clock)
  let confirmed ← Script.attempt do
    -- the rows the `UPDATE` changed
    let rows ← Script.execReturning (.confirm token now) fun s =>
      (s.upkeep.subs.subscribers.rows.filter (Subs.confirms cx.crypto token now)).length
    if rows = 1 then return ConfirmLink.valid
    else
      Script.execReturning (.checkConfirm token now)
        (·.upkeep.subs.checkConfirm cx.crypto token now)
  return confirmReply confirmed

/-- The page a deletion is answered with, by the rows it found. -/
def unsubscribeReply : Option ℕ → WebReply
  | some rows => if rows = 1 then .done else .notFound
  | none => .internal

/-- `unsubscribe_submit`, with subscriptions on. -/
def unsubscribeSubmit (token : String) : WebJob WebReply := do
  let rows ← Script.attempt (Script.execReturning (.unsubscribe token) fun s =>
    (s.upkeep.subs.subscribers.rows.filter (·.unsubHash == cx.crypto.tokenHash token)).length)
  return unsubscribeReply rows

/-- What a guard leaves of a handler. -/
def behind (guard : WebJob (Option WebReply)) (job : WebJob WebReply) : WebJob WebReply := do
  match ← guard with
  | some reply => return reply
  | none => job

/-- The handlers of the public forms, which are there while subscriptions are on. -/
def Visit.job (r : WebRequest) (form : Visit) : WebJob WebReply := do
  let cfg ← Script.get fun s => (s.world.running, s.web)
  if !cfg.1.subscriptions.enabled then return .notFound
  else
    match form with
    | .subscribe body rnd reachable =>
      behind (readGuard cx r) (subscribeForm cx cfg.1 cfg.2 r body rnd reachable)
    | .confirm token => confirmSubmit cx token
    | .unsubscribe token => unsubscribeSubmit cx token

/-- The handler of a request, started with this config at this time. -/
def WebRequest.job (web : WebConfig) (now : ℤ) (r : WebRequest) : WebJob WebReply :=
  match r.call with
  | .login password token => loginSubmit cx web now r password token
  | .logout => logout cx r
  | .write action => behind (writeGuard cx r) (action.job cx)
  | .visit form => form.job cx r
  | .manage => do
    if ← isLoggedIn cx r then return .page else return .toLogin
  | .page .read => behind (readGuard cx r) (pure .page)
  | .page .keyed => behind (keyedGuard cx r) (pure .page)

end

/-! ### The system -/

/-- A request that has arrived, with the config and the time its handler started with. -/
structure Arrival where
  request : WebRequest
  web : WebConfig
  now : ℤ

/-- A request and what is left of its handler. -/
structure Serving where
  arrival : Arrival
  job : WebJob WebReply

/-- What a request was answered. -/
def Serving.reply (r : Serving) : Option WebReply :=
  match r.job with
  | .done reply => some reply
  | _ => none

/-- The program, and every request so far. -/
structure WebSystem where
  state : WebState
  requests : List Serving

inductive WebStep
  | arrive (r : WebRequest)
  /-- The next piece of a request; a statement fails if `fault` says so. -/
  | move (i : ℕ) (fault : Bool)
  | tick (now : ℤ)
  /-- `prune_sessions`, of a rollup that read the time before. -/
  | prune (now : ℤ)
  | reload (cfg : Config) (web : WebConfig)
  /-- `Channels::replace`, of the loop that builds them. -/
  | channels (list : List FormChannel)
  /-- A new process: the requests of the old one get no further. -/
  | restart (cfg : Config) (web : WebConfig)

namespace WebSystem

/-- Nobody has logged in yet. -/
def initial (world : World) (upkeep : Upkeep) (web : WebConfig) (clock : ℤ) : WebSystem where
  state :=
    { world := world, upkeep := upkeep, sessions := .empty, limiter := .default
      subscribeLimiter := .withLimits subscribeMax subscribeWindowSecs, channels := []
      web := web, clock := clock }
  requests := []

/-- One step. -/
def step (cx : WebCrates) (s : WebSystem) : WebStep → WebSystem
  | .arrive r =>
    { s with requests :=
        s.requests ++ [⟨⟨r, s.state.web, s.state.clock⟩, r.job cx s.state.web s.state.clock⟩] }
  | .move i fault =>
    match s.requests[i]? with
    | none => s
    | some r =>
      let (job, state) := r.job.move (WebCmd.act cx.crypto) fault s.state
      { state := state, requests := s.requests.set i { r with job := job } }
  | .tick now => { s with state.clock := now }
  | .prune now => { s with state := s.state.pruneSessions now }
  | .reload cfg web =>
    { s with state.world := s.state.world.reloaded cfg, state.web := web }
  | .channels list => { s with state.channels := list }
  | .restart cfg web =>
    { state :=
        { s.state with
          world := s.state.world.restarted cfg
          limiter := .default
          subscribeLimiter := .withLimits subscribeMax subscribeWindowSecs
          channels := []
          web := web }
      requests := s.requests.map fun r => { r with job := .fail } }

end WebSystem

end Dunlin

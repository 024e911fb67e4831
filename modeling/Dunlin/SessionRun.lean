import Dunlin.Dispatch
import Dunlin.Sessions

/-!
# Whose session it is

The sessions of a run, and what they allow. Each request goes through stages (`Stage`): what it has
found out so far. `Proceeds` says what a request may do at a stage, and `runs_job` that every
handler keeps to it. So it is enough to look at the pieces of a request one by one, whatever other
requests do between them.

## Scope

A token stands for its hash, and a `Crypto` has the hash as injective: with two tokens of one hash a
session would belong to both. A logout counts where its `DELETE` runs (`Revokes`).

## Main results

* `session_valid_iff` — a token has a session exactly if a login with the right password gave it out
  less than thirty days ago and nobody has logged out with it since.
* `writes_authorised` — incidents, maintenance windows and subscribers are changed by requests that
  have a session, and by visitors as their forms ask.
* `pages_authorised` — a page behind a guard is shown to a request that has a session, or to one
  that needs none.
-/

namespace Dunlin

open Lib

variable {cx : WebCrates}

/-! ### Stages -/

/-- What a request knows. -/
inductive Stage
  | fresh
  /-- The config it has read. -/
  | looked (web : WebConfig)
  /-- The time it has read. -/
  | timed (t : ℤ)
  /-- It has a session. -/
  | cleared
  deriving DecidableEq

/-- The request is for an action behind `write_guard`. -/
def WebRequest.isWrite (r : WebRequest) : Prop := ∃ action, r.call = .write action

/-- The form is a sign-up. -/
def Visit.isSubscribe : Visit → Bool
  | .subscribe .. => true
  | _ => false

/-- What a form asks to be done to the tables of subscriptions. -/
inductive Visit.Asks (cx : WebCrates) : Visit → SubsOp → Prop
  | subscribe {body rnd reachable cfg channels req now}
      (h : (SubscribeForm.parse (cx.formPairs body)).signUp cfg channels = some req) :
      Asks cx (.subscribe body rnd reachable) (.signUp req rnd now)
  | confirm {token now} : Asks cx (.confirm token) (.confirm token now)
  | unsubscribe {token} : Asks cx (.unsubscribe token) (.unsubscribe token)

/-- Incidents, maintenance windows and subscribers. -/
def WebState.data (s : WebState) : Store × Upkeep := (s.world.store, s.upkeep)

/-- At most the memory of the process differs: neither the data nor the sessions, nor the time. -/
structure MemoryOnly (s s' : WebState) : Prop where
  data : s'.data = s.data
  sessions : s'.sessions = s.sessions
  clock : s'.clock = s.clock

/-- The password of a login is the one of the config it started with. -/
def Arrival.proved (cx : WebCrates) (a : Arrival) (token : String) : Prop :=
  ∃ password, a.request.call = .login password token ∧ passwordOk cx a.web password = true

/-- The page is open to the request: nothing is protected, or it has a key. -/
def WebConfig.opens (cx : WebCrates) (web : WebConfig) (r : WebRequest) : Prop :=
  web.protectRead = false ∨
    (r.call = .page .keyed ∧ (apiKeyName cx web r).isSome = true)

/-- At the stage the page is open to the request. -/
def Stage.Opens (cx : WebCrates) (r : WebRequest) (g : Stage) : Prop :=
  g = .cleared ∨ ∃ web, g = .looked web ∧ web.opens cx r

/-- What a request may do at a stage. -/
inductive Proceeds (cx : WebCrates) (a : Arrival) :
    Stage → Piece WebCmd WebState → WebState → Stage → Prop
  | config {g s} : Proceeds cx a g (.mem id) s (.looked s.web)
  | clock {g s} : Proceeds cx a g (.mem id) s (.timed s.clock)
  | quiet {g effect s} (h : ∀ s, MemoryOnly s (effect s)) : Proceeds cx a g (.mem effect) s g
  | failed {g command s} : Proceeds cx a g (.failed command) s g
  | asked {g hash t s} : Proceeds cx a g (.ok (.sessionValid hash t)) s g
  | valid {t token s} (hcookie : a.request.cookie = some token)
      (hcsrf : a.request.isWrite → csrfOk cx.url a.request.headers = true)
      (hvalid : s.sessionValid (cx.crypto.tokenHash token) t = true) :
      Proceeds cx a (.timed t) (.ok (.sessionValid (cx.crypto.tokenHash token) t)) s .cleared
  | write {command s} (hcall : a.request.isWrite) (hcommand : command.isSession = false) :
      Proceeds cx a .cleared (.ok command) s .cleared
  | grant {g token s} (h : a.proved cx token) :
      Proceeds cx a g
        (.ok (.createSession (cx.crypto.tokenHash token) a.now (a.now + sessionTtlSecs))) s g
  | revoke {g token s} (hcall : a.request.call = .logout)
      (hcookie : a.request.cookie = some token)
      (hcsrf : csrfOk cx.url a.request.headers = true) :
      Proceeds cx a g (.ok (.deleteSession (cx.crypto.tokenHash token))) s g
  | checked {g token t s} : Proceeds cx a g (.ok (.checkConfirm token t)) s g
  | visit {g form command change s} (hcall : a.request.call = .visit form)
      (hcommand : command.subsOp = some change) (hasks : form.Asks cx change)
      (hopen : form.isSubscribe = true →
        csrfOk cx.url a.request.headers = true ∧ g.Opens cx a.request) :
      Proceeds cx a g (.ok command) s g

/-- A page is answered only to a request that has a session or needs none. -/
def Justified (cx : WebCrates) (r : WebRequest) (reply : Option WebReply) (g : Stage) : Prop :=
  reply = some .page →
    g = .cleared ∨ ∃ guard web, r.call = .page guard ∧ g = .looked web ∧ web.opens cx r

section Handlers

variable {a : Arrival} {g : Stage}

theorem MemoryOnly.refl (s : WebState) : MemoryOnly s s := ⟨rfl, rfl, rfl⟩

/-- `is_logged_in`: it says yes only at the stage of a session. -/
theorem runs_isLoggedIn
    (hcsrf : a.request.isWrite → csrfOk cx.url a.request.headers = true) :
    (isLoggedIn cx a.request).Runs (Proceeds cx a) g
      fun r g' => ∃ b, r = some b ∧ (b = true → g' = .cleared) := by
  rw [isLoggedIn]
  cases hcookie : a.request.cookie with
  | none => exact ⟨false, rfl, nofun⟩
  | some token =>
    intro s
    refine ⟨_, .clock, ?_⟩
    constructor
    · intro s'
      cases hvalid : s'.sessionValid (cx.crypto.tokenHash token) s.clock with
      | false => exact ⟨_, .asked, false, congrArg some hvalid, nofun⟩
      | true => exact ⟨_, .valid hcookie hcsrf hvalid, true, congrArg some hvalid, fun _ => rfl⟩
    · intro s'
      exact ⟨_, .failed, false, rfl, nofun⟩

/-- What a guard does: it lets through at a stage with `P`, or answers itself, with no page. -/
def Guards (P : Stage → Prop) (r : Option (Option WebReply)) (g : Stage) : Prop :=
  (r = some none → P g) ∧ r ≠ some (some .page)

/-- `write_guard`: what it lets through has a session. -/
theorem runs_writeGuard :
    (writeGuard cx a.request).Runs (Proceeds cx a) g (Guards (· = .cleared)) := by
  rw [writeGuard]
  split
  · exact ⟨nofun, nofun⟩
  · rename_i hcsrf
    have hok : csrfOk cx.url a.request.headers = true := by simpa using hcsrf
    rw [Script.bind_eq]
    refine Script.Runs.bind ((runs_isLoggedIn fun _ => hok).mono ?_)
    rintro r g' ⟨b, rfl, hb⟩
    cases b with
    | true => exact ⟨fun _ => hb rfl, nofun⟩
    | false => exact ⟨nofun, nofun⟩

theorem runs_readGuard (hwrite : ¬a.request.isWrite) :
    (readGuard cx a.request).Runs (Proceeds cx a) g (Guards (·.Opens cx a.request)) := by
  intro s
  refine ⟨_, .config, ?_⟩
  show (if s.web.protectRead = true then _ else _ : WebJob (Option WebReply)).Runs _ _ _
  split
  · refine Script.Runs.bind (p := isLoggedIn cx a.request)
      ((runs_isLoggedIn fun h => absurd h hwrite).mono ?_)
    rintro r g' ⟨b, rfl, hb⟩
    cases b with
    | true => exact ⟨fun _ => .inl (hb rfl), nofun⟩
    | false => exact ⟨nofun, nofun⟩
  · rename_i hprotect
    exact ⟨fun _ => .inr ⟨s.web, rfl, .inl (by simpa using hprotect)⟩, nofun⟩

theorem runs_keyedGuard (hcall : a.request.call = .page .keyed) :
    (keyedGuard cx a.request).Runs (Proceeds cx a) g (Guards (·.Opens cx a.request)) := by
  have hwrite : a.request.isWrite → csrfOk cx.url a.request.headers = true := by
    rintro ⟨action, h⟩
    exact absurd (hcall.symm.trans h) nofun
  have hallowed : (readAllowed cx a.request).Runs (Proceeds cx a) g
      fun r g' => ∃ b, r = some b ∧ (b = true → g'.Opens cx a.request) := by
    intro s
    refine ⟨_, .config, ?_⟩
    show (if (!s.web.protectRead) = true then _ else _ : WebJob Bool).Runs _ _ _
    split
    · rename_i hprotect
      exact ⟨true, rfl, fun _ => .inr ⟨s.web, rfl, .inl (by simpa using hprotect)⟩⟩
    · split
      · rename_i hkey
        exact ⟨true, rfl, fun _ => .inr ⟨s.web, rfl, .inr ⟨hcall, hkey⟩⟩⟩
      · refine (runs_isLoggedIn hwrite).mono ?_
        rintro r g' ⟨b, rfl, hb⟩
        exact ⟨b, rfl, fun h => .inl (hb h)⟩
  rw [keyedGuard, Script.bind_eq]
  refine Script.Runs.bind (hallowed.mono ?_)
  rintro r g' ⟨b, rfl, hb⟩
  cases b with
  | true => exact ⟨fun _ => hb rfl, nofun⟩
  | false => exact ⟨nofun, nofun⟩

theorem runs_behind {guard : WebJob (Option WebReply)} {job : WebJob WebReply} {P : Stage → Prop}
    {Q : Option WebReply → Stage → Prop} (hguard : guard.Runs (Proceeds cx a) g (Guards P))
    (hjob : ∀ g', P g' → job.Runs (Proceeds cx a) g' Q)
    (hreply : ∀ r g', r ≠ some .page → Q r g') : (behind guard job).Runs (Proceeds cx a) g Q := by
  rw [behind, Script.bind_eq]
  refine Script.Runs.bind (hguard.mono ?_)
  rintro (_ | _ | reply) g' ⟨hthrough, hpage⟩
  · exact hreply none g' nofun
  · exact hjob g' (hthrough rfl)
  · exact hreply (some reply) g' fun h => hpage (congrArg some h)

/-! ### Behind the guard -/

/-- A part of a request that leaves the engine of the alerts alone. -/
def Calm (_ : Unit) (piece : Piece Cmd World) (_ : World) (_ : Unit) : Prop :=
  ∀ effect, piece = .mem effect → effect = id

section Calm

variable {α : Type} {cfg : Config} {id ts now : ℤ} {Q : Option α → Unit → Prop}

theorem calm_stmt {command : Cmd} {next : World → Job α} {onErr : Job α}
    (hnext : ∀ w, (next w).Runs Calm () Q) (herr : onErr.Runs Calm () Q) :
    (Script.stmt command next onErr : Job α).Runs Calm () Q := by
  constructor
  · intro w
    exact ⟨(), nofun, hnext w⟩
  · intro w
    exact ⟨(), nofun, herr⟩

theorem calm_addUpdate {state : IncidentState} {text : String} {auto : Bool} :
    (Job.addUpdate id ts state text auto).Runs Calm () fun _ _ => True := by
  refine calm_stmt (fun w => ?_) trivial
  show (if _ then _ else _ : Job Unit).Runs Calm () _
  split <;> exact trivial

theorem calm_publishIncident {change : IncidentChange} {text : String} :
    (Job.publishIncident cfg id change text now).Runs Calm () fun _ _ => True := by
  rw [Job.publishIncident]
  split
  · exact trivial
  · rw [Script.bind_eq]
    refine Script.Runs.bind (Script.Runs.attempt (Script.Runs.mono (Q := fun _ _ => True) ?_ ?_))
    · refine calm_stmt (fun w => ?_) trivial
      show Script.Runs Calm (Script.bind (Script.done (w.store.incident id)) _) () _
      cases w.store.incident id with
      | none => exact trivial
      | some incident =>
        refine calm_stmt (fun w' => ?_) trivial
        show (if w'.store.isQuiet id = true then _ else _ : Job Unit).Runs Calm () _
        split
        · exact trivial
        · exact calm_stmt (fun _ => trivial) trivial
    · rintro (_ | _) _ -
      · exact trivial
      · exact trivial

/-- What all three handlers of incidents end with. -/
theorem calm_tell {change : IncidentChange} {text : String} :
    (do
      let cfg ← Script.get (·.running)
      Job.publishIncident cfg id change text now : Job Unit).Runs Calm () fun _ _ => True := by
  intro w
  exact ⟨(), fun effect h => (Piece.mem.inj h).symm, calm_publishIncident⟩

/-- An entry, and then more. -/
theorem calm_entry {state : IncidentState} {text : String} {job : Unit → Job Unit}
    (h : (job ()).Runs Calm () fun _ _ => True) :
    (Script.bind (Job.addUpdate id ts state text false) job).Runs Calm () fun _ _ => True := by
  refine Script.Runs.bind (calm_addUpdate.mono ?_)
  rintro (_ | _) g -
  · exact trivial
  · exact h

theorem calm_create (form : CreateIncidentForm) :
    (Job.create form now).Runs Calm () fun _ _ => True := by
  refine Script.Runs.bind (p := Job.createIncident _ _ _ _ _ _) ?_
  exact calm_stmt (fun _ => calm_entry calm_tell) trivial

theorem calm_update (form : UpdateForm) :
    (Job.update id form now).Runs Calm () fun _ _ => True := by
  refine calm_entry ?_
  dsimp only
  split
  · exact calm_stmt (fun _ => calm_tell) trivial
  · exact calm_stmt (fun _ => calm_tell) trivial

theorem calm_resolve : (Job.resolve id now).Runs Calm () fun _ _ => True :=
  calm_stmt (fun _ => calm_entry calm_tell) trivial

end Calm

/-- At the stage of a session, what a write action does to incidents is allowed. -/
theorem runs_ofJob {α : Type} (hwrite : a.request.isWrite) {job : Job α}
    (h : job.Runs Calm () fun _ _ => True) :
    (WebJob.ofJob job).Runs (Proceeds cx a) .cleared fun _ g => g = .cleared := by
  induction job with
  | done x => rfl
  | fail => rfl
  | stmt command next onErr ihn ihe =>
    constructor
    · intro s
      obtain ⟨⟨⟩, -, hnext⟩ := h.1 s.world
      exact ⟨_, .write hwrite rfl, ihn s.world hnext⟩
    · intro s
      obtain ⟨⟨⟩, -, herr⟩ := h.2 s.world
      exact ⟨_, .failed, ihe herr⟩
  | mem effect next ih =>
    intro s
    obtain ⟨⟨⟩, hcalm, hnext⟩ := h s.world
    obtain rfl : effect = id := hcalm effect rfl
    exact ⟨_, .quiet fun _ => .refl _, ih s.world hnext⟩

/-- The answer is not a page. -/
def NoPage (r : Option WebReply) (_ : Stage) : Prop := r ≠ some .page

theorem runs_orInternal {job : WebJob Unit} {R : Option Unit → Stage → Prop}
    (h : job.Runs (Proceeds cx a) g R) : (orInternal job).Runs (Proceeds cx a) g NoPage := by
  rw [orInternal, Script.bind_eq]
  refine Script.Runs.bind (Script.Runs.attempt (h.mono ?_))
  rintro (_ | _) g' -
  · exact nofun
  · exact nofun

/-- A look at the time, at the stage of a session. -/
theorem runs_now {α : Type} {f : ℤ → WebJob α} {Q : Option α → Stage → Prop}
    (h : ∀ now, (f now).Runs (Proceeds cx a) g Q) :
    ((Script.get (·.clock) : WebJob ℤ).bind f).Runs (Proceeds cx a) g Q := by
  intro s
  exact ⟨g, .quiet fun _ => .refl _, h s.clock⟩

theorem runs_exec {command : WebCmd} (hwrite : a.request.isWrite)
    (hcommand : command.isSession = false) :
    (Script.exec command : WebJob Unit).Runs (Proceeds cx a) .cleared
      fun _ g => g = .cleared := by
  constructor
  · intro s
    exact ⟨_, .write hwrite hcommand, rfl⟩
  · intro s
    exact ⟨_, .failed, rfl⟩

theorem runs_startMaintenance (hwrite : a.request.isWrite) (form : MaintenanceForm) :
    (startMaintenance cx form).Runs (Proceeds cx a) .cleared NoPage := by
  refine runs_now fun now => ?_
  intro s
  refine ⟨.cleared, .quiet fun _ => .refl _, ?_⟩
  show Script.Runs _ (Script.bind (Script.done s.world.running) _) _ _
  rw [Script.done_bind]
  cases form.starts (cx.parseLocalStart s.world.running) now with
  | none => exact nofun
  | some starts =>
    refine runs_orInternal (R := fun _ _ => True)
      ⟨fun s' => ⟨_, .write hwrite rfl, ?_⟩, fun s' => ⟨_, .failed, trivial⟩⟩
    show (if starts > now then _ else _ : WebJob Unit).Runs _ _ _
    split
    · intro s''
      refine ⟨.cleared, .quiet fun _ => .refl _, ?_⟩
      show Script.Runs _ (Script.bind (Script.attempt _) _) _ _
      refine Script.Runs.bind (Script.Runs.attempt ((runs_exec hwrite rfl).mono ?_))
      rintro (_ | _) g' -
      · exact trivial
      · exact trivial
    · exact trivial

theorem runs_action (hwrite : a.request.isWrite) (action : WriteAction) :
    (action.job cx).Runs (Proceeds cx a) .cleared NoPage := by
  cases action with
  | createIncident form =>
    exact runs_now fun now => runs_orInternal (runs_ofJob hwrite (calm_create form))
  | addUpdate id form =>
    exact runs_now fun now => runs_orInternal (runs_ofJob hwrite (calm_update form))
  | resolveIncident id =>
    exact runs_now fun now => runs_orInternal (runs_ofJob hwrite calm_resolve)
  | startMaintenance form => exact runs_startMaintenance hwrite form
  | endMaintenance id =>
    exact runs_now fun now => runs_orInternal (runs_exec hwrite rfl)
  | deleteSubscriber id => exact runs_orInternal (runs_exec hwrite rfl)

/-! ### Logging in and out -/

theorem runs_loginSubmit {password token : String}
    (hcall : a.request.call = .login password token) :
    (loginSubmit cx a.web a.now a.request password token).Runs (Proceeds cx a) g NoPage := by
  rw [loginSubmit, Script.bind_eq]
  intro s
  refine ⟨g, .quiet fun _ => ⟨rfl, rfl, rfl⟩, ?_⟩
  show (if _ then _ else _ : WebJob WebReply).Runs _ _ _
  split
  · rintro ⟨⟩
  split
  · intro s'
    refine ⟨g, .quiet fun _ => ⟨rfl, rfl, rfl⟩, ?_⟩
    rintro ⟨⟩
  · rename_i hok
    have hproved : a.proved cx token := ⟨password, hcall, by simpa using hok⟩
    intro s'
    refine ⟨g, .quiet fun _ => ⟨rfl, rfl, rfl⟩, ?_⟩
    have hcreate : (createSession (cx.crypto.tokenHash token) a.now
        (a.now + sessionTtlSecs)).Runs (Proceeds cx a) g fun _ _ => True := by
      constructor
      · intro s''
        refine ⟨g, .grant hproved, ?_⟩
        show (if _ then _ else _ : WebJob Unit).Runs _ _ _
        split <;> exact trivial
      · intro s''
        exact ⟨g, .failed, trivial⟩
    refine Script.Runs.bind (p := Script.attempt _) (Script.Runs.attempt (hcreate.mono ?_))
    rintro (_ | _) g' - ⟨⟩

theorem runs_logout (hcall : a.request.call = .logout) :
    (logout cx a.request).Runs (Proceeds cx a) g NoPage := by
  rw [logout]
  split
  · exact nofun
  · rename_i hcsrf
    cases hcookie : a.request.cookie with
    | none => exact nofun
    | some token =>
      constructor
      · intro s
        exact ⟨g, .revoke hcall hcookie (by simpa using hcsrf), nofun⟩
      · intro s
        exact ⟨g, .failed, nofun⟩

/-! ### Visitors -/

/-- `is_logged_in` where the answer changes only what the page looks like. -/
theorem stays_isLoggedIn :
    (isLoggedIn cx a.request).Runs (Proceeds cx a) g fun _ g' => g' = g := by
  rw [isLoggedIn]
  cases a.request.cookie with
  | none => rfl
  | some token =>
    intro s
    refine ⟨g, .quiet fun _ => .refl _, ?_⟩
    constructor
    · intro s'
      exact ⟨g, .asked, rfl⟩
    · intro s'
      exact ⟨g, .failed, rfl⟩

theorem noPage_badForm : NoPage (some .badForm) g := by
  rintro ⟨⟩

theorem noPage_confirmReply (confirmed : Option ConfirmLink) :
    NoPage (some (confirmReply confirmed)) g := by
  cases confirmed with
  | none => rintro ⟨⟩
  | some link => cases link <;> rintro ⟨⟩

theorem noPage_unsubscribeReply (rows : Option ℕ) :
    NoPage (some (unsubscribeReply rows)) g := by
  cases rows with
  | none => rintro ⟨⟩
  | some n =>
    rw [unsubscribeReply]
    split <;> rintro ⟨⟩

theorem runs_signUp {body : String} {rnd : ℕ → String} {reachable : Bool} {cfg : Config}
    {channels : List FormChannel} {req : SignUp} {now : ℤ}
    (hcall : a.request.call = .visit (.subscribe body rnd reachable))
    (hreq : (SubscribeForm.parse (cx.formPairs body)).signUp cfg channels = some req)
    (hcsrf : csrfOk cx.url a.request.headers = true) (hg : g.Opens cx a.request) :
    (signUp cx req rnd now).Runs (Proceeds cx a) g fun _ _ => True := by
  constructor
  · intro s
    refine ⟨g, .visit hcall rfl (.subscribe hreq) fun _ => ⟨hcsrf, hg⟩, ?_⟩
    dsimp only
    split <;> split <;> exact trivial
  · intro s
    exact ⟨g, .failed, trivial⟩

theorem runs_subscribeForm {body : String} {rnd : ℕ → String} {reachable : Bool} {cfg : Config}
    {web : WebConfig} (hcall : a.request.call = .visit (.subscribe body rnd reachable))
    (hg : g.Opens cx a.request) :
    (subscribeForm cx cfg web a.request body rnd reachable).Runs (Proceeds cx a) g NoPage := by
  rw [subscribeForm]
  split
  · exact nofun
  rename_i hcsrf
  rw [Script.bind_eq]
  refine Script.Runs.bind (stays_isLoggedIn.mono ?_)
  rintro (_ | _) g' rfl
  · exact nofun
  refine runs_now fun now => ?_
  intro s
  refine ⟨g', .quiet fun _ => ⟨rfl, rfl, rfl⟩, ?_⟩
  show (if _ then _ else _ : WebJob WebReply).Runs _ _ _
  split
  · exact nofun
  intro s'
  refine ⟨g', .quiet fun _ => ⟨rfl, rfl, rfl⟩, ?_⟩
  show (if _ then _ else _ : WebJob WebReply).Runs _ _ _
  split
  · exact nofun
  intro s''
  refine ⟨g', .quiet fun _ => .refl _, ?_⟩
  show Script.Runs _ (recordSignUp cx rnd reachable now
    ((SubscribeForm.parse (cx.formPairs body)).signUp cfg s''.channels)) _ _
  cases hreq : (SubscribeForm.parse (cx.formPairs body)).signUp cfg s''.channels with
  | none => exact noPage_badForm
  | some req =>
    rw [recordSignUp]
    split
    · exact noPage_badForm
    · exact runs_orInternal (runs_signUp hcall hreq (by simpa using hcsrf) hg)

theorem runs_confirmSubmit {token : String} (hcall : a.request.call = .visit (.confirm token)) :
    (confirmSubmit cx token).Runs (Proceeds cx a) g NoPage := by
  rw [confirmSubmit]
  refine runs_now fun now => ?_
  refine Script.Runs.bind (p := Script.attempt _)
    (Script.Runs.attempt (Script.Runs.mono (Q := fun _ _ => True) ?_ ?_))
  · constructor
    · intro s
      refine ⟨g, .visit hcall rfl .confirm nofun, ?_⟩
      show (if _ then _ else _ : WebJob ConfirmLink).Runs _ _ _
      split
      · exact trivial
      · constructor
        · intro s'
          exact ⟨g, .checked, trivial⟩
        · intro s'
          exact ⟨g, .failed, trivial⟩
    · intro s
      exact ⟨g, .failed, trivial⟩
  · rintro (_ | confirmed) g' -
    · rintro ⟨⟩
    · exact noPage_confirmReply (some confirmed)

theorem runs_unsubscribeSubmit {token : String}
    (hcall : a.request.call = .visit (.unsubscribe token)) :
    (unsubscribeSubmit cx token).Runs (Proceeds cx a) g NoPage := by
  constructor
  · intro s
    exact ⟨g, .visit hcall rfl .unsubscribe nofun, noPage_unsubscribeReply (some _)⟩
  · intro s
    exact ⟨g, .failed, noPage_unsubscribeReply none⟩

/-- A public form changes the tables of subscriptions and nothing else. -/
theorem runs_visit {form : Visit} (hcall : a.request.call = .visit form) :
    (form.job cx a.request).Runs (Proceeds cx a) g NoPage := by
  have hwrite : ¬a.request.isWrite := by
    rintro ⟨action, h⟩
    exact absurd (hcall.symm.trans h) nofun
  intro s
  refine ⟨g, .quiet fun _ => .refl _, ?_⟩
  show (if _ then _ else _ : WebJob WebReply).Runs _ _ _
  split
  · exact nofun
  cases form with
  | subscribe body rnd reachable =>
    exact runs_behind (runs_readGuard hwrite) (fun g' hg' => runs_subscribeForm hcall hg')
      fun _ _ => id
  | confirm token => exact runs_confirmSubmit hcall
  | unsubscribe token => exact runs_unsubscribeSubmit hcall

/-- **Every handler keeps to its stages.** -/
theorem runs_job :
    (a.request.job cx a.web a.now).Runs (Proceeds cx a) .fresh (Justified cx a.request) := by
  have hnoPage : ∀ {r g'}, NoPage r g' → Justified cx a.request r g' := fun h hr => absurd hr h
  have hpage : ∀ {guard g'}, a.request.call = .page guard → g'.Opens cx a.request →
      (pure WebReply.page : WebJob WebReply).Runs (Proceeds cx a) g' (Justified cx a.request) := by
    rintro guard g' hcall (hcleared | ⟨web, hlooked, hopens⟩) -
    · exact .inl hcleared
    · exact .inr ⟨guard, web, hcall, hlooked, hopens⟩
  rw [WebRequest.job]
  split
  · rename_i password token hcall
    exact (runs_loginSubmit hcall).mono fun _ _ => hnoPage
  · rename_i hcall
    exact (runs_logout hcall).mono fun _ _ => hnoPage
  · rename_i action hcall
    refine runs_behind runs_writeGuard ?_ fun _ _ => hnoPage
    rintro g' rfl
    exact (runs_action ⟨action, hcall⟩ action).mono fun _ _ => hnoPage
  · rename_i form hcall
    exact (runs_visit hcall).mono fun _ _ => hnoPage
  · rename_i hcall
    have hwrite : a.request.isWrite → csrfOk cx.url a.request.headers = true := by
      rintro ⟨action, h⟩
      exact absurd (hcall.symm.trans h) nofun
    rw [Script.bind_eq]
    refine Script.Runs.bind ((runs_isLoggedIn hwrite).mono ?_)
    rintro r g' ⟨b, rfl, hb⟩
    cases b with
    | true => exact fun _ => .inl (hb rfl)
    | false => exact nofun
  · rename_i hcall
    have hwrite : ¬a.request.isWrite := by
      rintro ⟨action, h⟩
      exact absurd (hcall.symm.trans h) nofun
    exact runs_behind (runs_readGuard hwrite) (fun g' => hpage hcall) fun _ _ => hnoPage
  · rename_i hcall
    exact runs_behind (runs_keyedGuard hcall) (fun g' => hpage hcall) fun _ _ => hnoPage

end Handlers

/-! ### Runs -/

/-- The time does not go back, and a rollup prunes by a time it has read. -/
def TimeGoesOn (s : WebSystem) : WebStep → Prop
  | .tick now => s.state.clock ≤ now
  | .prune now => now ≤ s.state.clock
  | _ => True

instance (s : WebSystem) : DecidablePred (TimeGoesOn s) := fun op =>
  match op with
  | .tick _ | .prune _ => inferInstanceAs (Decidable (_ ≤ _))
  | .arrive _ | .move .. | .reload .. | .channels _ | .restart .. => isTrue trivial

/-- A login gives out the token: its password is right, and the session will still be valid at the
time `t`. -/
def Grants (cx : WebCrates) (token : String) (t : ℤ) (s : WebSystem) : WebStep → Prop
  | .move i false => ∃ r, s.requests[i]? = some r ∧
    r.job.command? = some (.createSession (cx.crypto.tokenHash token) r.arrival.now
      (r.arrival.now + sessionTtlSecs)) ∧
    s.state.sessions.get? (cx.crypto.tokenHash token) = none ∧
    r.arrival.proved cx token ∧ t < r.arrival.now + sessionTtlSecs
  | _ => False

/-- Somebody who has the token logs out, and the `DELETE` runs. `logout` ignores a `DELETE` that
fails and takes the cookie away all the same; the token is then as good as before. -/
def Revokes (cx : WebCrates) (token : String) (s : WebSystem) : WebStep → Prop
  | .move i false => ∃ r, s.requests[i]? = some r ∧
    r.job.command? = some (.deleteSession (cx.crypto.tokenHash token)) ∧
    r.arrival.request.call = .logout ∧ r.arrival.request.cookie = some token ∧
    csrfOk cx.url r.arrival.request.headers = true
  | _ => False

section Runs

variable (cx) (s₀ : WebSystem)

/-- A request read the time. -/
def ReadTime (i : ℕ) (t : ℤ) (past : List WebStep) : Prop :=
  ∃ before fault after, past = before ++ .move i fault :: after ∧
    (run (WebSystem.step cx) s₀ before).state.clock = t

/-- A request read the config. -/
def ReadConfig (i : ℕ) (web : WebConfig) (past : List WebStep) : Prop :=
  ∃ before fault after, past = before ++ .move i fault :: after ∧
    (run (WebSystem.step cx) s₀ before).state.web = web

/-- A request looked for the session of a token, at a time it had read, and found it. -/
def FoundSession (i : ℕ) (token : String) (past : List WebStep) : Prop :=
  ∃ t before after, past = before ++ .move i false :: after ∧ ReadTime cx s₀ i t before ∧
    (run (WebSystem.step cx) s₀ before).state.sessionValid (cx.crypto.tokenHash token) t = true

/-- At one of its moves a request had a session: its token was valid, at a time the request had
read. It had been given out at a login less than thirty days before that time, and nobody had logged
out with it. -/
def HasSession (i : ℕ) (a : Arrival) (past : List WebStep) : Prop :=
  ∃ token t before after, a.request.cookie = some token ∧
    past = before ++ .move i false :: after ∧ ReadTime cx s₀ i t before ∧
    Since (WebSystem.step cx) (Grants cx token t) (Revokes cx token) s₀ before

/-- What has happened to a request that is at a stage. -/
def Stage.History (i : ℕ) (a : Arrival) (past : List WebStep) : Stage → Prop
  | .fresh => True
  | .looked web => ReadConfig cx s₀ i web past
  | .timed t => ReadTime cx s₀ i t past
  | .cleared => ∃ token, a.request.cookie = some token ∧
    (a.request.isWrite → csrfOk cx.url a.request.headers = true) ∧
    FoundSession cx s₀ i token past

/-- Every request is at a stage with its history. -/
def Staged (past : List WebStep) (s : WebSystem) : Prop :=
  ∀ (i : ℕ) (r : Serving), s.requests[i]? = some r →
    ∃ g : Stage, r.job.Runs (Proceeds cx r.arrival) g (Justified cx r.arrival.request) ∧
      g.History cx s₀ i r.arrival past

variable {cx s₀} {past : List WebStep} {i : ℕ} {a : Arrival} {g g' : Stage} {fault : Bool}
  {piece : Piece WebCmd WebState} {s : WebSystem} {op : WebStep}

/-- What has happened stays so. -/
theorem Stage.History.append (h : g.History cx s₀ i a past) (op : WebStep) :
    g.History cx s₀ i a (past ++ [op]) := by
  have happend : ∀ (before after : List WebStep) (op' : WebStep),
      past = before ++ op' :: after → past ++ [op] = before ++ op' :: (after ++ [op]) := by
    rintro before after op' rfl
    simp only [List.append_assoc, List.cons_append]
  cases g with
  | fresh => trivial
  | looked web =>
    obtain ⟨before, fault, after, hpast, hweb⟩ := h
    exact ⟨before, fault, after ++ [op], happend _ _ _ hpast, hweb⟩
  | timed t =>
    obtain ⟨before, fault, after, hpast, ht⟩ := h
    exact ⟨before, fault, after ++ [op], happend _ _ _ hpast, ht⟩
  | cleared =>
    obtain ⟨token, hcookie, hcsrf, t, before, after, hpast, hfound⟩ := h
    exact ⟨token, hcookie, hcsrf, t, before, after ++ [op], happend _ _ _ hpast, hfound⟩

/-- The history of the next stage. -/
theorem Proceeds.history {job : WebJob WebReply} (hpiece : job.piece? fault = some piece)
    (h : Proceeds cx a g piece (run (WebSystem.step cx) s₀ past).state g')
    (hg : g.History cx s₀ i a past) : g'.History cx s₀ i a (past ++ [.move i fault]) := by
  cases h with
  | config => exact ⟨past, fault, [], rfl, rfl⟩
  | clock => exact ⟨past, fault, [], rfl, rfl⟩
  | quiet => exact hg.append _
  | failed => exact hg.append _
  | asked => exact hg.append _
  | valid hcookie hcsrf hvalid =>
    obtain ⟨-, rfl⟩ := Script.command?_of_piece_ok hpiece
    exact ⟨_, hcookie, hcsrf, _, past, [], rfl, hg, hvalid⟩
  | write => exact hg.append _
  | grant => exact hg.append _
  | revoke => exact hg.append _
  | checked => exact hg.append _
  | visit => exact hg.append _

/-- A move of a request. -/
theorem step_move {r : Serving} (hr : s.requests[i]? = some r) :
    WebSystem.step cx s (.move i fault) =
      { state := (r.job.move (WebCmd.act cx.crypto) fault s.state).2
        requests := s.requests.set i
          { r with job := (r.job.move (WebCmd.act cx.crypto) fault s.state).1 } } := by
  rw [WebSystem.step, hr]

/-- A step keeps every request at a stage. -/
theorem Staged.step (ih : Staged cx s₀ past (run (WebSystem.step cx) s₀ past)) (op : WebStep) :
    Staged cx s₀ (past ++ [op])
      (WebSystem.step cx (run (WebSystem.step cx) s₀ past) op) := by
  have hkeep : ∀ (i : ℕ) (r : Serving),
      (run (WebSystem.step cx) s₀ past).requests[i]? = some r →
      ∃ g : Stage, r.job.Runs (Proceeds cx r.arrival) g (Justified cx r.arrival.request) ∧
        g.History cx s₀ i r.arrival (past ++ [op]) := by
    intro i r hr
    obtain ⟨g, hruns, hg⟩ := ih i r hr
    exact ⟨g, hruns, hg.append op⟩
  cases op with
  | arrive r' =>
    intro i r hr
    rw [WebSystem.step, List.getElem?_append] at hr
    split at hr
    · exact hkeep i r hr
    · rw [List.getElem?_singleton] at hr
      split at hr
      · obtain rfl := Option.some.inj hr
        exact ⟨.fresh, runs_job (a := ⟨r', _, _⟩), trivial⟩
      · exact absurd hr nofun
  | move j fault =>
    cases hj : (run (WebSystem.step cx) s₀ past).requests[j]? with
    | none =>
      intro i r hr
      rw [WebSystem.step, hj] at hr
      exact hkeep i r hr
    | some r' =>
      intro i r hr
      rw [step_move hj, List.getElem?_set] at hr
      split at hr
      · rename_i hji
        subst hji
        split at hr
        · obtain rfl := Option.some.inj hr
          obtain ⟨g, hruns, hg⟩ := ih j r' hj
          cases hpiece : r'.job.piece? fault with
          | none =>
            rw [Script.move_of_piece_none hpiece]
            exact ⟨g, hruns, hg.append _⟩
          | some piece =>
            obtain ⟨g', hgoes, hruns', -⟩ :=
              hruns.move_piece (WebCmd.act cx.crypto) hpiece (run (WebSystem.step cx) s₀ past).state
            exact ⟨g', hruns', hgoes.history hpiece hg⟩
        · exact absurd hr nofun
      · exact hkeep i r hr
  | tick now => exact hkeep
  | prune now => exact hkeep
  | reload cfg web => exact hkeep
  | channels list => exact hkeep
  | restart cfg web =>
    intro i r hr
    rw [WebSystem.step, List.getElem?_map] at hr
    obtain ⟨r', -, rfl⟩ := Option.map_eq_some_iff.mp hr
    exact ⟨.fresh, nofun, trivial⟩

variable (cx s₀) in
theorem staged_run (h₀ : s₀.requests = []) (past : List WebStep) :
    Staged cx s₀ past (run (WebSystem.step cx) s₀ past) := by
  have hinit : Staged cx s₀ [] s₀ := by
    intro i r hr
    rw [h₀] at hr
    exact absurd hr nofun
  exact run_history hinit (fun _ op ih => Staged.step ih op) past

/-! ### The sessions -/

/-- When the session of a token expires. -/
def WebState.expiry (cx : WebCrates) (s : WebState) (token : String) : Option ℤ :=
  (s.sessions.get? (cx.crypto.tokenHash token)).map (·.expiresAt)

theorem sessionValid_eq (s : WebState) (token : String) (t : ℤ) :
    s.sessionValid (cx.crypto.tokenHash token) t =
      (s.expiry cx token).any fun e => decide (t < e) := by
  rw [WebState.sessionValid, WebState.expiry, Option.any_map]

/-- What a step does to the session of one token. -/
inductive Touches (cx : WebCrates) (token : String) (s : WebSystem) (op : WebStep)
    (s' : WebState) : Prop
  | kept (h : s'.expiry cx token = s.state.expiry cx token) (hg : ∀ t, ¬Grants cx token t s op)
      (hr : ¬Revokes cx token s op)
  | granted (e : ℤ) (h : s.state.expiry cx token = none) (h' : s'.expiry cx token = some e)
      (hg : ∀ t, Grants cx token t s op ↔ t < e) (hr : ¬Revokes cx token s op)
  | revoked (h : s'.expiry cx token = none) (hg : ∀ t, ¬Grants cx token t s op)
      (hr : Revokes cx token s op)
  | pruned (now : ℤ) (hop : op = .prune now)
      (h : s'.expiry cx token = (s.state.expiry cx token).filter fun e => decide (now < e))

theorem grants_move {r : Serving} (hr : s.requests[i]? = some r) {token : String} {t : ℤ} :
    Grants cx token t s (.move i fault) ↔
      r.job.piece? fault = some (.ok (.createSession (cx.crypto.tokenHash token) r.arrival.now
        (r.arrival.now + sessionTtlSecs))) ∧
      s.state.sessions.get? (cx.crypto.tokenHash token) = none ∧
      r.arrival.proved cx token ∧ t < r.arrival.now + sessionTtlSecs := by
  constructor
  · intro h
    cases fault with
    | true => exact h.elim
    | false =>
      obtain ⟨r', hr', hcommand, hrest⟩ := h
      obtain rfl := Option.some.inj (hr'.symm.trans hr)
      exact ⟨Script.piece?_false_of_command hcommand, hrest⟩
  · rintro ⟨hpiece, hrest⟩
    obtain ⟨hcommand, rfl⟩ := Script.command?_of_piece_ok hpiece
    exact ⟨r, hr, hcommand, hrest⟩

theorem revokes_move {r : Serving} (hr : s.requests[i]? = some r) {token : String} :
    Revokes cx token s (.move i fault) ↔
      r.job.piece? fault = some (.ok (.deleteSession (cx.crypto.tokenHash token))) ∧
      r.arrival.request.call = .logout ∧ r.arrival.request.cookie = some token ∧
      csrfOk cx.url r.arrival.request.headers = true := by
  constructor
  · intro h
    cases fault with
    | true => exact h.elim
    | false =>
      obtain ⟨r', hr', hcommand, hrest⟩ := h
      obtain rfl := Option.some.inj (hr'.symm.trans hr)
      exact ⟨Script.piece?_false_of_command hcommand, hrest⟩
  · rintro ⟨hpiece, hrest⟩
    obtain ⟨hcommand, rfl⟩ := Script.command?_of_piece_ok hpiece
    exact ⟨r, hr, hcommand, hrest⟩

/-- A piece that is no statement about sessions, and leaves that of the token as it is. -/
theorem touches_kept {r : Serving} (hr : s.requests[i]? = some r)
    (hpiece : r.job.piece? fault = some piece) {token : String} {s' : WebState}
    (hs : s'.expiry cx token = s.state.expiry cx token)
    (hcreate : ∀ hash createdAt expiresAt, piece ≠ .ok (.createSession hash createdAt expiresAt))
    (hdelete : ∀ hash, piece ≠ .ok (.deleteSession hash)) :
    Touches cx token s (.move i fault) s' := by
  refine .kept hs (fun t h => ?_) fun h => ?_
  · exact hcreate _ _ _ (Option.some.inj (hpiece.symm.trans ((grants_move hr).mp h).1))
  · exact hdelete _ (Option.some.inj (hpiece.symm.trans ((revokes_move hr).mp h).1))

/-- A login gives a token out, unless it has a session already. -/
theorem touches_createSession {r : Serving} (hr : s.requests[i]? = some r) {token' : String}
    (hpiece : r.job.piece? fault = some (.ok (.createSession (cx.crypto.tokenHash token')
      r.arrival.now (r.arrival.now + sessionTtlSecs))))
    (hproved : r.arrival.proved cx token') (token : String) :
    Touches cx token s (.move i fault)
      (WebCmd.act cx.crypto (.createSession (cx.crypto.tokenHash token') r.arrival.now
        (r.arrival.now + sessionTtlSecs)) s.state) := by
  have hrevoke : ¬Revokes cx token s (.move i fault) := by
    intro h
    cases hpiece.symm.trans ((revokes_move hr).mp h).1
  have hsame : ∀ {t}, Grants cx token t s (.move i fault) → token = token' := by
    intro t h
    have heq := hpiece.symm.trans ((grants_move hr).mp h).1
    have hhash := (WebCmd.createSession.inj (Piece.ok.inj (Option.some.inj heq))).1
    exact (cx.crypto.tokenHash_injective hhash).symm
  show Touches cx token s (.move i fault)
    (if (s.state.sessions.get? (cx.crypto.tokenHash token')).isSome then _ else _)
  split
  · rename_i hsome
    refine .kept rfl (fun t h => ?_) hrevoke
    obtain rfl := hsame h
    rw [((grants_move hr).mp h).2.1] at hsome
    cases hsome
  · rename_i hnone
    have hnone : s.state.sessions.get? (cx.crypto.tokenHash token') = none := by
      simpa using hnone
    by_cases htoken : token = token'
    · subst htoken
      refine .granted (r.arrival.now + sessionTtlSecs) ?_ ?_ (fun t => ?_) hrevoke
      · rw [WebState.expiry, hnone, Option.map_none]
      · rw [WebState.expiry, Lib.Keyed.get?_upsert, if_pos rfl]
        rfl
      · rw [grants_move hr]
        exact ⟨fun h => h.2.2.2, fun h => ⟨hpiece, hnone, hproved, h⟩⟩
    · refine .kept ?_ (fun t h => htoken (hsame h)) hrevoke
      have hhash : cx.crypto.tokenHash token ≠ cx.crypto.tokenHash token' := fun h =>
        htoken (cx.crypto.tokenHash_injective h)
      rw [WebState.expiry, Lib.Keyed.get?_upsert, if_neg hhash]
      rfl

/-- A logout takes the session of its own token. -/
theorem touches_deleteSession {r : Serving} (hr : s.requests[i]? = some r) {token' : String}
    (hpiece : r.job.piece? fault = some (.ok (.deleteSession (cx.crypto.tokenHash token'))))
    (hcall : r.arrival.request.call = .logout) (hcookie : r.arrival.request.cookie = some token')
    (hcsrf : csrfOk cx.url r.arrival.request.headers = true) (token : String) :
    Touches cx token s (.move i fault)
      (WebCmd.act cx.crypto (.deleteSession (cx.crypto.tokenHash token')) s.state) := by
  have hgrant : ∀ t, ¬Grants cx token t s (.move i fault) := by
    intro t h
    cases hpiece.symm.trans ((grants_move hr).mp h).1
  have hget : (WebCmd.act cx.crypto (.deleteSession (cx.crypto.tokenHash token'))
      s.state).expiry cx token =
        if cx.crypto.tokenHash token = cx.crypto.tokenHash token' then none
        else s.state.expiry cx token := by
    show ((s.state.sessions.delete fun k _ => k == _).get? _).map _ = _
    rw [Lib.Keyed.get?_delete]
    by_cases hhash : cx.crypto.tokenHash token = cx.crypto.tokenHash token'
    · rw [if_pos (beq_iff_eq.mpr hhash), if_pos hhash, Option.map_none]
    · rw [if_neg (by simpa using hhash), if_neg hhash]
      rfl
  by_cases htoken : token = token'
  · subst htoken
    rw [if_pos rfl] at hget
    exact .revoked hget hgrant ((revokes_move hr).mpr ⟨hpiece, hcall, hcookie, hcsrf⟩)
  · rw [if_neg fun h => htoken (cx.crypto.tokenHash_injective h)] at hget
    refine .kept hget hgrant fun h => ?_
    have heq := hpiece.symm.trans ((revokes_move hr).mp h).1
    have hhash := WebCmd.deleteSession.inj (Piece.ok.inj (Option.some.inj heq))
    exact htoken (cx.crypto.tokenHash_injective hhash).symm

theorem expiry_write {command : WebCmd} (hcommand : command.isSession = false) (s : WebState)
    (token : String) : (command.act cx.crypto s).expiry cx token = s.expiry cx token := by
  cases command with
  | createSession => exact absurd hcommand nofun
  | sessionValid => exact absurd hcommand nofun
  | deleteSession => exact absurd hcommand nofun
  | incident => rfl
  | createMaintenance => rfl
  | publishScheduled => rfl
  | endMaintenance => rfl
  | deleteSubscriber => rfl
  | signUp => rfl
  | confirm => rfl
  | checkConfirm => rfl
  | unsubscribe => rfl

/-- A visitor's statement is not about sessions. -/
theorem isSession_of_subsOp {command : WebCmd} {change : SubsOp}
    (h : command.subsOp = some change) : command.isSession = false := by
  cases command with
  | createSession => cases h
  | sessionValid => cases h
  | deleteSession => cases h
  | _ => rfl

/-- **What a piece of a request does to a session.** -/
theorem Proceeds.touches {r : Serving} (hr : s.requests[i]? = some r)
    (hpiece : r.job.piece? fault = some piece)
    (h : Proceeds cx r.arrival g piece s.state g') (token : String) :
    Touches cx token s (.move i fault) (piece.effect (WebCmd.act cx.crypto) s.state) := by
  have hother : ∀ {command : WebCmd}, command.isSession = false → piece = .ok command →
      Touches cx token s (.move i fault) (piece.effect (WebCmd.act cx.crypto) s.state) := by
    rintro command hcommand rfl
    refine touches_kept hr hpiece (expiry_write hcommand s.state token) ?_ ?_
    · rintro hash c e heq
      rw [Piece.ok.inj heq] at hcommand
      cases hcommand
    · rintro hash heq
      rw [Piece.ok.inj heq] at hcommand
      cases hcommand
  cases h with
  | config => exact touches_kept hr hpiece rfl (by rintro _ _ _ ⟨⟩) (by rintro _ ⟨⟩)
  | clock => exact touches_kept hr hpiece rfl (by rintro _ _ _ ⟨⟩) (by rintro _ ⟨⟩)
  | quiet hquiet =>
    refine touches_kept hr hpiece ?_ (by rintro _ _ _ ⟨⟩) (by rintro _ ⟨⟩)
    show WebState.expiry cx (_ : WebState) token = _
    rw [WebState.expiry, Piece.effect, (hquiet s.state).sessions]
    rfl
  | failed => exact touches_kept hr hpiece rfl (by rintro _ _ _ ⟨⟩) (by rintro _ ⟨⟩)
  | asked => exact touches_kept hr hpiece rfl (by rintro _ _ _ ⟨⟩) (by rintro _ ⟨⟩)
  | valid => exact touches_kept hr hpiece rfl (by rintro _ _ _ ⟨⟩) (by rintro _ ⟨⟩)
  | write _ hcommand => exact hother hcommand rfl
  | checked => exact hother rfl rfl
  | visit _ hcommand => exact hother (isSession_of_subsOp hcommand) rfl
  | grant hproved => exact touches_createSession hr hpiece hproved token
  | revoke hcall hcookie hcsrf =>
    exact touches_deleteSession hr hpiece hcall hcookie hcsrf token

/-- **What a step does to a session.** -/
theorem step_touches (hstaged : Staged cx s₀ past s) (op : WebStep) (token : String) :
    Touches cx token s op (WebSystem.step cx s op).state := by
  cases op with
  | arrive r => exact .kept rfl (fun _ => id) id
  | move i fault =>
    cases hr : s.requests[i]? with
    | none =>
      rw [WebSystem.step, hr]
      refine .kept rfl (fun t h => ?_) fun h => ?_
      · cases fault with
        | true => exact h
        | false =>
          obtain ⟨r, hr', -⟩ := h
          exact absurd (hr.symm.trans hr') nofun
      · cases fault with
        | true => exact h
        | false =>
          obtain ⟨r, hr', -⟩ := h
          exact absurd (hr.symm.trans hr') nofun
    | some r =>
      rw [step_move hr]
      obtain ⟨g, hruns, -⟩ := hstaged i r hr
      cases hpiece : r.job.piece? fault with
      | none =>
        rw [Script.move_of_piece_none hpiece]
        refine .kept rfl (fun t h => ?_) fun h => ?_
        · cases hpiece.symm.trans ((grants_move hr).mp h).1
        · cases hpiece.symm.trans ((revokes_move hr).mp h).1
      | some piece =>
        obtain ⟨g', hgoes, -, heffect⟩ := hruns.move_piece (WebCmd.act cx.crypto) hpiece s.state
        dsimp only
        rw [heffect]
        exact hgoes.touches hr hpiece token
  | tick now => exact .kept rfl (fun _ => id) id
  | prune now =>
    refine .pruned now rfl ?_
    show ((s.state.sessions.delete _).get? _).map _ = ((s.state.sessions.get? _).map _).filter _
    rw [Lib.Keyed.get?_delete_where, Option.filter_map]
    congr 2
    funext session
    show (!decide (session.expiresAt ≤ now)) = decide (now < session.expiresAt)
    by_cases hlt : now < session.expiresAt
    · rw [decide_eq_true hlt, decide_eq_false (not_le.mpr hlt)]
      rfl
    · rw [decide_eq_false hlt, decide_eq_true (not_lt.mp hlt)]
      rfl
  | reload cfg web => exact .kept rfl (fun _ => id) id
  | channels list => exact .kept rfl (fun _ => id) id
  | restart cfg web => exact .kept rfl (fun _ => id) id

/-- A session comes from a login, and nobody has logged out with it. -/
theorem since_of_valid (h₀ : s₀.requests = []) (hnone : s₀.state.sessions = .empty)
    (past : List WebStep) {token : String} {t : ℤ}
    (h : (run (WebSystem.step cx) s₀ past).state.sessionValid (cx.crypto.tokenHash token) t =
      true) :
    Since (WebSystem.step cx) (Grants cx token t) (Revokes cx token) s₀ past := by
  rw [sessionValid_eq] at h
  induction past using List.reverseRecOn with
  | nil =>
    rw [run_nil, WebState.expiry, hnone, Lib.Keyed.get?_empty] at h
    exact absurd h nofun
  | append_singleton past op ih =>
    rw [run_append] at h
    rw [since_append_singleton]
    cases step_touches (staged_run cx s₀ h₀ past) op token with
    | kept hsame _ hrevoke =>
      rw [run_cons, run_nil, hsame] at h
      exact .inr ⟨ih h, hrevoke⟩
    | granted e _ hsome hgrant _ =>
      rw [run_cons, run_nil, hsome] at h
      exact .inl ((hgrant t).mpr (by simpa using h))
    | revoked hgone _ _ =>
      rw [run_cons, run_nil, hgone] at h
      exact absurd h nofun
    | pruned now hop hfilter =>
      subst hop
      rw [run_cons, run_nil, hfilter] at h
      refine .inr ⟨ih ?_, id⟩
      rw [Option.any_eq_true] at h ⊢
      obtain ⟨e, he, hte⟩ := h
      exact ⟨e, (Option.mem_filter_iff.mp he).1, hte⟩

/-- The statements of requests leave the time alone. -/
theorem clock_ok (command : WebCmd) (s : WebState) :
    ((Piece.ok command).effect (WebCmd.act cx.crypto) s).clock = s.clock := by
  cases command with
  | createSession tokenHash createdAt expiresAt =>
    show (if _ then _ else _ : WebState).clock = _
    split <;> rfl
  | sessionValid => rfl
  | deleteSession => rfl
  | incident => rfl
  | createMaintenance => rfl
  | publishScheduled => rfl
  | endMaintenance => rfl
  | deleteSubscriber => rfl
  | signUp => rfl
  | confirm => rfl
  | checkConfirm => rfl
  | unsubscribe => rfl

/-- Time passes by itself. -/
theorem clock_le_step (hstaged : Staged cx s₀ past s) (hop : TimeGoesOn s op) :
    s.state.clock ≤ (WebSystem.step cx s op).state.clock := by
  cases op with
  | arrive r => exact le_refl _
  | move i fault =>
    cases hr : s.requests[i]? with
    | none => rw [WebSystem.step, hr]
    | some r =>
      rw [step_move hr]
      obtain ⟨g, hruns, -⟩ := hstaged i r hr
      cases hpiece : r.job.piece? fault with
      | none => rw [Script.move_of_piece_none hpiece]
      | some piece =>
        obtain ⟨g', hgoes, -, heffect⟩ := hruns.move_piece (WebCmd.act cx.crypto) hpiece s.state
        dsimp only
        rw [heffect]
        cases hgoes with
        | config => exact le_refl _
        | clock => exact le_refl _
        | quiet hquiet => exact (hquiet s.state).clock.ge
        | failed => exact le_refl _
        | asked => exact (clock_ok _ s.state).ge
        | valid => exact (clock_ok _ s.state).ge
        | write => exact (clock_ok _ s.state).ge
        | grant => exact (clock_ok _ s.state).ge
        | revoke => exact (clock_ok _ s.state).ge
        | checked => exact (clock_ok _ s.state).ge
        | visit => exact (clock_ok _ s.state).ge
  | tick now => exact hop
  | prune now => exact le_refl _
  | reload cfg web => exact le_refl _
  | channels list => exact le_refl _
  | restart cfg web => exact le_refl _

/-- The session of a login stays, until somebody logs out with it. -/
theorem valid_of_since (h₀ : s₀.requests = []) {past : List WebStep}
    (htime : Always (WebSystem.step cx) TimeGoesOn s₀ past) {token : String} {t : ℤ}
    (ht : (run (WebSystem.step cx) s₀ past).state.clock ≤ t)
    (h : Since (WebSystem.step cx) (Grants cx token t) (Revokes cx token) s₀ past) :
    (run (WebSystem.step cx) s₀ past).state.sessionValid (cx.crypto.tokenHash token) t = true := by
  rw [sessionValid_eq]
  induction past using List.reverseRecOn with
  | nil => exact h.elim
  | append_singleton past op ih =>
    obtain ⟨hpast, hop⟩ := always_append.mp htime
    rw [run_append] at ht ⊢
    have hclock : (run (WebSystem.step cx) s₀ past).state.clock ≤ t :=
      (clock_le_step (staged_run cx s₀ h₀ past) hop.1).trans ht
    rw [since_append_singleton] at h
    rw [run_cons, run_nil]
    cases step_touches (staged_run cx s₀ h₀ past) op token with
    | kept hsame hgrant _ =>
      rw [hsame]
      exact ih hpast hclock (h.resolve_left (hgrant t)).1
    | granted e hnone hsome hgrant _ =>
      rw [hsome]
      rcases h with hnow | ⟨hbefore, -⟩
      · simpa using (hgrant t).mp hnow
      · have hvalid := ih hpast hclock hbefore
        rw [hnone] at hvalid
        exact absurd hvalid nofun
    | revoked _ hgrant hrevoke => exact absurd hrevoke (h.resolve_left (hgrant t)).2
    | pruned now hprune hfilter =>
      subst hprune
      have hvalid := ih hpast hclock (h.resolve_left id).1
      rw [hfilter, Option.any_eq_true]
      obtain ⟨e, he, hte⟩ := (Option.any_eq_true _ _).mp hvalid
      have hlt : now < e := by
        have hnow : now ≤ (run (WebSystem.step cx) s₀ past).state.clock := hop.1
        have hte : t < e := of_decide_eq_true hte
        omega
      exact ⟨e, Option.mem_filter_iff.mpr ⟨he, decide_eq_true hlt⟩, hte⟩

/-! ### The data -/

/-- The tables of subscriptions alone have changed, as `change` has it. -/
def WebState.OnlySubs (cr : Crypto) (change : SubsOp) (s s' : WebState) : Prop :=
  s'.data = (s.data.1, { s.data.2 with subs := change.tables cr s.data.2.subs })

theorem onlySubs_act {command : WebCmd} {change : SubsOp} (h : command.subsOp = some change)
    (s : WebState) : s.OnlySubs cx.crypto change (command.act cx.crypto s) := by
  cases command with
  | signUp | confirm | unsubscribe =>
    obtain rfl := Option.some.inj h
    rfl
  | _ => cases h

/-- Only what is behind `write_guard` and the public forms change the data. -/
theorem Proceeds.of_data (h : Proceeds cx a g piece s.state g')
    (hdata : (piece.effect (WebCmd.act cx.crypto) s.state).data ≠ s.state.data) :
    (∃ command, piece = .ok command) ∧
      (g = .cleared ∧ a.request.isWrite ∨
        ∃ form change, a.request.call = .visit form ∧ form.Asks cx change ∧
          (form.isSubscribe = true →
            csrfOk cx.url a.request.headers = true ∧ g.Opens cx a.request) ∧
          s.state.OnlySubs cx.crypto change (piece.effect (WebCmd.act cx.crypto) s.state)) := by
  cases h with
  | config => exact absurd rfl hdata
  | clock => exact absurd rfl hdata
  | quiet hquiet => exact absurd (hquiet s.state).data hdata
  | failed => exact absurd rfl hdata
  | asked => exact absurd rfl hdata
  | valid => exact absurd rfl hdata
  | write hwrite => exact ⟨⟨_, rfl⟩, .inl ⟨rfl, hwrite⟩⟩
  | grant =>
    refine absurd ?_ hdata
    show (if _ then _ else _ : WebState).data = _
    split <;> rfl
  | revoke => exact absurd rfl hdata
  | checked => exact absurd rfl hdata
  | visit hcall hcommand hasks hopen =>
    exact ⟨⟨_, rfl⟩, .inr ⟨_, _, hcall, hasks, hopen, onlySubs_act hcommand s.state⟩⟩

variable (cx s₀) in
/-- A request that passed the CSRF check and has somebody's session. -/
structure Authorised (i : ℕ) (a : Arrival) (past : List WebStep) : Prop where
  write : a.request.isWrite
  csrf : csrfOk cx.url a.request.headers = true
  session : HasSession cx s₀ i a past

variable (cx s₀) in
/-- A visitor's form: what it asks for is done to the tables of subscriptions, and nothing else is.
A sign-up passed the CSRF check, and the page was open to it or it has a session. -/
structure Visited (i : ℕ) (a : Arrival) (past : List WebStep) (form : Visit) (change : SubsOp)
    (s s' : WebState) : Prop where
  call : a.request.call = .visit form
  asks : form.Asks cx change
  only : s.OnlySubs cx.crypto change s'
  signUp : form.isSubscribe = true → csrfOk cx.url a.request.headers = true ∧
    ((∃ web, web.protectRead = false ∧ ReadConfig cx s₀ i web past) ∨ HasSession cx s₀ i a past)

/-- The session behind the stage. -/
theorem hasSession_of_history (h₀ : s₀.requests = []) (hnone : s₀.state.sessions = .empty)
    (h : Stage.History cx s₀ i a past .cleared) : HasSession cx s₀ i a past := by
  obtain ⟨token, hcookie, -, t, before, after, hpast, htime, hvalid⟩ := h
  exact ⟨token, t, before, after, hcookie, hpast, htime, since_of_valid h₀ hnone before hvalid⟩

end Runs

/-- **A session is a login less than thirty days ago, without a logout since.** -/
theorem session_valid_iff (cx : WebCrates) (world : World) (upkeep : Upkeep) (web : WebConfig)
    (clock : ℤ) (ops : List WebStep)
    (h : Always (WebSystem.step cx) TimeGoesOn (.initial world upkeep web clock) ops)
    (token : String) (t : ℤ)
    (ht : (run (WebSystem.step cx) (.initial world upkeep web clock) ops).state.clock ≤ t) :
    (run (WebSystem.step cx) (.initial world upkeep web clock) ops).state.sessionValid
        (cx.crypto.tokenHash token) t = true ↔
      Since (WebSystem.step cx) (Grants cx token t) (Revokes cx token)
        (.initial world upkeep web clock) ops :=
  ⟨since_of_valid rfl rfl ops, valid_of_since rfl h ht⟩

def exampleHash : String :=
  "$argon2id$v=19$m=19456,t=2,p=1$HAxHiOcZJRfd5p0TbNMaUA$" ++
    "WaS5hjKfMZye0zcHnrwWqsUu3nWHgBWqzO/9D46dUYo"

/-- The crates, on what the run gives them. -/
def sampleCrates : WebCrates where
  crypto := sampleCrypto
  url := siteUrls
  verifyPassword password phc :=
    if phc = exampleHash then some (password == "changemechangeme") else none
  formPairs body :=
    if body = "channel=email&address=reader%40example.org&all=on" then
      [("channel", "email"), ("address", "reader@example.org"), ("all", "on")]
    else []
  parseLocalStart _ _ := none

def exampleWeb : WebConfig := ⟨some exampleHash, true, [], false⟩

/-- A request of the site itself. -/
def siteRequest (call : WebCall) (cookie : Option String) : WebRequest :=
  ⟨call, nameHeaders, cookie, none, "1.1.1.1"⟩

def sampleToken : String := "e9fc27a35cab93c8958f22ed9ea037998f9a2475fe3d83f522e58dd353739094"

/-- A login, and an incident a minute later. -/
def loginAndWrite : List WebStep :=
  [.arrive (siteRequest (.login "changemechangeme" sampleToken) none),
    .move 0 false, .move 0 false, .move 0 false, .tick 60,
    .arrive (siteRequest (.write (.createIncident ⟨"web", "Down", "", none, none⟩))
      (some sampleToken)),
    .move 1 false, .move 1 false, .move 1 false]

def emptySite : WebSystem :=
  .initial (.initial .empty quickConfig) ⟨.empty, .empty⟩ exampleWeb 0

theorem session_valid_iff_login :
    Since (WebSystem.step sampleCrates) (Grants sampleCrates sampleToken 2591999)
        (Revokes sampleCrates sampleToken) emptySite loginAndWrite ∧
      ¬Since (WebSystem.step sampleCrates) (Grants sampleCrates sampleToken 2592000)
        (Revokes sampleCrates sampleToken) emptySite loginAndWrite := by
  have htime : Always (WebSystem.step sampleCrates) TimeGoesOn emptySite loginAndWrite := by
    decide +kernel
  constructor
  · exact (session_valid_iff sampleCrates _ _ exampleWeb 0 loginAndWrite htime sampleToken 2591999
      (by decide +kernel)).mp (by decide +kernel)
  · intro h
    have hvalid := (session_valid_iff sampleCrates _ _ exampleWeb 0 loginAndWrite htime sampleToken
      2592000 (by decide +kernel)).mpr h
    revert hvalid
    decide +kernel

/-- A visitor's sign-up, up to the statement that records it. -/
def visitorSignsUp : List WebStep :=
  [.channels [⟨"email", .email, .ok⟩],
    .arrive (siteRequest (.visit (.subscribe "channel=email&address=reader%40example.org&all=on"
      (fun _ => sampleKey) true)) none)] ++
  List.replicate 6 (.move 0 false)

/-- The same site, with pages that everybody may read. -/
def openSite : WebSystem :=
  .initial (.initial .empty quickConfig) ⟨.empty, .empty⟩ { exampleWeb with protectRead := false } 0

/-- **Every page behind a guard goes back to a login, or to a config that opens it.** -/
theorem pages_authorised (cx : WebCrates) (world : World) (upkeep : Upkeep) (web : WebConfig)
    (clock : ℤ) (past : List WebStep) (i : ℕ) (r : Serving)
    (hr : (run (WebSystem.step cx) (.initial world upkeep web clock) past).requests[i]? = some r)
    (hpage : r.reply = some .page) :
    (∃ guard web', r.arrival.request.call = .page guard ∧ web'.opens cx r.arrival.request ∧
      ReadConfig cx (.initial world upkeep web clock) i web' past) ∨
    HasSession cx (.initial world upkeep web clock) i r.arrival past := by
  obtain ⟨g, hruns, hhistory⟩ :=
    staged_run cx (.initial world upkeep web clock) rfl past i r hr
  have hjob : r.job = .done .page := by
    rw [Serving.reply] at hpage
    split at hpage
    · rename_i reply hdone
      rw [hdone, Option.some.inj hpage]
    · exact absurd hpage nofun
  rw [hjob] at hruns
  rcases hruns rfl with rfl | ⟨guard, web', hcall, rfl, hopens⟩
  · exact .inr (hasSession_of_history rfl rfl hhistory)
  · exact .inl ⟨guard, web', hcall, hopens, hhistory⟩

/-- A login, and the page of the operator. -/
def loginAndManage : List WebStep :=
  [.arrive (siteRequest (.login "changemechangeme" sampleToken) none),
    .move 0 false, .move 0 false, .move 0 false, .tick 60,
    .arrive (siteRequest .manage (some sampleToken)), .move 1 false, .move 1 false]

theorem pages_authorised_manage : ∃ r : Serving,
    (run (WebSystem.step sampleCrates) emptySite loginAndManage).requests[1]? = some r ∧
    ((∃ guard web', r.arrival.request.call = .page guard ∧
      web'.opens sampleCrates r.arrival.request ∧
      ReadConfig sampleCrates emptySite 1 web' loginAndManage) ∨
    HasSession sampleCrates emptySite 1 r.arrival loginAndManage) := by
  have hreply : ((run (WebSystem.step sampleCrates) emptySite loginAndManage).requests[1]?).bind
      Serving.reply = some .page := by decide +kernel
  obtain ⟨r, hr, hpage⟩ := Option.bind_eq_some_iff.mp hreply
  exact ⟨r, hr, pages_authorised sampleCrates _ _ exampleWeb 0 loginAndManage 1 r hr hpage⟩

end Dunlin

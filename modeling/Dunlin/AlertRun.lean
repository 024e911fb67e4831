import Dunlin.AlertSystem

/-!
# What the programs of the engine do

The programs of `Alert` and `Operator`, read once. Each statement gets its rule for `wp` and
`wpOk`. For the fault-free run the result of each program is then written down as a function
(`Store.opened`, `handled`, `forgotten`, …), and the rule for the program says that this function
is its result. Later proofs use these rules and the functions, and never unfold a program.

A machine opens, recovers or stays as it is, and these three exclude each other (`onResult_of_opens`
and the two next to it). Everything the engine does after a result is one of three programs, so the
functions are split the same way.

## Main results

* `wpOk_handle`, `store_handled`, `machines_handled` — `handle` when nothing fails
* `wpOk_forgetUnmonitored` — the reconciliation when nothing fails
* `onResult_of_opens`, `onResult_of_recovers`, `onResult_of_stays` — the machine, by cases
-/

namespace Dunlin

open Lib

namespace World

variable (w : World) (f g : Store → Store)

@[simp] theorem store_onStore : (w.onStore f).store = f w.store := rfl

@[simp] theorem engine_onStore : (w.onStore f).engine = w.engine := rfl

@[simp] theorem running_onStore : (w.onStore f).running = w.running := rfl

@[simp] theorem sent_onStore : (w.onStore f).sent = w.sent := rfl

@[simp] theorem onStore_onStore : (w.onStore f).onStore g = w.onStore fun s => g (f s) := rfl

@[simp] theorem onStore_id : (w.onStore fun s => s) = w := rfl

end World

/-! ### Statements -/

section Statements

variable {α : Type} {w : World} {id ts : ℤ} {state : IncidentState} {text : String} {auto : Bool}

@[simp] theorem wp_statement {Q : Option Unit → World → Prop} (f : Store → Store) :
    (statement f).wp Q w ↔ Q (some ()) (w.onStore f) ∧ Q none w := Iff.rfl

@[simp] theorem wpOk_statement {Q : Option Unit → World → Prop} (f : Store → Store) :
    (statement f).wpOk Q w ↔ Q (some ()) (w.onStore f) := Iff.rfl

@[simp] theorem wp_select {Q : Option α → World → Prop} (f : Store → α) :
    (select f).wp Q w ↔ Q (some (f w.store)) w ∧ Q none w := Iff.rfl

@[simp] theorem wpOk_select {Q : Option α → World → Prop} (f : Store → α) :
    (select f).wpOk Q w ↔ Q (some (f w.store)) w := Iff.rfl

@[simp] theorem wp_createIncident {Q : Option ℤ → World → Prop} (component title : String)
    (impact : State) :
    (createIncident component title impact state auto ts).wp Q w ↔
      Q (some w.store.incidents.next)
        (w.onStore (·.createIncident component title impact state auto ts)) ∧ Q none w := Iff.rfl

@[simp] theorem wpOk_createIncident {Q : Option ℤ → World → Prop} (component title : String)
    (impact : State) :
    (createIncident component title impact state auto ts).wpOk Q w ↔
      Q (some w.store.incidents.next)
        (w.onStore (·.createIncident component title impact state auto ts)) := Iff.rfl

variable {Q : Option Unit → World → Prop}

theorem wp_addUpdate (h : (w.store.incident id).isSome) :
    (addUpdate id ts state text auto).wp Q w ↔
      Q (some ()) (w.onStore (·.addUpdate id ts state text auto)) ∧ Q none w := by
  simp [addUpdate, h]

theorem wpOk_addUpdate (h : (w.store.incident id).isSome) :
    (addUpdate id ts state text auto).wpOk Q w ↔
      Q (some ()) (w.onStore (·.addUpdate id ts state text auto)) := by
  simp [addUpdate, h, Prog.wpOk]

/-- The foreign key rejects an entry for an incident that does not exist. -/
theorem wp_addUpdate_of_none (h : w.store.incident id = none) :
    (addUpdate id ts state text auto).wp Q w ↔ Q none w := by
  simp [addUpdate, h]

theorem wpOk_addUpdate_of_none (h : w.store.incident id = none) :
    (addUpdate id ts state text auto).wpOk Q w ↔ Q none w := by
  simp [addUpdate, h, Prog.wpOk]

end Statements

/-! ### Publishing -/

/-- The tables after `publishIncident`. -/
def Store.publishIncident (s : Store) (cfg : Config) (id : ℤ) (change : IncidentChange)
    (text : String) (now : ℤ) : Store :=
  match s.incident id with
  | some i => if i.quiet then s else s.publish cfg (change.event (incidentEvent cfg i text)) now
  | none => s

theorem Store.publish_of_disabled {cfg : Config} (h : cfg.subscriptions.enabled = false)
    (s : Store) (event : SubscriberEvent) (now : ℤ) : s.publish cfg event now = s := by
  simp [Store.publish, Subs.publish, h]

@[simp] theorem Store.incidents_publish (s : Store) (cfg : Config) (event : SubscriberEvent)
    (now : ℤ) : (s.publish cfg event now).incidents = s.incidents := rfl

@[simp] theorem Store.updates_publish (s : Store) (cfg : Config) (event : SubscriberEvent)
    (now : ℤ) : (s.publish cfg event now).updates = s.updates := rfl

section Publish

variable {cfg : Config} {id now : ℤ} {change : IncidentChange} {text : String} {s : Store}

@[simp] theorem Store.incidents_publishIncident :
    (s.publishIncident cfg id change text now).incidents = s.incidents := by
  rw [Store.publishIncident]
  split
  · split <;> rfl
  · rfl

@[simp] theorem Store.updates_publishIncident :
    (s.publishIncident cfg id change text now).updates = s.updates := by
  rw [Store.publishIncident]
  split
  · split <;> rfl
  · rfl

theorem Store.publishIncident_of_disabled (h : cfg.subscriptions.enabled = false) :
    s.publishIncident cfg id change text now = s := by
  rw [Store.publishIncident]
  split
  · split
    · rfl
    · exact Store.publish_of_disabled h _ _ _
  · rfl

/-- What publishing queues is about the incident it was asked to publish. -/
theorem Store.mem_outbox_publishIncident {o : OutboxRow}
    (h : o ∈ (s.publishIncident cfg id change text now).subs.outbox.rows) :
    o ∈ s.subs.outbox.rows ∨ ∃ i, s.incident id = some i ∧
      o.payload = .json (change.event (incidentEvent cfg i text)) := by
  unfold Store.publishIncident at h
  split at h
  · rename_i i hi
    split at h
    · exact .inl h
    · unfold Store.publish Subs.publish at h
      split at h
      · exact .inl h
      · refine (Table.mem_insertMany h).imp_right ?_
        rintro ⟨r, -, n, -, rfl⟩
        exact ⟨i, hi, rfl⟩
  · exact .inl h

variable {w : World} {Q : Option Unit → World → Prop}

/-- Publishing succeeds, and either queues the messages or queues nothing. -/
theorem wp_publishIncident :
    (publishIncident cfg id change text now).wp Q w ↔
      Q (some ()) (w.onStore (·.publishIncident cfg id change text now)) ∧ Q (some ()) w := by
  rw [publishIncident]
  cases he : cfg.subscriptions.enabled with
  | false => simp [World.onStore, Store.publishIncident_of_disabled he]
  | true =>
    cases hi : w.store.incident id with
    | none => simp [hi, World.onStore, Store.publishIncident]
    | some i =>
      cases hq : i.quiet <;>
        simp [hi, hq, World.onStore, Store.publishIncident, Store.isQuiet]

@[simp] theorem wpOk_publishIncident :
    (publishIncident cfg id change text now).wpOk Q w ↔
      Q (some ()) (w.onStore (·.publishIncident cfg id change text now)) := by
  rw [publishIncident]
  cases he : cfg.subscriptions.enabled with
  | false => simp [World.onStore, Store.publishIncident_of_disabled he]
  | true =>
    cases hi : w.store.incident id with
    | none => simp [hi, World.onStore, Store.publishIncident]
    | some i =>
      cases hq : i.quiet <;> simp [hi, hq, World.onStore, Store.publishIncident, Store.isQuiet]

end Publish

/-! ### The machine of one check -/

namespace CheckMachine

/-- The result makes the machine open an incident. -/
def opens (m : CheckMachine) (check : CheckConfig) (ok : Bool) : Prop :=
  ok = false ∧ m.state = .up ∧ check.failuresToOpen ≤ bump m.failures

/-- The result takes the machine from down to up. -/
def recovers (m : CheckMachine) (check : CheckConfig) (ok : Bool) : Prop :=
  ok = true ∧ m.state = .down ∧ check.successesToResolve ≤ bump m.successes

instance (m : CheckMachine) (check : CheckConfig) (ok : Bool) : Decidable (m.opens check ok) :=
  inferInstanceAs (Decidable (_ ∧ _ ∧ _))

instance (m : CheckMachine) (check : CheckConfig) (ok : Bool) : Decidable (m.recovers check ok) :=
  inferInstanceAs (Decidable (_ ∧ _ ∧ _))

variable {m : CheckMachine} {check : CheckConfig} {ok : Bool}

theorem not_opens_of_recovers (h : m.recovers check ok) : ¬m.opens check ok := fun ho => by
  rw [h.1] at ho
  exact absurd ho.1 (by decide)

theorem onResult_of_opens (h : m.opens check ok) (now : ℤ) :
    m.onResult check ok now =
      ({ m with
          state := .down
          failures := bump m.failures
          successes := 0
          lastReminder := some now }, .open) := by
  obtain ⟨rfl, hup, hn⟩ := h
  simp [onResult, hup, hn]

theorem onResult_of_recovers (h : m.recovers check ok) (now : ℤ) :
    m.onResult check ok now =
      ({ m with
          state := .up
          failures := 0
          successes := 0
          lastReminder := none
          incidentId := none }, (m.incidentId.map Transition.resolve).getD .nothing) := by
  obtain ⟨rfl, hdown, hn⟩ := h
  cases hid : m.incidentId <;> simp [onResult, hdown, hn, hid]

/-- Otherwise the machine keeps its health and its incident, and at most sends a reminder. -/
theorem onResult_of_stays (ho : ¬m.opens check ok) (hr : ¬m.recovers check ok) (now : ℤ) :
    (m.onResult check ok now).1.state = m.state ∧
      (m.onResult check ok now).1.incidentId = m.incidentId ∧
      ((m.onResult check ok now).2 = .nothing ∨
        ∃ id, m.incidentId = some id ∧ m.state = .down ∧ ok = false ∧
          (m.onResult check ok now).2 = .remind id) := by
  rw [onResult]
  cases ok with
  | true =>
    have hn : ¬(m.state = .down ∧ bump m.successes ≥ check.successesToResolve) :=
      fun h => hr ⟨rfl, h.1, h.2⟩
    simp [hn]
  | false =>
    cases hs : m.state with
    | up =>
      have hn : ¬bump m.failures ≥ check.failuresToOpen := fun h => ho ⟨rfl, hs, h⟩
      simp [hn]
    | down =>
      simp only [Bool.false_eq_true, ↓reduceIte, reduceCtorEq]
      split
      · cases hid : m.incidentId <;> simp
      · simp

/-- A result never makes a machine point at another incident. -/
theorem incidentId_onResult {now id : ℤ} (h : (m.onResult check ok now).1.incidentId = some id) :
    m.incidentId = some id := by
  by_cases ho : m.opens check ok
  · simpa [onResult_of_opens ho] using h
  by_cases hr : m.recovers check ok
  · simp [onResult_of_recovers hr] at h
  · rwa [(onResult_of_stays ho hr now).2.1] at h

/-- A machine that points at nothing while it is up goes on like that. -/
theorem incidentId_of_up (hm : m.state = .up → m.incidentId = none) {now : ℤ}
    (h : (m.onResult check ok now).1.state = .up) :
    (m.onResult check ok now).1.incidentId = none := by
  by_cases ho : m.opens check ok
  · simp [onResult_of_opens ho] at h
  by_cases hr : m.recovers check ok
  · simp [onResult_of_recovers hr]
  · obtain ⟨hstate, hid, -⟩ := onResult_of_stays ho hr now
    rw [hid]
    exact hm (hstate ▸ h)

/-- Only the machine's own incident is resolved. -/
theorem incidentId_of_resolve {now id : ℤ} (h : (m.onResult check ok now).2 = .resolve id) :
    m.incidentId = some id := by
  by_cases ho : m.opens check ok
  · simp [onResult_of_opens ho] at h
  by_cases hr : m.recovers check ok
  · rw [onResult_of_recovers hr] at h
    cases hid : m.incidentId with
    | none => simp [hid] at h
    | some id' => simpa [hid] using h
  · rcases (onResult_of_stays ho hr now).2.2 with h' | ⟨id', -, -, -, h'⟩ <;>
      simp [h'] at h

/-- Only the machine's own incident is brought up again. -/
theorem incidentId_of_remind {now id : ℤ} (h : (m.onResult check ok now).2 = .remind id) :
    m.incidentId = some id := by
  by_cases ho : m.opens check ok
  · simp [onResult_of_opens ho] at h
  by_cases hr : m.recovers check ok
  · rw [onResult_of_recovers hr] at h
    cases hid : m.incidentId <;> simp [hid] at h
  · rcases (onResult_of_stays ho hr now).2.2 with h' | ⟨id', hid, -, -, h'⟩
    · simp [h'] at h
    · rw [h', Transition.remind.injEq] at h
      rw [hid, h]

end CheckMachine

/-! ### One probe outcome -/

/-- The tables after `openNew`. -/
def Store.opened (pf : Platform) (subscriptions : Option Config) (input : AlertInput) (s : Store) :
    Store :=
  let id := s.incidents.next
  let text := sentenceCase pf (input.message.getD "check failed")
  let s := s.createIncident input.component s!"{input.check.name} is down" .majorOutage
    .investigating true input.now
  let s := s.addUpdate id input.now .investigating text true
  if input.muted then s.markQuiet id
  else
    match subscriptions with
    | some cfg => s.publishIncident cfg id .opened text input.now
    | none => s

/-- The tables after `onResolve`. -/
def Store.recovered (subscriptions : Option Config) (input : AlertInput) (id : ℤ) (s : Store) :
    Store :=
  let text := "Automatically resolved after recovery."
  let s := (s.resolveIncident id input.now).addUpdate id input.now .resolved text true
  match subscriptions with
  | some cfg => s.publishIncident cfg id .resolved text input.now
  | none => s

theorem Store.incident_createIncident (s : Store) (component title : String) (impact : State)
    (state : IncidentState) (auto : Bool) (ts : ℤ) :
    ((s.createIncident component title impact state auto ts).incident s.incidents.next).isSome := by
  refine Option.isSome_iff_exists.mpr
    ⟨Store.newIncident component title impact state auto ts s.incidents.next, ?_⟩
  rw [Store.incident_eq_some_iff, Store.mem_createIncident]
  exact ⟨.inr rfl, rfl⟩

namespace AlertEngine

/-- A notification is sent unless it is muted. -/
def notified (muted : Bool) (n : Notification) (w : World) : World :=
  if muted then w else { w with sent := w.sent ++ [linkTo w.engine.publicUrl n] }

/-- No incident of this id is open. -/
def isClosed (s : Store) (id : ℤ) : Bool := (s.incident id).all (·.resolvedAt.isSome)

/-- The world after `dropClosed`. -/
def dropped (checkId : String) (w : World) : World :=
  if (w.held checkId).any (isClosed w.store) then w.setMachine checkId {} else w

/-- The machine a result is fed to: a fresh one when the machine's incident is closed. -/
def effective (w : World) (checkId : String) : CheckMachine := (dropped checkId w).machine checkId

/-- The world after `advance`. -/
def advanced (input : AlertInput) (w : World) : World :=
  w.setMachine input.check.id ((w.machine input.check.id).onResult input.check input.ok input.now).1

variable (pf : Platform)

/-- The world after `onOpen`. -/
def opened (input : AlertInput) (w : World) : World :=
  match w.store.activeIncidentFor pf input.component with
  | some i =>
    notified input.muted (downNotification input i.id) (point input.check.id i.id w)
  | none =>
    let id := w.store.incidents.next
    notified input.muted (downNotification input id) <|
      point input.check.id id (w.onStore (Store.opened pf w.engine.subscriptions input))

/-- The world after `onResolve` of an incident that exists. -/
def recovered (input : AlertInput) (id : ℤ) (w : World) : World :=
  notified input.muted (upNotification input id)
    (w.onStore (Store.recovered w.engine.subscriptions input id))

/-- The world after `handle`. -/
def handled (input : AlertInput) (w : World) : World :=
  let w := dropped input.check.id w
  let w' := advanced input w
  match ((w.machine input.check.id).onResult input.check input.ok input.now).2 with
  | .nothing => w'
  | .open => opened pf input w'
  | .resolve id => recovered input id w'
  | .remind id => notified input.muted (reminderNotification input id) w'

variable {pf} {input : AlertInput} {w : World} {id : ℤ} {checkId : String}
  {Q : Option Unit → World → Prop}

@[simp] theorem wp_notify (n : Notification) :
    (notify n).wp Q w ↔ Q (some ()) (notified false n w) := Iff.rfl

@[simp] theorem wpOk_notify (n : Notification) :
    (notify n).wpOk Q w ↔ Q (some ()) (notified false n w) := Iff.rfl

theorem wp_dropClosed :
    (dropClosed checkId).wp Q w ↔
      Q (some ()) (dropped checkId w) ∧ ((w.held checkId).isSome → Q none w) := by
  rw [dropClosed, dropped]
  cases hh : w.held checkId with
  | none => simp [hh]
  | some id => cases hc : isClosed w.store id <;> simp_all [isClosed]

theorem wpOk_dropClosed :
    (dropClosed checkId).wpOk Q w ↔ Q (some ()) (dropped checkId w) := by
  rw [dropClosed, dropped]
  cases hh : w.held checkId with
  | none => simp [hh]
  | some id => cases hc : isClosed w.store id <;> simp_all [isClosed]

@[simp] theorem wp_advance {Q : Option Transition → World → Prop} :
    (advance input).wp Q w ↔
      Q (some ((w.machine input.check.id).onResult input.check input.ok input.now).2)
        (advanced input w) := Iff.rfl

@[simp] theorem wpOk_advance {Q : Option Transition → World → Prop} :
    (advance input).wpOk Q w ↔
      Q (some ((w.machine input.check.id).onResult input.check input.ok input.now).2)
        (advanced input w) := Iff.rfl

theorem wpOk_openNew {Q : Option ℤ → World → Prop} :
    (openNew pf input).wpOk Q w ↔
      Q (some w.store.incidents.next)
        (w.onStore (Store.opened pf w.engine.subscriptions input)) := by
  unfold openNew Store.opened
  simp only [Prog.bind_eq, Prog.wpOk_bind, wpOk_createIncident, Prog.afterOk_some]
  rw [wpOk_addUpdate (Store.incident_createIncident w.store _ _ _ _ _ _)]
  cases hm : input.muted with
  | true => simp [World.onStore]
  | false => cases hs : w.engine.subscriptions <;> simp [World.onStore, hs]

theorem wpOk_onOpen : (onOpen pf input).wpOk Q w ↔ Q (some ()) (opened pf input w) := by
  rw [onOpen, opened]
  simp only [Prog.bind_eq, Prog.wpOk_bind, wpOk_select, Prog.afterOk_some]
  cases w.store.activeIncidentFor pf input.component with
  | some i => cases input.muted <;> simp [notified]
  | none =>
    simp only [Prog.wpOk_bind, wpOk_openNew, Prog.afterOk_some]
    cases input.muted <;> simp [notified]

theorem wpOk_onResolve (h : (w.store.incident id).isSome) :
    (onResolve input id).wpOk Q w ↔ Q (some ()) (recovered input id w) := by
  have hres : (((w.onStore (·.resolveIncident id input.now)).store).incident id).isSome := by
    obtain ⟨i, hi⟩ := Option.isSome_iff_exists.mp h
    rw [Store.incident_eq_some_iff] at hi
    refine Option.isSome_iff_exists.mpr ⟨i.closed input.now, ?_⟩
    rw [Store.incident_eq_some_iff, World.store_onStore, Store.mem_resolveIncident]
    exact ⟨⟨i, hi.1, if_pos hi.2⟩, hi.2⟩
  unfold onResolve recovered Store.recovered
  simp only [Prog.bind_eq, Prog.wpOk_bind, wpOk_statement, Prog.afterOk_some]
  rw [wpOk_addUpdate hres]
  cases hs : w.engine.subscriptions <;> cases input.muted <;>
    simp [World.onStore, notified, hs]

/-- A machine's incident that was not dropped exists and is open. -/
theorem exists_of_effective (h : (effective w checkId).incidentId = some id) :
    ∃ i ∈ w.store.incidents.rows, i.id = id ∧ i.isActive ∧ dropped checkId w = w ∧
      w.held checkId = some id := by
  unfold effective dropped at h
  split at h
  · simp [World.machine, World.setMachine] at h
  · rename_i hc
    have hheld : w.held checkId = some id := by
      cases hm : w.engine.machines checkId with
      | none => simp [World.machine, hm] at h
      | some m => simpa [World.held, World.machine, hm] using h
    have hopen : isClosed w.store id = false := by simpa [hheld] using hc
    cases hi : w.store.incident id with
    | none => simp [isClosed, hi] at hopen
    | some i =>
      obtain ⟨hmem, hid⟩ := Store.incident_eq_some_iff.mp hi
      refine ⟨i, hmem, hid, ?_, ?_, hheld⟩
      · simpa [isClosed, hi, Incident.isActive] using hopen
      · rw [dropped, if_neg hc]

/-- A machine that points at an open incident is kept. -/
theorem effective_of_open {m : CheckMachine} {i : Incident}
    (hm : w.engine.machines checkId = some m) (hid : m.incidentId = some i.id)
    (hi : i ∈ w.store.incidents.rows) (hact : i.isActive) : effective w checkId = m := by
  have hheld : w.held checkId = some i.id := by rw [World.held, hm, Option.bind_some, hid]
  have hopen : isClosed w.store i.id = false := by
    have hfind : w.store.incident i.id = some i := Store.incident_eq_some_iff.mpr ⟨hi, rfl⟩
    simpa [isClosed, hfind, Incident.isActive] using hact
  rw [effective, dropped, if_neg (by simp [hheld, hopen]), World.machine, hm, Option.getD_some]

/-- **The fault-free run of `handle`.** -/
theorem wpOk_handle :
    (handle pf input).wpOk Q w ↔ Q (some ()) (handled pf input w) := by
  unfold handle handled
  simp only [Prog.bind_eq, Prog.wpOk_bind, wpOk_dropClosed, Prog.afterOk_some, wpOk_advance]
  cases ht : (((dropped input.check.id w).machine input.check.id).onResult input.check input.ok
    input.now).2 with
  | nothing => simp
  | «open» => exact wpOk_onOpen
  | resolve id =>
    obtain ⟨i, hi, rfl, -, hdrop, -⟩ :=
      exists_of_effective (CheckMachine.incidentId_of_resolve ht)
    refine wpOk_onResolve (Option.isSome_iff_exists.mpr ⟨i, ?_⟩)
    rw [hdrop]
    exact Store.incident_eq_some_iff.mpr ⟨hi, rfl⟩
  | remind id =>
    unfold onRemind
    cases input.muted <;> simp [notified]

@[simp] theorem store_setMachine (m : CheckMachine) (w : World) :
    (w.setMachine checkId m).store = w.store := rfl

@[simp] theorem engine_subscriptions_setMachine (m : CheckMachine) (w : World) :
    (w.setMachine checkId m).engine.subscriptions = w.engine.subscriptions := rfl

@[simp] theorem machines_setMachine (m : CheckMachine) (w : World) (c : String) :
    (w.setMachine checkId m).engine.machines c =
      if c = checkId then some m else w.engine.machines c := by
  simp [World.setMachine, Function.update_apply]

@[simp] theorem store_notified (muted : Bool) (n : Notification) (w : World) :
    (notified muted n w).store = w.store := by
  cases muted <;> rfl

@[simp] theorem engine_notified (muted : Bool) (n : Notification) (w : World) :
    (notified muted n w).engine = w.engine := by
  cases muted <;> rfl

@[simp] theorem running_notified (muted : Bool) (n : Notification) (w : World) :
    (notified muted n w).running = w.running := by
  cases muted <;> rfl

@[simp] theorem store_point (id : ℤ) (w : World) : (point checkId id w).store = w.store := by
  rw [point]
  split <;> rfl

@[simp] theorem running_point (id : ℤ) (w : World) :
    (point checkId id w).running = w.running := by
  rw [point]
  split <;> rfl

@[simp] theorem sent_point (id : ℤ) (w : World) : (point checkId id w).sent = w.sent := by
  rw [point]
  split <;> rfl

@[simp] theorem subscriptions_point (id : ℤ) (w : World) :
    (point checkId id w).engine.subscriptions = w.engine.subscriptions := by
  rw [point]
  split <;> rfl

theorem machines_point (id : ℤ) (w : World) (c : String) :
    (point checkId id w).engine.machines c =
      if c = checkId then (w.engine.machines c).map fun m => { m with incidentId := some id }
      else w.engine.machines c := by
  rw [point]
  by_cases hc : c = checkId
  · subst hc
    cases h : w.engine.machines c <;> simp [h]
  · cases h : w.engine.machines checkId <;> simp [hc]

@[simp] theorem store_dropped (w : World) : (dropped checkId w).store = w.store := by
  rw [dropped]
  split <;> rfl

@[simp] theorem running_dropped (w : World) : (dropped checkId w).running = w.running := by
  rw [dropped]
  split <;> rfl

@[simp] theorem subscriptions_dropped (w : World) :
    (dropped checkId w).engine.subscriptions = w.engine.subscriptions := by
  rw [dropped]
  split <;> rfl

theorem machines_dropped (w : World) {c : String} (h : c ≠ checkId) :
    (dropped checkId w).engine.machines c = w.engine.machines c := by
  rw [dropped]
  split
  · rw [machines_setMachine, if_neg h]
  · rfl

/-- The incident a machine that opens is pointed at: the component's open one, or a new one. -/
def target (pf : Platform) (w : World) (input : AlertInput) : ℤ :=
  ((w.store.activeIncidentFor pf input.component).map (·.id)).getD w.store.incidents.next

/-- The machine a result leaves. -/
def fed (pf : Platform) (w : World) (input : AlertInput) : CheckMachine :=
  let m := ((effective w input.check.id).onResult input.check input.ok input.now).1
  if (effective w input.check.id).opens input.check input.ok then
    { m with incidentId := some (target pf w input) }
  else m

/-- The tables a result leaves. -/
def fedStore (pf : Platform) (w : World) (input : AlertInput) : Store :=
  if (effective w input.check.id).opens input.check input.ok then
    match w.store.activeIncidentFor pf input.component with
    | some _ => w.store
    | none => w.store.opened pf w.engine.subscriptions input
  else if (effective w input.check.id).recovers input.check input.ok then
    match (effective w input.check.id).incidentId with
    | some id => w.store.recovered w.engine.subscriptions input id
    | none => w.store
  else w.store

section Handled

variable (pf w input)

@[simp] theorem store_advanced : (advanced input w).store = w.store := rfl

@[simp] theorem running_advanced : (advanced input w).running = w.running := rfl

@[simp] theorem subscriptions_advanced :
    (advanced input w).engine.subscriptions = w.engine.subscriptions := rfl

/-- The world after the result has been fed to the machine. -/
def stepped : World := advanced input (dropped input.check.id w)

theorem handled_of_opens (h : (effective w input.check.id).opens input.check input.ok) :
    handled pf input w = opened pf input (stepped input w) := by
  have ht := congrArg Prod.snd (CheckMachine.onResult_of_opens h input.now)
  simp only [effective] at ht
  simp only [handled, ht]
  rfl

theorem handled_of_recovers (h : (effective w input.check.id).recovers input.check input.ok) :
    handled pf input w =
      match (effective w input.check.id).incidentId with
      | some id => recovered input id (stepped input w)
      | none => stepped input w := by
  have ht := congrArg Prod.snd (CheckMachine.onResult_of_recovers h input.now)
  simp only [effective] at ht ⊢
  cases hid : ((dropped input.check.id w).machine input.check.id).incidentId <;>
    simp only [hid, Option.map_none, Option.map_some, Option.getD_none, Option.getD_some] at ht <;>
    simp only [handled, ht] <;> rfl

theorem handled_of_stays (ho : ¬(effective w input.check.id).opens input.check input.ok)
    (hr : ¬(effective w input.check.id).recovers input.check input.ok) :
    handled pf input w = stepped input w ∨
      ∃ id, (effective w input.check.id).incidentId = some id ∧
        handled pf input w =
          notified input.muted (reminderNotification input id) (stepped input w) := by
  rcases (CheckMachine.onResult_of_stays ho hr input.now).2.2 with
    ht | ⟨id, hid, -, -, ht⟩
  · simp only [effective] at ht
    simp only [handled, ht]
    exact .inl rfl
  · refine .inr ⟨id, hid, ?_⟩
    simp only [effective] at ht
    simp only [handled, ht]
    rfl

theorem store_stepped : (stepped input w).store = w.store := by
  simp [stepped]

theorem subscriptions_stepped :
    (stepped input w).engine.subscriptions = w.engine.subscriptions := by
  simp [stepped]

theorem running_stepped : (stepped input w).running = w.running := by
  simp [stepped]

theorem sent_stepped : (stepped input w).sent = w.sent := by
  simp only [stepped, advanced, World.setMachine, dropped]
  split <;> rfl

theorem machines_stepped (c : String) :
    (stepped input w).engine.machines c =
      if c = input.check.id then
        some ((effective w input.check.id).onResult input.check input.ok input.now).1
      else w.engine.machines c := by
  rw [stepped, advanced]
  rw [machines_setMachine]
  by_cases hc : c = input.check.id
  · rw [if_pos hc, if_pos hc]
    rfl
  · rw [if_neg hc, if_neg hc, machines_dropped w hc]

/-- **What `handle` does to the tables.** -/
theorem store_handled : (handled pf input w).store = fedStore pf w input := by
  rw [fedStore]
  by_cases ho : (effective w input.check.id).opens input.check input.ok
  · rw [if_pos ho, handled_of_opens pf input w ho, opened, store_stepped]
    cases w.store.activeIncidentFor pf input.component with
    | some i => simp [store_stepped]
    | none => simp [store_stepped, subscriptions_stepped]
  rw [if_neg ho]
  by_cases hr : (effective w input.check.id).recovers input.check input.ok
  · rw [if_pos hr, handled_of_recovers pf input w hr]
    cases (effective w input.check.id).incidentId with
    | some id => simp [recovered, store_stepped, subscriptions_stepped]
    | none => exact store_stepped input w
  · rw [if_neg hr]
    rcases handled_of_stays pf input w ho hr with h | ⟨id, -, h⟩ <;>
      simp [h, store_stepped]

/-- **What `handle` does to the machines.** -/
theorem machines_handled (c : String) :
    (handled pf input w).engine.machines c =
      if c = input.check.id then some (fed pf w input) else w.engine.machines c := by
  rw [fed]
  by_cases ho : (effective w input.check.id).opens input.check input.ok
  · rw [if_pos ho, handled_of_opens pf input w ho, opened, store_stepped]
    rw [target]
    cases w.store.activeIncidentFor pf input.component <;>
      simp only [engine_notified, machines_point, World.engine_onStore, machines_stepped] <;>
      by_cases hc : c = input.check.id <;> simp [hc]
  rw [if_neg ho]
  by_cases hr : (effective w input.check.id).recovers input.check input.ok
  · rw [handled_of_recovers pf input w hr]
    cases (effective w input.check.id).incidentId with
    | some id =>
      simp only [recovered, engine_notified, World.engine_onStore]
      exact machines_stepped input w c
    | none => exact machines_stepped input w c
  · rcases handled_of_stays pf input w ho hr with h | ⟨id, -, h⟩
    · rw [h]
      exact machines_stepped input w c
    · rw [h, engine_notified]
      exact machines_stepped input w c

/-- After `handle` a machine points where it pointed before, or at the incident it opens. -/
theorem held_handled {c : String} {id : ℤ} (h : (handled pf input w).held c = some id) :
    c = input.check.id ∧ (effective w c).opens input.check input.ok ∧ id = target pf w input ∨
      w.held c = some id := by
  rw [World.held, machines_handled] at h
  by_cases hc : c = input.check.id
  · subst hc
    rw [if_pos rfl, Option.bind_some] at h
    unfold fed at h
    by_cases ho : (effective w input.check.id).opens input.check input.ok
    · rw [if_pos ho] at h
      exact .inl ⟨rfl, ho, (Option.some.inj h).symm⟩
    rw [if_neg ho] at h
    by_cases hr : (effective w input.check.id).recovers input.check input.ok
    · simp [CheckMachine.onResult_of_recovers hr] at h
    · rw [(CheckMachine.onResult_of_stays ho hr _).2.1] at h
      obtain ⟨i, -, -, -, -, hheld⟩ := exists_of_effective h
      exact .inr hheld
  · rw [if_neg hc] at h
    exact .inr h

theorem running_handled : (handled pf input w).running = w.running := by
  by_cases ho : (effective w input.check.id).opens input.check input.ok
  · rw [handled_of_opens pf input w ho, opened]
    split <;> simp [running_stepped]
  by_cases hr : (effective w input.check.id).recovers input.check input.ok
  · rw [handled_of_recovers pf input w hr]
    split <;> simp [recovered, running_stepped]
  · rcases handled_of_stays pf input w ho hr with h | ⟨id, -, h⟩ <;> simp [h, running_stepped]

end Handled

end AlertEngine

/-! ### Reconciling with a config -/

/-- An automatic incident that no check of `cfg` reports to any more. -/
def Config.abandons (cfg : Config) (i : Incident) : Bool := i.auto && !cfg.monitors i.component

/-- The timeline entry that closes an abandoned incident. -/
def forgetText (previous : Option Config) (i : Incident) : String :=
  let name := ((previous.bind (·.component i.component)).map (·.name)).getD i.component
  s!"Resolved: {name} is no longer monitored."

namespace Store

/-- The tables after `forgetIncident`. -/
def forgotOne (cfg : Config) (previous : Option Config) (now : ℤ) (s : Store) (i : Incident) :
    Store :=
  if cfg.abandons i then
    ((s.resolveIncident i.id now).addUpdate i.id now .resolved (forgetText previous i)
      true).publishIncident cfg i.id .resolved (forgetText previous i) now
  else s

/-- The tables after `forgetUnmonitored`. -/
def forgotten (pf : Platform) (cfg : Config) (previous : Option Config) (now : ℤ) (s : Store) :
    Store :=
  (s.activeIncidents pf).foldl (forgotOne cfg previous now) s

/-- The incidents `forgetUnmonitored` resolves. -/
def forgottenIds (pf : Platform) (cfg : Config) (s : Store) : List ℤ :=
  ((s.activeIncidents pf).filter cfg.abandons).map (·.id)

variable {pf : Platform} {cfg : Config} {previous : Option Config} {now : ℤ} {s : Store}
  {i : Incident} {id : ℤ} {l : List Incident}

theorem rows_forgotOne :
    (s.forgotOne cfg previous now i).incidents.rows =
      s.incidents.rows.map fun j => if cfg.abandons i ∧ j.id = i.id then j.closed now else j := by
  rw [forgotOne]
  split
  · rename_i h
    simp [h, addUpdate, resolveIncident, Table.update]
  · rename_i h
    simp [h]

/-- Going through a list of incidents closes the abandoned ones among them. -/
theorem rows_foldl_forgotOne (l : List Incident) (s : Store) :
    (l.foldl (forgotOne cfg previous now) s).incidents.rows =
      s.incidents.rows.map fun j =>
        if j.id ∈ (l.filter cfg.abandons).map (·.id) then j.closed now else j := by
  induction l generalizing s with
  | nil => simp
  | cons i l ih =>
    rw [List.foldl_cons, ih, rows_forgotOne, List.map_map]
    refine List.map_congr_left fun j _ => ?_
    by_cases ha : cfg.abandons i
    · rw [List.filter_cons_of_pos ha, List.map_cons]
      by_cases hj : j.id = i.id
      · simp [ha, hj, Incident.closed]
      · simp only [Function.comp_apply, hj, and_false, if_false, List.mem_cons, false_or]
    · rw [List.filter_cons_of_neg ha]
      simp only [Function.comp_apply, ha, false_and, if_false, Bool.false_eq_true]

theorem mem_forgottenIds (h : i ∈ s.incidents.rows) :
    i.id ∈ s.forgottenIds pf cfg ↔ i.isActive ∧ cfg.abandons i := by
  simp only [forgottenIds, List.mem_map, List.mem_filter, mem_activeIncidents]
  constructor
  · rintro ⟨j, ⟨⟨hj, hact⟩, hab⟩, hid⟩
    obtain rfl : j = i := Table.eq_of_id hj h hid
    exact ⟨hact, hab⟩
  · rintro ⟨hact, hab⟩
    exact ⟨i, ⟨⟨h, hact⟩, hab⟩, rfl⟩

/-- `forgetUnmonitored` closes the open incidents that are abandoned and leaves the rest alone. -/
theorem mem_forgotten :
    i ∈ (s.forgotten pf cfg previous now).incidents.rows ↔
      ∃ i₀ ∈ s.incidents.rows,
        (if i₀.isActive ∧ cfg.abandons i₀ then i₀.closed now else i₀) = i := by
  rw [forgotten, rows_foldl_forgotOne, List.mem_map]
  refine exists_congr fun i₀ => and_congr_right fun h => ?_
  rw [← forgottenIds]
  simp only [mem_forgottenIds h]

theorem exists_incident_iff : (s.incident id).isSome ↔ ∃ i ∈ s.incidents.rows, i.id = id := by
  rw [Option.isSome_iff_exists]
  simp only [incident_eq_some_iff]

theorem isSome_incident_resolveIncident {ts : ℤ} (h : (s.incident id).isSome) (id' : ℤ) :
    ((s.resolveIncident id' ts).incident id).isSome := by
  rw [exists_incident_iff] at h ⊢
  exact (Table.exists_id_update (Incident.id_closed ts)).mpr h

theorem isSome_incident_forgotOne (h : (s.incident id).isSome) :
    ((s.forgotOne cfg previous now i).incident id).isSome := by
  rw [exists_incident_iff] at h ⊢
  obtain ⟨j, hj, rfl⟩ := h
  rw [rows_forgotOne]
  refine ⟨_, List.mem_map_of_mem hj, ?_⟩
  split <;> rfl

end Store

namespace AlertEngine

variable {pf : Platform} {cfg : Config} {previous : Option Config} {now : ℤ} {w : World}

theorem wpOk_forgetIncident {Q : Option (List ℤ) → World → Prop} {i : Incident}
    (h : (w.store.incident i.id).isSome) (resolved : List ℤ) :
    (forgetIncident cfg previous now resolved i).wpOk Q w ↔
      Q (some (resolved ++ if cfg.abandons i then [i.id] else []))
        (w.onStore (·.forgotOne cfg previous now i)) := by
  rw [forgetIncident]
  by_cases ha : cfg.abandons i
  · have hn : (!i.auto || cfg.monitors i.component) = false := by
      simpa [Config.abandons] using ha
    simp only [hn, Bool.false_eq_true, ↓reduceIte, Prog.bind_eq, Prog.wpOk_bind, wpOk_statement,
      Prog.afterOk_some]
    rw [wpOk_addUpdate (Store.isSome_incident_resolveIncident h _)]
    simp [ha, Store.forgotOne, forgetText, World.onStore]
  · have hn : (!i.auto || cfg.monitors i.component) = true := by
      simpa [Config.abandons, Classical.or_iff_not_imp_left] using ha
    simp [hn, ha, Store.forgotOne]

theorem wpOk_forgetIncidents {Q : Option (List ℤ) → World → Prop} (l : List Incident)
    (h : ∀ i ∈ l, (w.store.incident i.id).isSome) (resolved : List ℤ) :
    (l.foldlM (forgetIncident cfg previous now) resolved).wpOk Q w ↔
      Q (some (resolved ++ (l.filter cfg.abandons).map (·.id)))
        (w.onStore fun s => l.foldl (Store.forgotOne cfg previous now) s) := by
  induction l generalizing w resolved with
  | nil => simp
  | cons i l ih =>
    rw [List.foldlM_cons, Prog.bind_eq, Prog.wpOk_bind,
      wpOk_forgetIncident (h i List.mem_cons_self), Prog.afterOk_some, ih]
    · by_cases ha : cfg.abandons i <;> simp [ha]
    · intro j hj
      exact Store.isSome_incident_forgotOne (h j (List.mem_cons_of_mem _ hj))

/-- **The fault-free run of `forgetUnmonitored`.** -/
theorem wpOk_forgetUnmonitored {Q : Option (List ℤ) → World → Prop} :
    (forgetUnmonitored pf cfg previous now).wpOk Q w ↔
      Q (some (w.store.forgottenIds pf cfg))
        (retain cfg (w.store.forgottenIds pf cfg)
          (w.onStore (·.forgotten pf cfg previous now))) := by
  have hex : ∀ i ∈ w.store.activeIncidents pf, (w.store.incident i.id).isSome := fun i hi =>
    Store.exists_incident_iff.mpr ⟨i, (Store.mem_activeIncidents.mp hi).1, rfl⟩
  rw [forgetUnmonitored]
  simp only [Prog.bind_eq, Prog.wpOk_bind, wpOk_select, Prog.afterOk_some]
  rw [wpOk_forgetIncidents _ hex]
  simp [Store.forgottenIds, World.onStore, Store.forgotten]

/-- The world after `resume`. -/
def resumedOne (pf : Platform) (cfg : Config) (w : World) (check : CheckConfig) : World :=
  match w.store.activeIncidentFor pf (cfg.incidentComponent check.id) with
  | some i => w.setMachine check.id (.resumed i.id)
  | none => w

theorem wpOk_resume {Q : Option Unit → World → Prop} {check : CheckConfig} :
    (resume pf cfg check).wpOk Q w ↔ Q (some ()) (resumedOne pf cfg w check) := by
  rw [resume, resumedOne]
  simp only [Prog.bind_eq, Prog.wpOk_bind, wpOk_select, Prog.afterOk_some]
  cases w.store.activeIncidentFor pf (cfg.incidentComponent check.id) <;> simp

theorem wpOk_resumes {Q : Option Unit → World → Prop} (checks : List CheckConfig) :
    (checks.foldlM (fun _ check => resume pf cfg check) ()).wpOk Q w ↔
      Q (some ()) (checks.foldl (resumedOne pf cfg) w) := by
  induction checks generalizing w with
  | nil => simp
  | cons check checks ih =>
    rw [List.foldlM_cons, Prog.bind_eq, Prog.wpOk_bind, wpOk_resume, Prog.afterOk_some, ih,
      List.foldl_cons]

theorem store_resumedOne (check : CheckConfig) : (resumedOne pf cfg w check).store = w.store := by
  rw [resumedOne]
  split <;> rfl

theorem frame_resumes (checks : List CheckConfig) (w : World) :
    (checks.foldl (resumedOne pf cfg) w).store = w.store ∧
      (checks.foldl (resumedOne pf cfg) w).running = w.running := by
  induction checks generalizing w with
  | nil => exact ⟨rfl, rfl⟩
  | cons check checks ih =>
    rw [List.foldl_cons, (ih _).1, (ih _).2]
    rw [resumedOne]
    split <;> exact ⟨rfl, rfl⟩

/-- Resuming points the machine of every check at the open incident of its component. -/
theorem machines_resumes (checks : List CheckConfig) (w : World) (checkId : String) :
    (checks.foldl (resumedOne pf cfg) w).engine.machines checkId =
      if checkId ∈ checks.map (·.id) then
        ((w.store.activeIncidentFor pf (cfg.incidentComponent checkId)).map
          fun i => CheckMachine.resumed i.id).or (w.engine.machines checkId)
      else w.engine.machines checkId := by
  induction checks generalizing w with
  | nil => simp
  | cons check checks ih =>
    rw [List.foldl_cons, ih, store_resumedOne]
    have hone : (resumedOne pf cfg w check).engine.machines checkId =
        if checkId = check.id then
          ((w.store.activeIncidentFor pf (cfg.incidentComponent checkId)).map
            fun i => CheckMachine.resumed i.id).or (w.engine.machines checkId)
        else w.engine.machines checkId := by
      rw [resumedOne]
      by_cases hid : checkId = check.id
      · subst hid
        cases w.store.activeIncidentFor pf (cfg.incidentComponent check.id) <;>
          simp [World.setMachine]
      · rw [if_neg hid]
        split
        · simp [World.setMachine, hid]
        · rfl
    rw [hone]
    by_cases hid : checkId = check.id
    · rw [if_pos hid, if_pos (show checkId ∈ (check :: checks).map (·.id) by simp [hid])]
      split
      · cases (w.store.activeIncidentFor pf (cfg.incidentComponent checkId)) <;> rfl
      · rfl
    · rw [if_neg hid, List.map_cons]
      simp only [List.mem_cons, hid, false_or]

end AlertEngine

/-! ### The operator -/

namespace Store

/-- The tables after `Operator.create`. -/
def operatorCreated (cfg : Config) (form : CreateIncidentForm) (now : ℤ) (s : Store) : Store :=
  let id := s.incidents.next
  let s := s.createIncident form.componentId form.title form.impactState .investigating false now
  (s.addUpdate id now .investigating form.text false).publishIncident cfg id .opened form.text now

/-- The tables after `Operator.update` of an incident that exists. -/
def operatorUpdated (cfg : Config) (id : ℤ) (form : UpdateForm) (now : ℤ) (s : Store) : Store :=
  let s := s.addUpdate id now form.incidentState form.message false
  let s := if form.incidentState = .resolved then s.resolveIncident id now
    else s.setIncidentState id form.incidentState
  s.publishIncident cfg id (changeFor form.incidentState) form.message now

/-- The tables after `Operator.resolve` of an incident that exists. -/
def operatorResolved (cfg : Config) (id now : ℤ) (s : Store) : Store :=
  let s := (s.resolveIncident id now).addUpdate id now .resolved "Resolved by operator." false
  s.publishIncident cfg id .resolved "Resolved by operator." now

/-- Resolving an incident that does not exist changes nothing. -/
theorem resolveIncident_of_none {s : Store} {id ts : ℤ} (h : s.incident id = none) :
    s.resolveIncident id ts = s := by
  have habsent : ∀ i ∈ s.incidents.rows, (i.id == id) = false := fun i hi =>
    beq_eq_false_iff_ne.mpr (incident_eq_none_iff.mp h i hi)
  rw [resolveIncident, Table.update_of_absent _ habsent]

end Store

section Steps

variable {pf : Platform} {cfg : Config} {now : ℤ} {w : World} {id : ℤ}

/-- The state a run leaves, from the rule of its program. -/
theorem state_run_of_wpOk {α : Type} {p : Prog World α} {w w' : World}
    (h : p.wpOk (fun _ w₁ => w₁ = w') w) : (p.run [] w).state = w' :=
  Prog.wpOk_iff_run.mp h

open AlertEngine

theorem step_handle (input : AlertInput) :
    step pf w (.handle input) = handled pf input w :=
  state_run_of_wpOk (wpOk_handle.mpr rfl)

theorem step_start :
    step pf w (.start cfg now) =
      cfg.checks.foldl (resumedOne pf cfg)
        (retain cfg (w.store.forgottenIds pf cfg)
          ((w.restarted cfg).onStore (·.forgotten pf cfg none now))) := by
  refine state_run_of_wpOk ?_
  rw [Op.prog, bootstrap]
  simp only [Prog.bind_eq, Prog.wpOk_bind, Prog.wpOk_modify, Prog.afterOk_some,
    wpOk_forgetUnmonitored, wpOk_resumes]
  rfl

theorem step_reload :
    step pf w (.reload cfg now) =
      { retain cfg (w.store.forgottenIds pf cfg)
          ((w.reloaded cfg).onStore (·.forgotten pf cfg (some w.applied) now)) with
        applied := cfg } := by
  refine state_run_of_wpOk ?_
  rw [Op.prog, reconcile]
  simp only [Prog.bind_eq, Prog.wpOk_bind, Prog.wpOk_modify, Prog.afterOk_some, Prog.wpOk_get,
    wpOk_forgetUnmonitored]
  rfl

theorem store_start :
    (step pf w (.start cfg now)).store = w.store.forgotten pf cfg none now := by
  rw [step_start, (frame_resumes _ _).1]
  rfl

theorem running_start : (step pf w (.start cfg now)).running = cfg := by
  rw [step_start, (frame_resumes _ _).2]
  rfl

/-- A start resumes the machines of the checks whose component has an open incident. -/
theorem machines_start (c : String) :
    (step pf w (.start cfg now)).engine.machines c =
      if c ∈ cfg.checks.map (·.id) then
        ((w.store.forgotten pf cfg none now).activeIncidentFor pf (cfg.incidentComponent c)).map
          fun i => CheckMachine.resumed i.id
      else none := by
  rw [step_start, machines_resumes]
  simp [retain, World.onStore, World.restarted]

theorem store_reload :
    (step pf w (.reload cfg now)).store = w.store.forgotten pf cfg (some w.applied) now := by
  rw [step_reload]
  rfl

/-- A reload drops the machines of removed checks and of the incidents it resolved. -/
theorem machines_reload (c : String) :
    (step pf w (.reload cfg now)).engine.machines c =
      (w.engine.machines c).filter fun m =>
        (cfg.check c).isSome && m.incidentId.all (!(w.store.forgottenIds pf cfg).contains ·) := by
  rw [step_reload]
  rfl

theorem step_create (form : CreateIncidentForm) :
    step pf w (.create form now) = w.onStore (·.operatorCreated w.running form now) := by
  refine state_run_of_wpOk ?_
  rw [Op.prog, Operator.create]
  simp only [Prog.bind_eq, Prog.wpOk_bind, wpOk_createIncident, Prog.afterOk_some]
  rw [wpOk_addUpdate (Store.incident_createIncident w.store _ _ _ _ _ _)]
  simp [Store.operatorCreated, World.onStore]

theorem step_update (form : UpdateForm) :
    step pf w (.update id form now) =
      if (w.store.incident id).isSome then w.onStore (·.operatorUpdated w.running id form now)
      else w := by
  refine state_run_of_wpOk ?_
  rw [Op.prog, Operator.update]
  simp only [Prog.bind_eq, Prog.wpOk_bind]
  by_cases h : (w.store.incident id).isSome
  · rw [wpOk_addUpdate h, if_pos h]
    by_cases hr : form.incidentState = .resolved <;>
      simp [hr, Store.operatorUpdated, World.onStore]
  · rw [wpOk_addUpdate_of_none (Option.not_isSome_iff_eq_none.mp h), if_neg h]
    simp

theorem step_resolve :
    step pf w (.resolve id now) =
      if (w.store.incident id).isSome then w.onStore (·.operatorResolved w.running id now)
      else w := by
  refine state_run_of_wpOk ?_
  rw [Op.prog, Operator.resolve]
  simp only [Prog.bind_eq, Prog.wpOk_bind, wpOk_statement, Prog.afterOk_some]
  by_cases h : (w.store.incident id).isSome
  · rw [wpOk_addUpdate (Store.isSome_incident_resolveIncident h _), if_pos h]
    simp [Store.operatorResolved, World.onStore]
  · have hnone := Option.not_isSome_iff_eq_none.mp h
    rw [if_neg h, World.onStore, Store.resolveIncident_of_none hnone, wpOk_addUpdate_of_none hnone]
    simp

end Steps

end Dunlin

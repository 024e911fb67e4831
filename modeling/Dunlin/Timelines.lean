import Dunlin.AlertRun
import Dunlin.Requests

/-!
# The row of an incident and its timeline

A request writes the row of an incident and its timeline in two statements, and in no fixed order:
`add_update` writes the timeline first, `resolve_incident` the row. Here any number of requests are
in progress at once, and a step of the system is one piece of one of them. The engine's calls are
requests too, one at a time because of the mutex.

While a request is between its two writes to an incident, the row and the timeline of the incident
may disagree. What the request has written so far is noted (`Half`), and `Consistent` says what can
be relied on meanwhile: a side that was written still stands, and an incident nobody is half-way
through agrees with its timeline. `rows_agree` is about the runs in which no statement undoes that
(`Undisturbed`), and `reopened_disagrees` is a run without any overlap in which the update form of
the incident page does, which is there for a closed incident too.

## Main results

* `obeys_script` — every request keeps to the protocol
* `InStep.step` — a step of the system that disturbs nothing keeps it consistent
* `serve_alone` — a request that meets no other is its handler
* `rows_agree` — the row and the timeline agree whenever nothing is in progress
* `reopened_disagrees` — a run in which they do not
-/

namespace Dunlin

open Lib

/-! ### The newest entry -/

/-- The later of two entries, in the order of `ORDER BY ts, id`, when ids grow along the table. -/
def laterEntry (best : Option IncidentUpdate) (u : IncidentUpdate) : Option IncidentUpdate :=
  match best with
  | some b => if b.ts ≤ u.ts then some u else some b
  | none => some u

namespace Store

/-- The newest entry of an incident's timeline: `ORDER BY ts DESC, id DESC LIMIT 1`. -/
def newest (s : Store) (id : ℤ) : Option IncidentUpdate :=
  (s.updates.rows.filter (·.incidentId == id)).foldl laterEntry none

/-- The state of the newest entry. -/
def newestState (s : Store) (id : ℤ) : Option IncidentState := (s.newest id).map (·.state)

/-- Every row agrees with its timeline: `resolved_at` is set exactly for state `resolved`, and the
newest entry has the state of the row. -/
def Agrees (s : Store) : Prop :=
  ∀ i ∈ s.incidents.rows,
    (i.resolvedAt.isSome ↔ i.state = .resolved) ∧ s.newestState i.id = some i.state

instance (s : Store) : Decidable s.Agrees :=
  inferInstanceAs (Decidable (∀ i ∈ s.incidents.rows, _))

variable {s : Store} {u : IncidentUpdate} {id : ℤ}

theorem foldl_laterEntry_append (l : List IncidentUpdate) (a : IncidentUpdate) :
    (l ++ [a]).foldl laterEntry none = laterEntry (l.foldl laterEntry none) a := by
  rw [List.foldl_append, List.foldl_cons, List.foldl_nil]

/-- The fold keeps an entry that no other comes after. -/
theorem foldl_laterEntry (l : List IncidentUpdate) (hsorted : l.Pairwise fun a b => a.id < b.id) :
    match l.foldl laterEntry none with
    | some u => u ∈ l ∧ ∀ v ∈ l, v.ts < u.ts ∨ v.ts = u.ts ∧ v.id ≤ u.id
    | none => l = [] := by
  induction l using List.reverseRecOn with
  | nil => rfl
  | append_singleton l a ih =>
    obtain ⟨hl, -, hla⟩ := List.pairwise_append.mp hsorted
    have ih := ih hl
    rw [foldl_laterEntry_append]
    cases hb : l.foldl laterEntry none with
    | none =>
      rw [hb] at ih
      subst ih
      exact ⟨List.mem_cons_self, fun v hv => .inr (by simp [List.mem_singleton.mp hv])⟩
    | some b =>
      rw [hb] at ih
      obtain ⟨hbl, hmax⟩ := ih
      unfold laterEntry
      dsimp only
      split_ifs with hts
      · refine ⟨by simp, fun v hv => ?_⟩
        rcases List.mem_append.mp hv with hv | hv
        · have hid := hla v hv a (by simp)
          rcases hmax v hv with hlt | ⟨heq, -⟩ <;> omega
        · rw [List.mem_singleton.mp hv]
          exact .inr ⟨rfl, Int.le_refl _⟩
      · refine ⟨List.mem_append_left _ hbl, fun v hv => ?_⟩
        rcases List.mem_append.mp hv with hv | hv
        · exact hmax v hv
        · rw [List.mem_singleton.mp hv]
          exact .inl (by omega)

/-- Nothing in the timeline of an incident comes after its newest entry. -/
theorem newest_eq_some (h : s.newest id = some u) :
    u ∈ s.updates.rows ∧ u.incidentId = id ∧
      ∀ v ∈ s.updates.rows, v.incidentId = id → v.ts < u.ts ∨ v.ts = u.ts ∧ v.id ≤ u.id := by
  have hfold := foldl_laterEntry _ (s.updates.sorted.filter (·.incidentId == id))
  rw [newest] at h
  rw [h] at hfold
  obtain ⟨hmem, hmax⟩ := hfold
  obtain ⟨hrow, hid⟩ := List.mem_filter.mp hmem
  refine ⟨hrow, beq_iff_eq.mp hid, fun v hv hvid => hmax v ?_⟩
  exact List.mem_filter.mpr ⟨hv, beq_iff_eq.mpr hvid⟩

/-- Writing an entry. -/
theorem newest_addUpdate (incidentId ts : ℤ) (state : IncidentState) (text : String) (auto : Bool) :
    (s.addUpdate incidentId ts state text auto).newest id =
      if incidentId = id then
        laterEntry (s.newest id) ⟨s.updates.next, incidentId, ts, state, text, auto⟩
      else s.newest id := by
  unfold newest addUpdate
  dsimp only
  rw [Table.rows_insert, List.filter_append]
  by_cases hid : incidentId = id
  · rw [if_pos hid, List.filter_cons_of_pos (by simp [hid]), List.filter_nil,
      foldl_laterEntry_append]
  · rw [if_neg hid, List.filter_cons_of_neg (by simp [hid]), List.filter_nil, List.append_nil]

/-- An entry no older than the newest one, or of its state, gives the timeline its state. -/
theorem newestState_addUpdate {incidentId ts : ℤ} {state : IncidentState} {text : String}
    {auto : Bool} (h : ∀ u, s.newest incidentId = some u → u.ts ≤ ts ∨ u.state = state) :
    (s.addUpdate incidentId ts state text auto).newestState id =
      if incidentId = id then some state else s.newestState id := by
  rw [newestState, newest_addUpdate]
  by_cases hid : incidentId = id
  · subst hid
    rw [if_pos rfl, if_pos rfl]
    cases hu : s.newest incidentId with
    | none => rfl
    | some u =>
      rw [laterEntry]
      dsimp only
      split_ifs with hts
      · rfl
      · rw [Option.map_some, (h u hu).resolve_left hts]
  · rw [if_neg hid, if_neg hid, newestState]

theorem newestState_of_updates {s' : Store} (h : s'.updates = s.updates) (id : ℤ) :
    s'.newestState id = s.newestState id := by
  rw [newestState, newestState, newest, newest, h]

end Store

/-! ### Half-way through an incident -/

/-- The two places a request writes the state of an incident to. -/
inductive Side
  | row
  | timeline
  deriving DecidableEq, Repr

/-- A state written to one side of an incident. -/
structure Half where
  id : ℤ
  state : IncidentState
  side : Side
  deriving DecidableEq, Repr

namespace Cmd

/-- The state a statement writes to an incident. The foreign key rejects an entry for an incident
that does not exist. -/
def writes : Cmd → Store → Option Half
  | .insert _ _ _ state _ _, s => some ⟨s.incidents.next, state, .row⟩
  | .entry id _ state _ _, s =>
    if (s.incident id).isSome then some ⟨id, state, .timeline⟩ else none
  | .close id _, _ => some ⟨id, .resolved, .row⟩
  | .setState id state, _ => some ⟨id, state, .row⟩
  | .quiet _, _ | .publish .., _ | .read, _ => none

/-- Whether a statement is one that writes. -/
def isWrite : Cmd → Bool
  | .insert .. | .entry .. | .close .. | .setState .. => true
  | .quiet _ | .publish .. | .read => false

/-- The statement can come while the request has `x` written and the other side to write: it writes
the same state to the other side, or nothing. -/
def completes : Cmd → Half → Prop
  | .insert .., _ => False
  | .entry id _ state _ _, x => x = ⟨id, state, .row⟩
  | .close id _, x => x = ⟨id, .resolved, .timeline⟩
  | .setState id state, x => x = ⟨id, state, .timeline⟩
  | .quiet _, _ | .publish .., _ | .read, _ => True

/-- Only `resolve_incident` writes the state `resolved` to a row. -/
def sound : Cmd → Prop
  | .insert _ _ _ state _ _ => state ≠ .resolved
  | .setState _ state => state ≠ .resolved
  | _ => True

end Cmd

/-- What a request is half-way through after a statement: a first write puts it half-way, a second
one brings it through, and a rejected entry ends it. -/
def noted (half : Option Half) (c : Cmd) (w : World) : Option Half :=
  if c.isWrite then
    match c.writes w.store with
    | some x => if half.isSome then none else some x
    | none => none
  else half

/-- The protocol of a request: its second write to an incident is the other half of its first. -/
def writing : Protocol Cmd World (Option Half) where
  after := noted
  allowed half c := c.sound ∧ ∀ x, half = some x → c.completes x
  silent effect := ∀ w, (effect w).store = w.store

/-! ### Requests in progress -/

/-- A request in progress: what is left of it, and the incident it is half-way through. -/
structure Running where
  script : Script Cmd World Unit
  engine : Bool
  half : Option Half

/-- The program with its requests in progress. -/
structure Server where
  world : World
  requests : List Running

namespace Server

/-- No request is in progress. -/
def isIdle (s : Server) : Bool := s.requests.all (·.script.isOver)

/-- The engine's mutex is locked. -/
def isLocked (s : Server) : Bool := s.requests.any fun r => r.engine && !r.script.isOver

/-- The statement a request is about to execute. -/
def command? (s : Server) (k : ℕ) : Option Cmd := s.requests[k]?.bind (·.script.command?)

end Server

/-- A step of the system. -/
inductive Move
  /-- A request comes in; the engine's wait for the mutex. -/
  | accept (r : Request)
  /-- A request executes its next statement, or works on memory. -/
  | advance (k : ℕ)
  /-- The config in force changes. -/
  | configure (cfg : Config)
  /-- The engine follows the config in force. -/
  | follow

/-- A request executes its next piece. -/
def Running.advance (r : Running) (w : World) : Running :=
  { r with
    script := (r.script.advance Cmd.act w).1
    half := r.script.noteAfter writing r.half w }

/-- One step. -/
def serve (pf : Platform) (s : Server) : Move → Server
  | .accept r =>
    if r.isEngine && s.isLocked then s
    else { s with requests := s.requests ++ [⟨r.script pf, r.isEngine, none⟩] }
  | .advance k =>
    match s.requests[k]? with
    | some r =>
      { world := (r.script.advance Cmd.act s.world).2
        requests := s.requests.set k (r.advance s.world) }
    | none => s
  | .configure cfg => { s with world := s.world.reloaded cfg }
  | .follow => if s.isLocked then s else { s with world := s.world.following }

/-! ### Undisturbed -/

/-- An entry is not older than the newest one, unless that has its state. -/
def Cmd.Timely (s : Store) : Cmd → Prop
  | .entry id ts state _ _ => (s.newest id).all fun u => u.ts ≤ ts || u.state == state
  | _ => True

/-- A state other than `resolved` is not written over a closed row. -/
def Cmd.LeavesClosed (s : Store) : Cmd → Prop
  | .setState id _ => (s.incident id).all (·.resolvedAt.isNone)
  | _ => True

/-- The half that a request in progress has written is not overwritten with another state. -/
def Cmd.LeavesHalves (s : Server) (c : Cmd) : Prop :=
  ∀ r ∈ s.requests, r.half.all fun h => (c.writes s.world.store).all fun x =>
    h.id != x.id || h.side != x.side || h.state == x.state

/-- The next step overwrites no half of a request with another state, writes no entry that is older
than one of another state, and moves no closed incident to another state. -/
def Undisturbed (s : Server) : Move → Prop
  | .advance k => ∀ c ∈ s.command? k,
    c.LeavesHalves s ∧ c.Timely s.world.store ∧ c.LeavesClosed s.world.store
  | _ => True

instance (s : Store) : (c : Cmd) → Decidable (c.Timely s)
  | .entry .. => inferInstanceAs (Decidable (_ = true))
  | .insert .. | .close .. | .setState .. | .quiet _ | .publish .. | .read => isTrue trivial

instance (s : Store) : (c : Cmd) → Decidable (c.LeavesClosed s)
  | .setState .. => inferInstanceAs (Decidable (_ = true))
  | .insert .. | .close .. | .entry .. | .quiet _ | .publish .. | .read => isTrue trivial

instance (s : Server) (c : Cmd) : Decidable (c.LeavesHalves s) :=
  inferInstanceAs (Decidable (∀ r ∈ s.requests, _ = true))

instance (s : Server) : (m : Move) → Decidable (Undisturbed s m)
  | .advance k => inferInstanceAs (Decidable (∀ c ∈ s.command? k,
    c.LeavesHalves s ∧ c.Timely s.world.store ∧ c.LeavesClosed s.world.store))
  | .accept _ | .configure _ | .follow => isTrue trivial

/-! ### Requests keep to the protocol -/

section Protocol

open Script

variable {α : Type} {g : Option Half} {id ts now : ℤ} {state : IncidentState} {text : String}
  {auto : Bool} {input : AlertInput} {cfg : Config} {previous : Option Config} {pf : Platform}

/-- Whatever a request returns, it is through with the incidents it has written to. -/
def Through {α : Type} (_ : Option α) (half : Option Half) : Prop := half = none

theorem obeys_select {Q : Option α → Option Half → Prop} (f : Store → α)
    (h : ∀ a, Q (some a) g) : (Job.select f).Obeys writing g Q :=
  ⟨⟨trivial, fun _ _ => trivial⟩, fun w => h (f w.store)⟩

theorem obeys_get {Q : Option α → Option Half → Prop} (f : World → α) (h : ∀ a, Q (some a) g) :
    (Script.get f : Job α).Obeys writing g Q :=
  ⟨fun _ => rfl, fun w => h (f w)⟩

theorem obeys_modify {Q : Option Unit → Option Half → Prop} {effect : World → World}
    (heffect : ∀ w, (effect w).store = w.store) (h : Q (some ()) g) :
    (Script.modify effect : Job Unit).Obeys writing g Q :=
  ⟨heffect, fun _ => h⟩

theorem obeys_createIncident {Q : Option ℤ → Option Half → Prop} (component title : String)
    (impact : State) (hstate : state ≠ .resolved)
    (h : ∀ id, Q (some id) (some ⟨id, state, .row⟩)) :
    (Job.createIncident component title impact state auto ts).Obeys writing none Q :=
  ⟨⟨hstate, fun _ hx => absurd hx (by simp)⟩, fun w => h w.store.incidents.next⟩

theorem obeys_close {Q : Option Unit → Option Half → Prop}
    (h : Q (some ()) (some ⟨id, .resolved, .row⟩)) :
    (Script.exec (.close id ts) : Job Unit).Obeys writing none Q :=
  ⟨⟨trivial, fun _ hx => absurd hx (by simp)⟩, fun _ => h⟩

/-- An entry that is written first. -/
theorem obeys_firstEntry {Q : Option Unit → Option Half → Prop}
    (h : Q (some ()) (some ⟨id, state, .timeline⟩)) (hfail : Q none none) :
    (Job.addUpdate id ts state text auto).Obeys writing none Q := by
  refine ⟨⟨trivial, fun _ hx => absurd hx (by simp)⟩, fun w => ?_⟩
  show (if (w.store.incident id).isSome then Script.done () else Script.fail).Obeys writing
    (noted none (.entry id ts state text auto) w) Q
  by_cases hi : (w.store.incident id).isSome
  · rw [if_pos hi, noted, Cmd.writes, if_pos hi]
    exact h
  · rw [if_neg hi, noted, Cmd.writes, if_neg hi]
    exact hfail

/-- An entry that is written after the row. -/
theorem obeys_secondEntry {Q : Option Unit → Option Half → Prop} (h : ∀ r, Q r none) :
    (Job.addUpdate id ts state text auto).Obeys writing (some ⟨id, state, .row⟩) Q := by
  refine ⟨⟨trivial, fun x hx => (Option.some.inj hx).symm⟩, fun w => ?_⟩
  show (if (w.store.incident id).isSome then Script.done () else Script.fail).Obeys writing
    (noted (some ⟨id, state, .row⟩) (.entry id ts state text auto) w) Q
  by_cases hi : (w.store.incident id).isSome
  · rw [if_pos hi, noted, Cmd.writes, if_pos hi]
    exact h _
  · rw [if_neg hi, noted, Cmd.writes, if_neg hi]
    exact h _

theorem obeys_publishIncident {Q : Option Unit → Option Half → Prop} {change : IncidentChange}
    (h : Q (some ()) g) : (Job.publishIncident cfg id change text now).Obeys writing g Q := by
  rw [Job.publishIncident]
  split
  · exact h
  · refine Obeys.bind (Obeys.attempt (Obeys.bind (obeys_select _ fun i => ?_)))
    cases i with
    | none => exact h
    | some i =>
      refine Obeys.bind (obeys_select _ fun quiet => ?_)
      cases quiet with
      | true => exact h
      | false => exact ⟨⟨trivial, fun _ _ => trivial⟩, fun _ => h⟩

/-! #### The operator -/

theorem obeys_create (form : CreateIncidentForm) :
    (Job.create form now).Obeys writing none Through := by
  refine Obeys.bind (obeys_createIncident _ _ _ (by decide) fun id => ?_)
  refine Obeys.bind (obeys_secondEntry fun r => ?_)
  cases r with
  | none => rfl
  | some _ => exact Obeys.bind (obeys_get _ fun cfg => obeys_publishIncident rfl)

theorem obeys_update (form : UpdateForm) :
    (Job.update id form now).Obeys writing none Through := by
  have hpublish : (do
      let cfg ← Script.get (·.running)
      Job.publishIncident cfg id (changeFor form.incidentState) form.message now :
        Job Unit).Obeys writing none Through :=
    Obeys.bind (obeys_get _ fun cfg => obeys_publishIncident rfl)
  refine Obeys.bind (obeys_firstEntry ?_ rfl)
  dsimp only
  split
  · rename_i hresolved
    rw [hresolved]
    exact ⟨⟨trivial, fun x hx => (Option.some.inj hx).symm⟩, fun _ => hresolved ▸ hpublish⟩
  · rename_i hopen
    exact ⟨⟨hopen, fun x hx => (Option.some.inj hx).symm⟩, fun _ => hpublish⟩

theorem obeys_resolve : (Job.resolve id now).Obeys writing none Through := by
  refine Obeys.bind (obeys_close (Obeys.bind (obeys_secondEntry fun r => ?_)))
  cases r with
  | none => rfl
  | some _ => exact Obeys.bind (obeys_get _ fun cfg => obeys_publishIncident rfl)

/-! #### The engine -/

theorem obeys_forgetIncident (resolved : List ℤ) (i : Incident) :
    (Job.forgetIncident cfg previous now resolved i).Obeys writing none Through := by
  rw [Job.forgetIncident]
  split
  · rfl
  · refine Obeys.bind (obeys_close (Obeys.bind (obeys_secondEntry fun r => ?_)))
    cases r with
    | none => rfl
    | some _ => exact Obeys.bind (obeys_publishIncident rfl)

theorem obeys_forgetUnmonitored :
    (Job.forgetUnmonitored pf cfg previous now).Obeys writing none Through := by
  refine Obeys.bind (obeys_select _ fun incidents => ?_)
  refine Obeys.bind ((Obeys.foldlM (E := fun g => g = none) (fun ids i => ?_) incidents
    []).mono fun r g hr => ?_)
  · refine (obeys_forgetIncident ids i).mono fun r g hr => ?_
    cases r <;> exact hr
  · cases r with
    | none => exact hr
    | some ids =>
      obtain rfl : g = none := hr
      exact Obeys.bind (obeys_modify (fun _ => rfl) rfl)

theorem obeys_dropClosed {Q : Option Unit → Option Half → Prop} (checkId : String)
    (h : Q (some ()) g) : (Job.dropClosed checkId).Obeys writing g Q := by
  refine Obeys.bind (obeys_get _ fun held => ?_)
  cases held with
  | none => exact h
  | some id =>
    refine Obeys.bind (obeys_select _ fun i => ?_)
    dsimp only
    split
    · exact obeys_modify (fun _ => rfl) h
    · exact h

theorem obeys_notifyUnless (n : Notification) :
    (if !input.muted then Job.notify n else pure ()).Obeys writing none Through := by
  split
  · exact obeys_modify (fun _ => rfl) rfl
  · rfl

theorem obeys_openNew : (Job.openNew pf input).Obeys writing none Through := by
  refine Obeys.bind (obeys_createIncident _ _ _ (by decide) fun id => ?_)
  refine Obeys.bind (obeys_secondEntry fun r => ?_)
  cases r with
  | none => rfl
  | some _ =>
    dsimp only
    split
    · exact ⟨⟨trivial, fun _ hx => absurd hx (by simp)⟩, fun _ => rfl⟩
    · refine Obeys.bind (obeys_get _ fun subscriptions => ?_)
      cases subscriptions with
      | none => rfl
      | some cfg => exact Obeys.bind (obeys_publishIncident rfl)

theorem obeys_onOpen : (Job.onOpen pf input).Obeys writing none Through := by
  have hpoint : ∀ id, (do
      Script.modify (AlertEngine.point input.check.id id)
      if !input.muted then Job.notify (AlertEngine.downNotification input id) :
        Job Unit).Obeys writing none Through := fun id =>
    Obeys.bind (obeys_modify (fun w => AlertEngine.store_point id w) (obeys_notifyUnless _))
  refine Obeys.bind (obeys_select _ fun existing => ?_)
  cases existing with
  | some i => exact hpoint i.id
  | none =>
    refine Obeys.bind (obeys_openNew.mono fun r g hr => ?_)
    obtain rfl : g = none := hr
    cases r with
    | none => rfl
    | some id => exact hpoint id

theorem obeys_onResolve : (Job.onResolve input id).Obeys writing none Through := by
  refine Obeys.bind (obeys_close (Obeys.bind (obeys_secondEntry fun r => ?_)))
  cases r with
  | none => rfl
  | some _ =>
    refine Obeys.bind (obeys_get _ fun subscriptions => ?_)
    cases subscriptions with
    | none => exact obeys_notifyUnless _
    | some cfg => exact Obeys.bind (obeys_publishIncident (obeys_notifyUnless _))

theorem obeys_handle : (Job.handle pf input).Obeys writing none Through := by
  refine Obeys.bind (obeys_dropClosed _ (Obeys.bind ⟨fun _ => rfl, fun w => ?_⟩))
  dsimp only
  generalize ((w.machine input.check.id).onResult input.check input.ok input.now).2 = t
  cases t with
  | nothing => rfl
  | «open» => exact obeys_onOpen
  | resolve id => exact obeys_onResolve
  | remind id => exact obeys_notifyUnless _

/-- **Every request keeps to the protocol.** -/
theorem obeys_script (r : Request) : (r.script pf).Obeys writing none Through := by
  cases r with
  | create form now => exact obeys_create form
  | update id form now => exact obeys_update form
  | resolve id now => exact obeys_resolve
  | handle input => exact obeys_handle
  | forget cfg previous now =>
    refine Obeys.bind (obeys_forgetUnmonitored.mono fun r g hr => ?_)
    cases r <;> exact hr

end Protocol

/-! ### What can be relied on -/

/-- The tables, and the halves written by requests that are between their two writes. A side that
was written still stands, and an incident nobody is half-way through agrees with its timeline. -/
structure Consistent (s : Store) (halves : Half → Prop) : Prop where
  exist : ∀ h, halves h → h.side = .timeline → (s.incident h.id).isSome
  closed : ∀ i ∈ s.incidents.rows, i.resolvedAt.isSome ↔ i.state = .resolved
  row : ∀ i ∈ s.incidents.rows, ∀ h, halves h → h.id = i.id → h.side = .row → i.state = h.state
  timeline : ∀ i ∈ s.incidents.rows, ∀ h, halves h → h.id = i.id → h.side = .timeline →
    s.newestState i.id = some h.state
  agree : ∀ i ∈ s.incidents.rows, (∀ h, halves h → h.id ≠ i.id) →
    s.newestState i.id = some i.state

/-- The halves of the other requests, and that of the one at work. -/
def withHalf (others : Half → Prop) (half : Option Half) (h : Half) : Prop :=
  others h ∨ half = some h

/-- A half written first is the request's own, one written second completes it. -/
theorem others_or_eq_of_withHalf {others : Half → Prop} {half : Option Half} {e x : Half}
    (hx : withHalf others (if half.isSome then none else some e) x) : others x ∨ x = e := by
  rcases hx with hx | hx
  · exact .inl hx
  · split at hx
    · cases hx
    · exact .inr (Option.some.inj hx).symm

namespace Consistent

variable {s : Store} {others halves : Half → Prop} {half : Option Half} {id ts : ℤ}
  {state : IncidentState}

/-- Statements that write neither side. -/
theorem of_same {s' : Store} (h : Consistent s halves) (hupdates : s'.updates = s.updates)
    (hrows : ∀ i' ∈ s'.incidents.rows, ∃ i ∈ s.incidents.rows, i.id = i'.id ∧ i.state = i'.state ∧
      i.resolvedAt = i'.resolvedAt)
    (hexist : ∀ id, (s.incident id).isSome → (s'.incident id).isSome) : Consistent s' halves where
  exist x hx hside := hexist x.id (h.exist x hx hside)
  closed i' hi' := by
    obtain ⟨i, hi, -, hstate, hresolved⟩ := hrows i' hi'
    rw [← hstate, ← hresolved]
    exact h.closed i hi
  row i' hi' x hx hid hside := by
    obtain ⟨i, hi, hids, hstate, -⟩ := hrows i' hi'
    rw [← hstate]
    exact h.row i hi x hx (hid.trans hids.symm) hside
  timeline i' hi' x hx hid hside := by
    obtain ⟨i, hi, hids, -, -⟩ := hrows i' hi'
    rw [Store.newestState_of_updates hupdates, ← hids]
    exact h.timeline i hi x hx (hid.trans hids.symm) hside
  agree i' hi' hnone := by
    obtain ⟨i, hi, hids, hstate, -⟩ := hrows i' hi'
    rw [Store.newestState_of_updates hupdates, ← hids, ← hstate]
    exact h.agree i hi fun x hx => hids ▸ hnone x hx

/-- Writing the row of an incident. `f` is what the statement does to the row. -/
theorem writeRow {f : Incident → Incident} {s' : Store}
    (h : Consistent s (withHalf others half)) (hupdates : s'.updates = s.updates)
    (hrows : ∀ i', i' ∈ s'.incidents.rows ↔
      ∃ i ∈ s.incidents.rows, (if i.id = id then f i else i) = i')
    (hid : ∀ i, (f i).id = i.id) (hstate : ∀ i, (f i).state = state)
    (hclosed : ∀ i ∈ s.incidents.rows, i.id = id →
      ((f i).resolvedAt.isSome ↔ state = .resolved))
    (hcompletes : ∀ x, half = some x → x = ⟨id, state, .timeline⟩)
    (hhalves : ∀ x, others x → x.id = id → x.side = .row → x.state = state) :
    Consistent s' (withHalf others (if half.isSome then none else some ⟨id, state, .row⟩)) := by
  have hsame : ∀ i : Incident, (if i.id = id then f i else i).id = i.id := by
    intro i
    split
    · exact hid i
    · rfl
  have hexist : ∀ id', (s.incident id').isSome → (s'.incident id').isSome := by
    intro id' hsome
    obtain ⟨i, hi, rfl⟩ := Store.exists_incident_iff.mp hsome
    exact Store.exists_incident_iff.mpr ⟨_, (hrows _).mpr ⟨i, hi, rfl⟩, hsame i⟩
  refine ⟨?_, ?_, ?_, ?_, ?_⟩
  · intro x hx hside
    rcases others_or_eq_of_withHalf hx with hx | rfl
    · exact hexist x.id (h.exist x (.inl hx) hside)
    · cases hside
  · intro i' hi'
    obtain ⟨i, hi, rfl⟩ := (hrows i').mp hi'
    by_cases hii : i.id = id
    · rw [if_pos hii, hstate]
      exact hclosed i hi hii
    · rw [if_neg hii]
      exact h.closed i hi
  · intro i' hi' x hx hxid hside
    obtain ⟨i, hi, rfl⟩ := (hrows i').mp hi'
    rw [hsame] at hxid
    by_cases hii : i.id = id
    · rw [if_pos hii, hstate]
      rcases others_or_eq_of_withHalf hx with hx | rfl
      · exact (hhalves x hx (hxid.trans hii) hside).symm
      · rfl
    · rw [if_neg hii]
      rcases others_or_eq_of_withHalf hx with hx | rfl
      · exact h.row i hi x (.inl hx) hxid hside
      · exact absurd hxid.symm hii
  · intro i' hi' x hx hxid hside
    obtain ⟨i, hi, rfl⟩ := (hrows i').mp hi'
    rw [hsame] at hxid ⊢
    rw [Store.newestState_of_updates hupdates]
    rcases others_or_eq_of_withHalf hx with hx | rfl
    · exact h.timeline i hi x (.inl hx) hxid hside
    · cases hside
  · intro i' hi' hnone
    obtain ⟨i, hi, rfl⟩ := (hrows i').mp hi'
    rw [hsame] at hnone ⊢
    rw [Store.newestState_of_updates hupdates]
    by_cases hii : i.id = id
    · rw [if_pos hii, hstate]
      cases hhalf : half with
      | none => exact absurd hii.symm (hnone ⟨id, state, .row⟩ (.inr (by rw [hhalf]; rfl)))
      | some y =>
        obtain rfl := hcompletes y hhalf
        exact h.timeline i hi _ (.inr hhalf) hii.symm rfl
    · rw [if_neg hii]
      refine h.agree i hi fun x hx => ?_
      rcases hx with hx | hx
      · exact hnone x (.inl hx)
      · rw [hcompletes x hx]
        exact fun hid => hii hid.symm

/-- Writing an entry of an incident's timeline. -/
theorem writeEntry {text : String} {auto : Bool} (h : Consistent s (withHalf others half))
    (hexist : (s.incident id).isSome)
    (htimely : ∀ u, s.newest id = some u → u.ts ≤ ts ∨ u.state = state)
    (hcompletes : ∀ x, half = some x → x = ⟨id, state, .row⟩)
    (hhalves : ∀ x, others x → x.id = id → x.side = .timeline → x.state = state) :
    Consistent (s.addUpdate id ts state text auto)
      (withHalf others (if half.isSome then none else some ⟨id, state, .timeline⟩)) := by
  refine ⟨?_, h.closed, ?_, ?_, ?_⟩
  · intro x hx hside
    rcases others_or_eq_of_withHalf hx with hx | rfl
    · exact h.exist x (.inl hx) hside
    · exact hexist
  · intro i hi x hx hxid hside
    rcases others_or_eq_of_withHalf hx with hx | rfl
    · exact h.row i hi x (.inl hx) hxid hside
    · cases hside
  · intro i hi x hx hxid hside
    rw [Store.newestState_addUpdate htimely]
    rcases others_or_eq_of_withHalf hx with hx | rfl
    · by_cases hii : id = i.id
      · rw [if_pos hii, hhalves x hx (hxid.trans hii.symm) hside]
      · rw [if_neg hii]
        exact h.timeline i hi x (.inl hx) hxid hside
    · rw [if_pos hxid]
  · intro i hi hnone
    rw [Store.newestState_addUpdate htimely]
    by_cases hii : id = i.id
    · rw [if_pos hii]
      cases hhalf : half with
      | none => exact absurd hii (hnone ⟨id, state, .timeline⟩ (.inr (by rw [hhalf]; rfl)))
      | some y =>
        obtain rfl := hcompletes y hhalf
        rw [h.row i hi _ (.inr hhalf) hii rfl]
    · rw [if_neg hii]
      refine h.agree i hi fun x hx => ?_
      rcases hx with hx | hx
      · exact hnone x (.inl hx)
      · rw [hcompletes x hx]
        exact hii

/-- A rejected entry ends the request, which leaves nothing half-done behind. -/
theorem rejectEntry (h : Consistent s (withHalf others half)) (hexist : s.incident id = none)
    (hcompletes : ∀ x, half = some x → x = ⟨id, state, .row⟩) :
    Consistent s (withHalf others none) := by
  have hless : ∀ x, withHalf others none x → withHalf others half x := by
    rintro x (hx | hx)
    · exact .inl hx
    · exact absurd hx (by simp)
  refine ⟨fun x hx => h.exist x (hless x hx), h.closed, fun i hi x hx => h.row i hi x (hless x hx),
    fun i hi x hx => h.timeline i hi x (hless x hx), fun i hi hnone => ?_⟩
  refine h.agree i hi fun x hx => ?_
  rcases hx with hx | hx
  · exact hnone x (.inl hx)
  · rw [hcompletes x hx]
    exact (Store.incident_eq_none_iff.mp hexist i hi).symm

/-- A new incident. -/
theorem createIncident {component title : String} {impact : State} {auto : Bool}
    (h : Consistent s (withHalf others none)) (hstate : state ≠ .resolved)
    (hhalves : ∀ x, others x → x.id = s.incidents.next → x.side = .row → x.state = state) :
    Consistent (s.createIncident component title impact state auto ts)
      (withHalf others (some ⟨s.incidents.next, state, .row⟩)) := by
  have hnewest : ∀ id, (s.createIncident component title impact state auto ts).newestState id =
      s.newestState id := Store.newestState_of_updates rfl
  have hold : ∀ {i : Incident}, i ∈ s.incidents.rows → ∀ x,
      withHalf others (some ⟨s.incidents.next, state, .row⟩) x → x.id = i.id →
        withHalf others none x := by
    intro i hi x hx hxid
    rcases hx with hx | hx
    · exact .inl hx
    · rw [← Option.some.inj hx] at hxid
      have hlt : i.id < s.incidents.next := Store.id_lt_next hi
      exact absurd hxid (Int.ne_of_gt hlt)
  refine ⟨?_, ?_, ?_, ?_, ?_⟩
  · rintro x (hx | hx) hside
    · obtain ⟨i, hi, hid⟩ := Store.exists_incident_iff.mp (h.exist x (.inl hx) hside)
      exact Store.exists_incident_iff.mpr ⟨i, Store.mem_createIncident.mpr (.inl hi), hid⟩
    · rw [← Option.some.inj hx] at hside
      exact absurd hside (by simp)
  · intro i hi
    rcases Store.mem_createIncident.mp hi with hi | rfl
    · exact h.closed i hi
    · simp [Store.newIncident, hstate]
  · intro i hi x hx hxid hside
    rcases Store.mem_createIncident.mp hi with hi | rfl
    · exact h.row i hi x (hold hi x hx hxid) hxid hside
    · rcases hx with hx | hx
      · exact (hhalves x hx hxid hside).symm
      · rw [← Option.some.inj hx]
        rfl
  · intro i hi x hx hxid hside
    rw [hnewest]
    rcases Store.mem_createIncident.mp hi with hi | rfl
    · exact h.timeline i hi x (hold hi x hx hxid) hxid hside
    · rcases hx with hx | hx
      · obtain ⟨j, hj, hid⟩ := Store.exists_incident_iff.mp (h.exist x (.inl hx) hside)
        have hlt : j.id < s.incidents.next := Store.id_lt_next hj
        exact absurd (hid.trans hxid) (Int.ne_of_lt hlt)
      · rw [← Option.some.inj hx] at hside
        exact absurd hside (by simp)
  · intro i hi hnone
    rw [hnewest]
    rcases Store.mem_createIncident.mp hi with hi | rfl
    · refine h.agree i hi fun x hx => ?_
      rcases hx with hx | hx
      · exact hnone x (.inl hx)
      · exact absurd hx (by simp)
    · exact absurd rfl (hnone _ (.inr rfl))

/-- Marking an incident quiet. -/
theorem markQuiet (h : Consistent s halves) (id : ℤ) : Consistent (s.markQuiet id) halves := by
  refine h.of_same rfl (fun i' hi' => ?_) fun id' hsome => ?_
  · obtain ⟨i, hi, rfl⟩ := Store.mem_markQuiet.mp hi'
    refine ⟨i, hi, ?_, ?_, ?_⟩ <;> split <;> rfl
  · obtain ⟨i, hi, hid⟩ := Store.exists_incident_iff.mp hsome
    refine Store.exists_incident_iff.mpr ⟨_, Store.mem_markQuiet.mpr ⟨i, hi, rfl⟩, ?_⟩
    split <;> exact hid

/-- **One statement of a request.** -/
theorem act {c : Cmd} {w : World} (h : Consistent w.store (withHalf others half))
    (hsound : c.sound) (hcompletes : ∀ x, half = some x → c.completes x)
    (htimely : c.Timely w.store) (hclosed : c.LeavesClosed w.store)
    (hhalves : ∀ y, c.writes w.store = some y → ∀ x, others x → x.id = y.id →
      x.side = y.side → x.state = y.state) :
    Consistent (c.act w).store (withHalf others (noted half c w)) := by
  cases c with
  | insert component title impact state auto ts =>
    cases half with
    | none => exact h.createIncident hsound (hhalves _ rfl)
    | some x => exact absurd (hcompletes x rfl) id
  | entry id ts state message auto =>
    by_cases hexist : (w.store.incident id).isSome
    · have htimely' : ∀ u, w.store.newest id = some u → u.ts ≤ ts ∨ u.state = state := by
        intro u hu
        have hall : (w.store.newest id).all fun u => u.ts ≤ ts || u.state == state := htimely
        rw [hu] at hall
        simpa using hall
      have hwrites : (Cmd.entry id ts state message auto).writes w.store =
          some ⟨id, state, .timeline⟩ := if_pos hexist
      have hact : (Cmd.entry id ts state message auto).act w =
          w.onStore (·.addUpdate id ts state message auto) := if_pos hexist
      have hnoted : noted half (.entry id ts state message auto) w =
          if half.isSome then none else some ⟨id, state, .timeline⟩ := by
        simp only [noted, hwrites, Cmd.isWrite, if_true]
      rw [hact, hnoted]
      exact h.writeEntry hexist htimely' hcompletes (hhalves _ hwrites)
    · have hact : (Cmd.entry id ts state message auto).act w = w := if_neg hexist
      have hnoted : noted half (.entry id ts state message auto) w = none := by
        simp only [noted, Cmd.writes, Cmd.isWrite, if_true, if_neg hexist]
      rw [hact, hnoted]
      exact h.rejectEntry (Option.not_isSome_iff_eq_none.mp hexist) hcompletes
  | close id ts =>
    exact h.writeRow rfl (fun _ => Store.mem_resolveIncident) (fun _ => rfl) (fun _ => rfl)
      (fun _ _ _ => by simp [Incident.closed]) hcompletes (hhalves _ rfl)
  | setState id state =>
    refine h.writeRow rfl (fun _ => Store.mem_setIncidentState) (fun _ => rfl) (fun _ => rfl)
      (fun i hi hid => ?_) hcompletes (hhalves _ rfl)
    have hopen : (w.store.incident id).all (·.resolvedAt.isNone) := hclosed
    rw [Store.incident_eq_some_iff.mpr ⟨hi, hid⟩, Option.all_some] at hopen
    have hnone : i.resolvedAt = none := Option.isNone_iff_eq_none.mp hopen
    have hstate : state ≠ .resolved := hsound
    simp [hnone, hstate]
  | quiet id => exact h.markQuiet id
  | publish cfg event now => exact h.of_same rfl (fun i hi => ⟨i, hi, rfl, rfl, rfl⟩) fun _ => id
  | read => exact h

end Consistent

/-! ### Runs -/

/-- Some request is half-way with `h`. -/
def Server.halves (s : Server) (h : Half) : Prop := ∃ r ∈ s.requests, r.half = some h

/-- The halves of the requests but the `k`-th. -/
def Server.otherHalves (s : Server) (k : ℕ) (h : Half) : Prop :=
  ∃ j r, j ≠ k ∧ s.requests[j]? = some r ∧ r.half = some h

/-- The invariant: every request keeps to the protocol from here on, and the tables are consistent
with what the requests have written. -/
structure InStep (s : Server) : Prop where
  obeys : ∀ r ∈ s.requests, r.script.Obeys writing r.half Through
  consistent : Consistent s.world.store s.halves

theorem Consistent.congr {s : Store} {H H' : Half → Prop} (h : Consistent s H)
    (hiff : ∀ x, H' x ↔ H x) : Consistent s H' := by
  have heq : H' = H := funext fun x => propext (hiff x)
  rwa [heq]

namespace Server

variable {s : Server} {k : ℕ} {r : Running}

theorem halves_iff (hr : s.requests[k]? = some r) (h : Half) :
    s.halves h ↔ withHalf (s.otherHalves k) r.half h := by
  constructor
  · rintro ⟨r', hr', hh⟩
    obtain ⟨j, hj⟩ := List.mem_iff_getElem?.mp hr'
    by_cases hjk : j = k
    · subst hjk
      rw [hr] at hj
      exact .inr (Option.some.inj hj ▸ hh)
    · exact .inl ⟨j, r', hjk, hj, hh⟩
  · rintro (⟨j, r', -, hj, hh⟩ | hh)
    · exact ⟨r', List.mem_of_getElem? hj, hh⟩
    · exact ⟨r, List.mem_of_getElem? hr, hh⟩

theorem otherHalves_set (world : World) (r' : Running) :
    Server.otherHalves ⟨world, s.requests.set k r'⟩ k = s.otherHalves k := by
  funext h
  refine propext (exists_congr fun j => exists_congr fun r => and_congr_right fun hjk => ?_)
  dsimp only
  rw [List.getElem?_set_ne (Ne.symm hjk)]

end Server

namespace InStep

variable {pf : Platform} {s : Server} {m : Move}

theorem advance (h : InStep s) {k : ℕ} (hm : Undisturbed s (.advance k)) {r : Running}
    (hr : s.requests[k]? = some r) :
    InStep ⟨(r.script.advance Cmd.act s.world).2, s.requests.set k (r.advance s.world)⟩ := by
  have hobeys := h.obeys r (List.mem_of_getElem? hr)
  have hset : (s.requests.set k (r.advance s.world))[k]? = some (r.advance s.world) :=
    List.getElem?_set_self' .. |>.trans (by rw [hr]; rfl)
  have hcons : Consistent s.world.store (withHalf (s.otherHalves k) r.half) :=
    h.consistent.congr fun x => (Server.halves_iff hr x).symm
  refine ⟨fun r' hr' => ?_, ?_⟩
  · rcases List.mem_or_eq_of_mem_set hr' with hr' | rfl
    · exact h.obeys r' hr'
    · exact hobeys.advance s.world
  · refine Consistent.congr ?_ (Server.halves_iff hset)
    rw [Server.otherHalves_set]
    cases hc : r.script.command? with
    | some c =>
      have hnote : (r.advance s.world).half = noted r.half c s.world := by
        show r.script.noteAfter writing r.half s.world = _
        rw [Script.noteAfter, hc]
        rfl
      obtain ⟨hhalves, htimely, hclosed⟩ := hm c (by rw [Server.command?, hr]; exact hc)
      have hallowed := hobeys.allowed hc
      rw [hnote, Script.snd_advance hc]
      refine hcons.act hallowed.1 hallowed.2 htimely hclosed ?_
      rintro y hy x ⟨j, r', -, hj, hh⟩ hid hside
      have hall := hhalves r' (List.mem_of_getElem? hj)
      rw [hh, hy] at hall
      simpa [hid, hside] using hall
    | none =>
      have hnote : (r.advance s.world).half = r.half := by
        show r.script.noteAfter writing r.half s.world = _
        rw [Script.noteAfter, hc]
      rw [hnote]
      rcases hobeys.silent hc s.world with hw | ⟨effect, hsilent, hw⟩
      · rw [hw]
        exact hcons
      · rw [hw]
        show Consistent (effect s.world).store _
        rw [hsilent s.world]
        exact hcons

theorem step (h : InStep s) (hm : Undisturbed s m) : InStep (serve pf s m) := by
  cases m with
  | accept r =>
    unfold serve
    dsimp only
    split
    · exact h
    · refine ⟨fun r' hr' => ?_, h.consistent.congr fun x => ?_⟩
      · rcases List.mem_append.mp hr' with hr' | hr'
        · exact h.obeys r' hr'
        · rw [List.mem_singleton.mp hr']
          exact obeys_script r
      · simp [Server.halves]
  | advance k =>
    unfold serve
    dsimp only
    split
    · rename_i r hr
      exact h.advance hm hr
    · exact h
  | configure cfg => exact ⟨h.obeys, h.consistent⟩
  | follow =>
    unfold serve
    dsimp only
    split
    · exact h
    · exact ⟨h.obeys, h.consistent⟩

/-- Where no request is in progress every row agrees with its timeline. -/
theorem agrees (h : InStep s) (hidle : s.isIdle) : s.world.store.Agrees := by
  intro i hi
  refine ⟨h.consistent.closed i hi, h.consistent.agree i hi ?_⟩
  rintro x ⟨r, hr, hx⟩
  obtain ⟨_, hthrough⟩ := (h.obeys r hr).over (List.all_eq_true.mp hidle r hr)
  have hnone : r.half = none := hthrough
  rw [hnone] at hx
  exact absurd hx (by simp)

end InStep

/-- A server with no requests. -/
def Server.idle (w : World) : Server := ⟨w, []⟩

theorem inStep_idle {w : World} (h : w.store.Agrees) : InStep (.idle w) where
  obeys := by simp [Server.idle]
  consistent := by
    refine ⟨?_, fun i hi => (h i hi).1, ?_, ?_, fun i hi _ => (h i hi).2⟩ <;>
      simp [Server.idle, Server.halves]

/-! ### One request at a time -/

/-- A server with one request to go on with leaves what the request's program leaves. -/
theorem serve_one (pf : Platform) (p : Script Cmd World Unit) (engine : Bool) :
    ∀ (w : World) (half : Option Half), ∃ n r,
      run (serve pf) ⟨w, [⟨p, engine, half⟩]⟩ (List.replicate n (.advance 0)) =
        ⟨((p.toProg Cmd.act).run [] w).state, [r]⟩ ∧ r.script.isOver := by
  induction p with
  | done a => exact fun w half => ⟨0, _, rfl, rfl⟩
  | fail => exact fun w half => ⟨0, _, rfl, rfl⟩
  | stmt command next onErr ih _ =>
    intro w half
    obtain ⟨n, r, hrun, hover⟩ := ih w (command.act w) (noted half command w)
    exact ⟨n + 1, r, hrun, hover⟩
  | mem effect next ih =>
    intro w half
    obtain ⟨n, r, hrun, hover⟩ := ih w (effect w) half
    exact ⟨n + 1, r, hrun, hover⟩

/-- **A request that meets no other is its handler.** -/
theorem serve_alone (pf : Platform) (r : Request) (w : World) : ∃ n,
    (run (serve pf) (.idle w) (.accept r :: List.replicate n (.advance 0))).world =
        ((r.prog pf).run [] w).state ∧
      (run (serve pf) (.idle w) (.accept r :: List.replicate n (.advance 0))).isIdle := by
  obtain ⟨n, r', hrun, hover⟩ := serve_one pf (r.script pf) r.isEngine w none
  have haccept : serve pf (.idle w) (.accept r) = ⟨w, [⟨r.script pf, r.isEngine, none⟩]⟩ := by
    unfold serve
    dsimp only
    rw [if_neg (by simp [Server.idle, Server.isLocked])]
    rfl
  refine ⟨n, ?_, ?_⟩
  · rw [run_cons, haccept, hrun, Request.toProg_script]
  · rw [run_cons, haccept, hrun]
    simpa [Server.isIdle] using hover

variable {pf : Platform}

/-- **Rows agree with their timelines** whenever no request is in progress, in every run of
undisturbed steps. -/
theorem rows_agree (w : World) (h₀ : w.store.Agrees) (moves : List Move)
    (h : Always (serve pf) Undisturbed (.idle w) moves)
    (hidle : (run (serve pf) (.idle w) moves).isIdle) :
    (run (serve pf) (.idle w) moves).world.store.Agrees :=
  (h.run_inv (inStep_idle h₀) fun _ _ hs hm => hs.step hm).agrees hidle

/-- The check of an incident recovers while the operator's update of it is still in progress. -/
theorem rows_agree_overlapping :
    (run (serve .ascii) (.idle (.initial .empty quickConfig))
      (.accept (.handle (probe false 1)) :: List.replicate 8 (.advance 0) ++
        .accept (.update 1 ⟨"identified", "Found it."⟩ 2) :: List.replicate 3 (.advance 1) ++
          .accept (.handle (probe true 3)) :: List.replicate 12 (.advance 2) ++
            List.replicate 4 (.advance 1))).world.store.Agrees :=
  rows_agree _ (by decide) _ (by decide) (by decide)

/-- An operator opens an incident and resolves it, and then posts an update with the state the form
comes with. The row is closed and investigating. -/
theorem reopened_disagrees :
    ¬∀ (pf : Platform) (w : World) (moves : List Move), w.store.Agrees →
      (run (serve pf) (.idle w) moves).isIdle →
        (run (serve pf) (.idle w) moves).world.store.Agrees := by
  intro h
  have hrun := h .ascii (.initial .empty quickConfig)
    (.accept (.create { component := "web", title := "Slow" } 1) :: List.replicate 6 (.advance 0) ++
      .accept (.resolve 1 2) :: List.replicate 6 (.advance 1) ++
        .accept (.update 1 ⟨"investigating", "Again."⟩ 3) :: List.replicate 6 (.advance 2))
    (by decide) (by decide)
  revert hrun
  decide

end Dunlin

import Dunlin.IncidentRows

/-!
# What a subscriber hears about an incident

The messages queued to one subscriber about one incident should read `opened updated* resolved?`,
or be none at all when the incident was opened during maintenance. The engine keeps to that: it
resolves open incidents only, and `publishIncident` leaves quiet ones out.

The operator's handlers do not look at the incident before they publish. An update of a closed
incident queues `updated` after `resolved`, and resolving it again queues a second `resolved`.
`grammar_iff` says that this is all that can go wrong: a run keeps the grammar exactly when the
operator leaves closed incidents alone (`Orderly`).

## Scope

A subscriber that follows the incident's component is meant, active from before it was opened. What
is queued counts, in the order of the outbox; whether it arrives is for `OutboxLifecycle`.

## Main results

* `Tuned.step` — each operation, by what it tells the subscriber
* `Tuned.orderly` — a run in which the grammar holds is orderly
* `grammar_iff` — both directions, along every run
* `resolved_twice` — an operator who resolves an incident with an update
-/

namespace Dunlin

open Lib AlertEngine

/-! ### The messages about an incident -/

/-- The incident an event is about, and what happened to it. -/
def SubscriberEvent.change : SubscriberEvent → Option (ℤ × IncidentChange)
  | .incidentOpened e => some (e.incidentId, .opened)
  | .incidentUpdated e => some (e.incidentId, .updated)
  | .incidentResolved e => some (e.incidentId, .resolved)
  | _ => none

/-- The incident a message is about, and what it says happened. -/
def OutboxRow.change (o : OutboxRow) : Option (ℤ × IncidentChange) :=
  match o.payload with
  | .json event => event.change
  | .braces => none

/-- What was queued to a subscriber about an incident, oldest first. -/
def heard (s : Subs) (sid iid : ℤ) : List IncidentChange :=
  s.outbox.rows.filterMap fun o =>
    if o.subscriberId = sid then
      o.change.bind fun c => if c.1 = iid then some c.2 else none
    else none

/-- `opened updated* resolved?`, or nothing. -/
def Grammatical (l : List IncidentChange) : Prop :=
  l = [] ∨ ∃ n, l = .opened :: List.replicate n .updated ∨
    l = .opened :: (List.replicate n .updated ++ [.resolved])

instance : DecidablePred Grammatical := fun l =>
  decidable_of_iff (l = [] ∨ ∃ n < l.length, l = .opened :: List.replicate n .updated ∨
      l = .opened :: (List.replicate n .updated ++ [.resolved])) <| by
    refine or_congr_right ⟨fun ⟨n, _, h⟩ => ⟨n, h⟩, fun ⟨n, h⟩ => ⟨n, ?_, h⟩⟩
    rcases h with h | h
    · rw [h, List.length_cons, List.length_replicate]
      omega
    · rw [h, List.length_cons, List.length_append, List.length_replicate]
      omega

/-- Whether news of a component goes to a subscriber. -/
def Subs.follows (s : Subs) (r : Subscriber) (component : String) : Bool :=
  component == "" || r.allComponents ||
    s.components.any fun c => c.1 == r.id && c.2 == component

theorem concerns_incidentEvent {s : Subs} {r : Subscriber} {cfg : Config} {i : Incident}
    {text : String} (change : IncidentChange) :
    s.concerns (change.event (incidentEvent cfg i text)) r =
      (r.status == .active && s.follows r i.component) := by
  cases change <;>
    simp [Subs.concerns, Subs.follows, IncidentChange.event, SubscriberEvent.isMaintenance,
      SubscriberEvent.component, incidentEvent]

theorem change_event (change : IncidentChange) (cfg : Config) (i : Incident) (text : String) :
    (change.event (incidentEvent cfg i text)).change = some (i.id, change) := by
  cases change <;> rfl

section Heard

variable {s : Store} {r : Subscriber} {cfg : Config} {i : Incident} {id iid now : ℤ}
  {change : IncidentChange} {text : String}

theorem Store.publishIncident_of_quiet (hi : s.incident id = some i) (hq : i.quiet = true) :
    s.publishIncident cfg id change text now = s := by
  simp [Store.publishIncident, hi, hq]

theorem Store.publishIncident_of_none (hi : s.incident id = none) :
    s.publishIncident cfg id change text now = s := by
  simp [Store.publishIncident, hi]

theorem Store.publishIncident_of_loud (hi : s.incident id = some i) (hq : i.quiet = false)
    (he : cfg.subscriptions.enabled = true) :
    (s.publishIncident cfg id change text now).subs =
      s.subs.fanOut (change.event (incidentEvent cfg i text)) now := by
  simp [Store.publishIncident, hi, hq, Store.publish, Subs.publish, he]

/-- A message of an event goes to each subscriber it concerns, once. -/
theorem heard_fanOut (s : Subs) (sid iid : ℤ) (event : SubscriberEvent) :
    heard (s.fanOut event now) sid iid =
      heard s sid iid ++ (s.subscribers.rows.filter (s.concerns event)).filterMap fun r =>
        if r.id = sid then event.change.bind fun c => if c.1 = iid then some c.2 else none
        else none := by
  rw [heard, Subs.fanOut]
  rw [Table.rows_insertMany, List.filterMap_append, List.filterMap_map]
  congr 1
  conv_rhs => rw [← Table.map_snd_numbered s.outbox.next
    (s.subscribers.rows.filter (s.concerns event)), List.filterMap_map]
  rfl

theorem heard_publish_same (hr : r ∈ s.subs.subscribers.rows) (hactive : r.status = .active)
    (hi : s.incident iid = some i) (hq : i.quiet = false)
    (he : cfg.subscriptions.enabled = true) (hf : s.subs.follows r i.component) :
    heard (s.publishIncident cfg iid change text now).subs r.id iid =
      heard s.subs r.id iid ++ [change] := by
  rw [Store.publishIncident_of_loud hi hq he, heard_fanOut]
  congr 1
  rw [change_event, (Store.incident_eq_some_iff.mp hi).2]
  have hmem : r ∈ s.subs.subscribers.rows.filter
      (s.subs.concerns (change.event (incidentEvent cfg i text))) := by
    rw [List.mem_filter, concerns_incidentEvent, hactive, hf]
    exact ⟨hr, rfl⟩
  simpa using Table.filterMap_of_mem (s.subs.subscribers.sorted.filter _) hmem (some change)

theorem heard_publish_other (hne : id ≠ iid) (sid : ℤ) :
    heard (s.publishIncident cfg id change text now).subs sid iid = heard s.subs sid iid := by
  cases hi : s.incident id with
  | none => rw [Store.publishIncident_of_none hi]
  | some i =>
    cases hq : i.quiet with
    | true => rw [Store.publishIncident_of_quiet hi hq]
    | false =>
      cases he : cfg.subscriptions.enabled with
      | false => rw [Store.publishIncident_of_disabled he]
      | true =>
        rw [Store.publishIncident_of_loud hi hq he, heard_fanOut, change_event,
          (Store.incident_eq_some_iff.mp hi).2]
        simp [hne]

/-- Publishing touches no subscriber. -/
@[simp] theorem subscribers_publishIncident :
    (s.publishIncident cfg id change text now).subs.subscribers = s.subs.subscribers := by
  unfold Store.publishIncident Store.publish Subs.publish
  split
  · split
    · rfl
    · dsimp only
      split <;> rfl
  · rfl

@[simp] theorem components_publishIncident :
    (s.publishIncident cfg id change text now).subs.components = s.subs.components := by
  unfold Store.publishIncident Store.publish Subs.publish
  split
  · split
    · rfl
    · dsimp only
      split <;> rfl
  · rfl

end Heard

/-! ### The invariant -/

/-- What has been queued about an incident in its present state. -/
def Spoken (i : Incident) (l : List IncidentChange) : Prop :=
  if i.quiet then l = []
  else ∃ n, l = .opened :: (List.replicate n .updated ++ if i.isActive then [] else [.resolved])

theorem Spoken.grammatical {i : Incident} {l : List IncidentChange} (h : Spoken i l) :
    Grammatical l := by
  unfold Spoken at h
  split at h
  · exact .inl h
  · obtain ⟨n, rfl⟩ := h
    refine .inr ⟨n, ?_⟩
    split
    · exact .inl (by rw [List.append_nil])
    · exact .inr rfl

/-- Nothing may be queued after a resolution. -/
theorem not_grammatical_of_resolved {l : List IncidentChange} (h : .resolved ∈ l)
    (c : IncidentChange) : ¬Grammatical (l ++ [c]) := by
  rintro (hnil | ⟨n, hl | hl⟩)
  · simp at hnil
  · have hmem : IncidentChange.resolved ∈ l ++ [c] := List.mem_append_left _ h
    rw [hl] at hmem
    simp at hmem
  · have hlast := congrArg List.dropLast hl
    rw [List.dropLast_concat, ← List.cons_append, List.dropLast_concat] at hlast
    rw [hlast] at h
    simp at h

/-- A resolution follows what was heard of an open incident. -/
theorem Spoken.closed {i : Incident} (hact : i.isActive) (hq : i.quiet = false) (ts : ℤ)
    {l : List IncidentChange} (h : Spoken i l) : Spoken (i.closed ts) (l ++ [.resolved]) := by
  rw [Spoken, if_neg (by simp [hq]), if_pos hact] at h
  obtain ⟨n, rfl⟩ := h
  rw [Spoken, if_neg (by simp [Incident.closed, hq]),
    if_neg (by simp [Incident.closed, Incident.isActive])]
  exact ⟨n, by simp⟩

/-- An update follows what was heard of an open incident. -/
theorem Spoken.updated {i : Incident} (hact : i.isActive) (hq : i.quiet = false)
    (state : IncidentState) {l : List IncidentChange} (h : Spoken i l) :
    Spoken { i with state := state } (l ++ [.updated]) := by
  rw [Spoken, if_neg (by simp [hq]), if_pos hact] at h
  obtain ⟨n, rfl⟩ := h
  have hact' : ({ i with state := state } : Incident).isActive := hact
  rw [Spoken, if_neg (by simp [hq]), if_pos hact']
  refine ⟨n + 1, ?_⟩
  rw [List.append_nil, List.append_nil, List.replicate_succ', List.cons_append]

/-- A subscriber is active, and has heard of the incident `iid` what its state calls for. -/
structure Tuned (r : Subscriber) (iid : ℤ) (s : Store) : Prop where
  mem : r ∈ s.subs.subscribers.rows
  active : r.status = .active
  /-- Nobody has heard of an incident that does not exist yet. -/
  unheard : s.incidents.next ≤ iid → heard s.subs r.id iid = []
  spoken : ∀ i ∈ s.incidents.rows, i.id = iid → s.subs.follows r i.component →
    Spoken i (heard s.subs r.id iid)

namespace Tuned

variable {r : Subscriber} {iid id now : ℤ} {s s' : Store} {cfg : Config} {text : String}
  {change : IncidentChange}

/-- Only the chosen components decide whom news goes to. -/
theorem follows_publishIncident (component : String) :
    (s.publishIncident cfg id change text now).subs.follows r component =
      s.subs.follows r component := by
  rw [Subs.follows, Subs.follows, components_publishIncident]

/-- Publishing a change of an incident whose row has moved on accordingly. -/
theorem announce (h : Tuned r iid s) (he : cfg.subscriptions.enabled = true)
    (hsubs : s'.subs = s.subs) (hnext : s'.incidents.next = s.incidents.next)
    (hother : ∀ i' ∈ s'.incidents.rows, i'.id ≠ id → i' ∈ s.incidents.rows)
    (hsame : ∀ i' ∈ s'.incidents.rows, i'.id = id → ∃ i ∈ s.incidents.rows, i.id = id ∧
      i'.component = i.component ∧ i'.quiet = i.quiet ∧
      (id = iid → s.subs.follows r i.component → i.quiet = false →
        ∀ l, Spoken i l → Spoken i' (l ++ [change]))) :
    Tuned r iid (s'.publishIncident cfg id change text now) := by
  have hr : r ∈ s'.subs.subscribers.rows := hsubs ▸ h.mem
  have hnone : s'.incidents.next ≤ iid → s'.incident iid = none := fun hle => by
    rw [Store.incident_eq_none_iff]
    exact fun i hi he => absurd (Store.id_lt_next hi) (by omega)
  refine ⟨by rwa [subscribers_publishIncident], h.active, fun hle => ?_, fun i' hi' hid hf => ?_⟩
  · rw [Store.incidents_publishIncident] at hle
    by_cases hne : id = iid
    · subst hne
      rw [Store.publishIncident_of_none (hnone hle), hsubs]
      exact h.unheard (hnext ▸ hle)
    · rw [heard_publish_other hne, hsubs]
      exact h.unheard (hnext ▸ hle)
  · rw [Store.incidents_publishIncident] at hi'
    rw [follows_publishIncident] at hf
    subst hid
    by_cases hne : id = i'.id
    · obtain ⟨i, hi, hii, hcomp, hquiet, hspoken⟩ := hsame i' hi' hne.symm
      have hfind : s'.incident i'.id = some i' := Store.incident_eq_some_iff.mpr ⟨hi', rfl⟩
      have hfollows : s.subs.follows r i.component := by
        rw [← hcomp, ← hsubs]
        exact hf
      have hold := h.spoken i hi (hii.trans hne) hfollows
      subst hne
      cases hq : i'.quiet with
      | true =>
        rw [Store.publishIncident_of_quiet hfind hq, hsubs]
        rw [Spoken, if_pos (hquiet.symm.trans hq)] at hold
        rwa [Spoken, if_pos hq]
      | false =>
        rw [heard_publish_same hr h.active hfind hq he hf, hsubs]
        exact hspoken rfl hfollows (hquiet.symm.trans hq) _ hold
    · rw [heard_publish_other hne, hsubs]
      exact h.spoken i' (hother i' hi' (Ne.symm hne)) rfl (by rw [← hsubs]; exact hf)

/-- A new incident of which nothing is published. -/
theorem create_quiet (h : Tuned r iid s) {i₀ : Incident} (hid : i₀.id = s.incidents.next)
    (hquiet : i₀.quiet = true) (hsubs : s'.subs = s.subs)
    (hnext : s'.incidents.next = s.incidents.next + 1)
    (hrows : s'.incidents.rows = s.incidents.rows ++ [i₀]) : Tuned r iid s' := by
  refine ⟨hsubs ▸ h.mem, h.active, fun hle => ?_, fun i hi hii hf => ?_⟩
  · rw [hsubs]
    exact h.unheard (by omega)
  · rw [hsubs] at hf ⊢
    rw [hrows, List.mem_append, List.mem_singleton] at hi
    rcases hi with hi | rfl
    · exact h.spoken i hi hii hf
    · rw [Spoken, if_pos hquiet]
      exact h.unheard (by omega)

/-- A new incident whose opening is published. -/
theorem create_loud (h : Tuned r iid s) (he : cfg.subscriptions.enabled = true) {i₀ : Incident}
    (hid : i₀.id = s.incidents.next) (hquiet : i₀.quiet = false) (hact : i₀.isActive)
    (hsubs : s'.subs = s.subs) (hnext : s'.incidents.next = s.incidents.next + 1)
    (hrows : s'.incidents.rows = s.incidents.rows ++ [i₀]) :
    Tuned r iid (s'.publishIncident cfg s.incidents.next .opened text now) := by
  have hr : r ∈ s'.subs.subscribers.rows := hsubs ▸ h.mem
  have hother : ∀ i ∈ s.incidents.rows, i.id ≠ s.incidents.next :=
    fun i hi => Int.ne_of_lt (Store.id_lt_next hi)
  refine ⟨by rwa [subscribers_publishIncident], h.active, fun hle => ?_, fun i hi hii hf => ?_⟩
  · rw [Store.incidents_publishIncident] at hle
    rw [heard_publish_other (by omega), hsubs]
    exact h.unheard (by omega)
  · rw [Store.incidents_publishIncident, hrows, List.mem_append, List.mem_singleton] at hi
    rw [follows_publishIncident] at hf
    rcases hi with hi | rfl
    · rw [heard_publish_other (by rw [← hii]; exact (hother i hi).symm), hsubs]
      exact h.spoken i hi hii (by rw [← hsubs]; exact hf)
    · subst hii
      have hfind : s'.incident i.id = some i := by
        rw [Store.incident_eq_some_iff, hrows]
        exact ⟨List.mem_append_right _ List.mem_cons_self, rfl⟩
      rw [← hid, heard_publish_same hr h.active hfind hquiet he hf, hsubs,
        h.unheard (by omega), Spoken, if_neg (by simp [hquiet]), if_pos hact]
      exact ⟨0, rfl⟩

/-- Closing an incident and telling so, when it was open as far as the subscriber is concerned. -/
theorem resolve (h : Tuned r iid s) (he : cfg.subscriptions.enabled = true) {ts : ℤ}
    (hsubs : s'.subs = s.subs) (hinc : s'.incidents = (s.resolveIncident id ts).incidents)
    (hopen : id = iid → ∀ i ∈ s.incidents.rows, i.id = id → s.subs.follows r i.component →
      i.quiet = false → i.isActive) :
    Tuned r iid (s'.publishIncident cfg id .resolved text now) := by
  refine h.announce he hsubs (by rw [hinc]; rfl) (fun i' hi' hne => ?_) fun i' hi' hid => ?_
  all_goals
    rw [hinc, Store.mem_resolveIncident] at hi'
    obtain ⟨i, hi, hif⟩ := hi'
    split at hif
    subst hif
  · exact absurd ‹_› hne
  · exact hif ▸ hi
  · rename_i hii
    refine ⟨i, hi, hii, rfl, rfl, fun hiid hf hq l hl => ?_⟩
    exact hl.closed (hopen hiid i hi hii hf hq) hq ts
  · exact absurd (hif ▸ hid) ‹_›

theorem recovered (h : Tuned r iid s) (he : cfg.subscriptions.enabled = true) {input : AlertInput}
    (hopen : ∀ i ∈ s.incidents.rows, i.id = id → i.isActive) :
    Tuned r iid (s.recovered (some cfg) input id) :=
  h.resolve he rfl rfl fun _ i hi hid _ _ => hopen i hi hid

theorem forgotOne (h : Tuned r iid s) (he : cfg.subscriptions.enabled = true)
    {previous : Option Config} {i : Incident}
    (hopen : ∀ j ∈ s.incidents.rows, j.id = i.id → j.isActive) :
    Tuned r iid (s.forgotOne cfg previous now i) := by
  rw [Store.forgotOne]
  split
  · exact h.resolve he rfl rfl fun _ j hj hid _ _ => hopen j hj hid
  · exact h

/-- Abandoned incidents are resolved one after the other, each while it is open. -/
theorem foldl_forgotOne (he : cfg.subscriptions.enabled = true) {previous : Option Config}
    (l : List Incident) (s : Store) (h : Tuned r iid s) (hnodup : (l.map (·.id)).Nodup)
    (hopen : ∀ i ∈ l, ∀ j ∈ s.incidents.rows, j.id = i.id → j.isActive) :
    Tuned r iid (l.foldl (Store.forgotOne cfg previous now) s) := by
  induction l generalizing s with
  | nil => exact h
  | cons i l ih =>
    rw [List.map_cons, List.nodup_cons] at hnodup
    refine ih _ (h.forgotOne he (hopen i List.mem_cons_self)) hnodup.2 fun k hk j hj hjk => ?_
    rw [Store.rows_forgotOne, List.mem_map] at hj
    obtain ⟨j₀, hj₀, rfl⟩ := hj
    have hne : j₀.id ≠ i.id := fun he => by
      have hjk' : j₀.id = k.id := by
        rw [← hjk]
        split <;> rfl
      exact hnodup.1 (List.mem_map.mpr ⟨k, hk, hjk'.symm.trans he⟩)
    rw [if_neg fun hc => hne hc.2] at hjk ⊢
    exact hopen k (List.mem_cons_of_mem _ hk) j₀ hj₀ hjk

theorem forgotten (h : Tuned r iid s) (he : cfg.subscriptions.enabled = true) {pf : Platform}
    {previous : Option Config} : Tuned r iid (s.forgotten pf cfg previous now) := by
  refine foldl_forgotOne he _ _ h Store.nodup_activeIncidents fun i hi j hj hji => ?_
  obtain ⟨hi, hact⟩ := Store.mem_activeIncidents.mp hi
  obtain rfl : j = i := Table.eq_of_id hj hi hji
  exact hact

theorem opened (h : Tuned r iid s) (he : cfg.subscriptions.enabled = true) {pf : Platform}
    {input : AlertInput} : Tuned r iid (s.opened pf (some cfg) input) := by
  have hrows : (s.opened pf (some cfg) input).incidents.rows =
      s.incidents.rows ++ [Store.autoIncident input s.incidents.next] := Store.rows_opened
  rw [Store.opened] at hrows ⊢
  cases hm : input.muted with
  | true =>
    simp only [hm, if_true] at hrows ⊢
    exact h.create_quiet rfl (by simp [Store.autoIncident, hm]) rfl rfl hrows
  | false =>
    simp only [hm, Bool.false_eq_true, if_false] at hrows ⊢
    rw [Store.incidents_publishIncident] at hrows
    exact h.create_loud he rfl (by simp [Store.autoIncident, hm]) rfl rfl rfl hrows

theorem operatorCreated (h : Tuned r iid s) (he : cfg.subscriptions.enabled = true)
    {form : CreateIncidentForm} : Tuned r iid (s.operatorCreated cfg form now) := by
  have hid : (Store.newIncident form.componentId form.title form.impactState .investigating false
      now s.incidents.next).id = s.incidents.next := rfl
  exact h.create_loud he hid rfl rfl rfl rfl rfl

theorem operatorResolved (h : Tuned r iid s) (he : cfg.subscriptions.enabled = true)
    (hopen : id = iid → ∀ i ∈ s.incidents.rows, i.id = id → s.subs.follows r i.component →
      i.quiet = false → i.isActive) :
    Tuned r iid (s.operatorResolved cfg id now) :=
  h.resolve he rfl rfl hopen

theorem operatorUpdated (h : Tuned r iid s) (he : cfg.subscriptions.enabled = true)
    {form : UpdateForm}
    (hopen : id = iid → ∀ i ∈ s.incidents.rows, i.id = id → s.subs.follows r i.component →
      i.quiet = false → i.isActive) :
    Tuned r iid (s.operatorUpdated cfg id form now) := by
  rw [Store.operatorUpdated, changeFor]
  by_cases hres : form.incidentState = .resolved
  · simp only [hres, if_true]
    exact h.resolve he rfl rfl hopen
  · simp only [hres, if_false]
    refine h.announce he rfl rfl (fun i' hi' hne => ?_) fun i' hi' hid => ?_
    all_goals
      obtain ⟨i, hi, hif⟩ := (Store.mem_setIncidentState (s := s)).mp hi'
      split at hif
      subst hif
    · exact absurd ‹_› hne
    · exact hif ▸ hi
    · rename_i hii
      refine ⟨i, hi, hii, rfl, rfl, fun hiid hf hq l hl => ?_⟩
      exact hl.updated (hopen hiid i hi hii hf hq) hq _
    · exact absurd (hif ▸ hid) ‹_›

end Tuned

/-! ### One operation -/

/-- Subscriptions are switched on in the config an operation reads. -/
def Enabled (w : World) : Op → Prop
  | .start cfg _ | .reload cfg _ => cfg.subscriptions.enabled
  | .follow => True
  | .handle _ => w.engine.subscriptions.any (·.subscriptions.enabled)
  | .create .. | .update .. | .resolve .. => w.running.subscriptions.enabled

instance (w : World) : (op : Op) → Decidable (Enabled w op)
  | .start _ _ | .reload _ _ => inferInstanceAs (Decidable (_ = true))
  | .follow => isTrue trivial
  | .handle _ | .create .. | .update .. | .resolve .. => inferInstanceAs (Decidable (_ = true))

/-- The incident `iid` is not one the subscriber has heard the end of. -/
def StillOpen (r : Subscriber) (iid : ℤ) (s : Store) : Prop :=
  ∀ i ∈ s.incidents.rows, i.id = iid → s.subs.follows r i.component → i.quiet = false → i.isActive

instance (r : Subscriber) (iid : ℤ) (s : Store) : Decidable (StillOpen r iid s) :=
  inferInstanceAs (Decidable (∀ i ∈ s.incidents.rows, _ → _ → _ → _))

/-- The operator does not update or resolve the incident once it is closed. -/
def Orderly (r : Subscriber) (iid : ℤ) (w : World) : Op → Prop
  | .update id _ _ | .resolve id _ => id = iid → StillOpen r iid w.store
  | _ => True

instance (r : Subscriber) (iid : ℤ) (w : World) : (op : Op) → Decidable (Orderly r iid w op)
  | .update .. | .resolve .. => inferInstanceAs (Decidable (_ → _))
  | .start .. | .reload .. | .follow | .handle _ | .create .. => isTrue trivial

/-- What a subscriber to whom the incident `iid` is news has been told about it. -/
def ToldWell (r : Subscriber) (iid : ℤ) (s : Store) : Prop :=
  ∀ i ∈ s.incidents.rows, i.id = iid → s.subs.follows r i.component →
    Grammatical (heard s.subs r.id iid)

instance (r : Subscriber) (iid : ℤ) (s : Store) : Decidable (ToldWell r iid s) :=
  inferInstanceAs (Decidable (∀ i ∈ s.incidents.rows, _ → _ → _))

variable {pf : Platform} {w : World} {r : Subscriber} {iid : ℤ}

theorem Tuned.toldWell {s : Store} (h : Tuned r iid s) : ToldWell r iid s :=
  fun i hi hid hf => (h.spoken i hi hid hf).grammatical

theorem Tuned.handle {input : AlertInput} (h : Tuned r iid w.store)
    (he : Enabled w (.handle input)) : Tuned r iid (fedStore pf w input) := by
  obtain ⟨cfg, hcfg, he⟩ := (Option.any_eq_true _ _).mp he
  rw [fedStore]
  rw [hcfg]
  split
  · split
    · exact h
    · exact h.opened he
  · split
    · split
      · rename_i id hid
        obtain ⟨i, hi, rfl, hact, -, -⟩ := exists_of_effective hid
        refine h.recovered he fun j hj hji => ?_
        obtain rfl : j = i := Table.eq_of_id hj hi hji
        exact hact
      · exact h
    · exact h

/-- An orderly operation keeps the invariant. -/
theorem Tuned.step {op : Op} (h : Tuned r iid w.store) (he : Enabled w op)
    (hop : Orderly r iid w op) : Tuned r iid (step pf w op).store := by
  cases op with
  | start cfg now =>
    rw [store_start]
    exact h.forgotten he
  | reload cfg now =>
    rw [store_reload]
    exact h.forgotten he
  | follow => exact h
  | handle input =>
    rw [step_handle, store_handled]
    exact h.handle he
  | create form now =>
    rw [step_create]
    exact h.operatorCreated he
  | update id form now =>
    rw [step_update]
    split
    · exact h.operatorUpdated he fun hid => hid ▸ hop hid
    · exact h
  | resolve id now =>
    rw [step_resolve]
    split
    · exact h.operatorResolved he fun hid => hid ▸ hop hid
    · exact h

/-- A message about an incident that is closed already breaks the grammar. -/
theorem Tuned.broken {s s' : Store} (h : Tuned r iid s) {cfg : Config}
    (he : cfg.subscriptions.enabled = true) {i i' : Incident} (hi : i ∈ s.incidents.rows)
    (hid : i.id = iid) (hf : s.subs.follows r i.component) (hq : i.quiet = false)
    (hclosed : ¬i.isActive) (hsubs : s'.subs = s.subs) (hi' : i' ∈ s'.incidents.rows)
    (hev : i'.id = i.id ∧ i'.component = i.component ∧ i'.quiet = i.quiet)
    {change : IncidentChange} {text : String} {now : ℤ} :
    ¬ToldWell r iid (s'.publishIncident cfg iid change text now) := by
  intro htold
  have hid' : i'.id = iid := hev.1.trans hid
  have hf' : s'.subs.follows r i'.component := by rwa [hev.2.1, hsubs]
  have hgram := htold i' (by rwa [Store.incidents_publishIncident]) hid'
    (by rwa [Tuned.follows_publishIncident])
  rw [heard_publish_same (hsubs ▸ h.mem) h.active
    (Store.incident_eq_some_iff.mpr ⟨hi', hid'⟩) (hev.2.2.trans hq) he hf', hsubs] at hgram
  have hspoken := h.spoken i hi hid hf
  rw [Spoken, if_neg (by simp [hq]), if_neg hclosed] at hspoken
  obtain ⟨n, hn⟩ := hspoken
  refine not_grammatical_of_resolved ?_ change hgram
  rw [hn]
  exact List.mem_cons_of_mem _ (List.mem_append_right _ List.mem_cons_self)

/-- Any other operation breaks the grammar. -/
theorem Tuned.orderly {op : Op} (h : Tuned r iid w.store) (he : Enabled w op)
    (htold : ToldWell r iid (Dunlin.step pf w op).store) : Orderly r iid w op := by
  cases op with
  | start | reload | follow | handle | create => trivial
  | update id form now =>
    rintro rfl i hi hid hf hq
    by_contra hclosed
    rw [step_update, if_pos (Store.exists_incident_iff.mpr ⟨i, hi, hid⟩)] at htold
    have hev : (Store.afterUpdate form now i).id = i.id ∧
        (Store.afterUpdate form now i).component = i.component ∧
          (Store.afterUpdate form now i).quiet = i.quiet := by
      unfold Store.afterUpdate
      split <;> exact ⟨rfl, rfl, rfl⟩
    have hrow : Store.afterUpdate form now i ∈
        (w.store.operatorUpdated w.running id form now).incidents.rows :=
      (Store.mem_operatorUpdated form).mpr ⟨i, hi, if_pos hid⟩
    unfold Store.operatorUpdated at hrow
    rw [Store.incidents_publishIncident] at hrow
    refine h.broken he hi hid hf hq hclosed ?_ hrow hev htold
    split <;> rfl
  | resolve id now =>
    rintro rfl i hi hid hf hq
    by_contra hclosed
    rw [step_resolve, if_pos (Store.exists_incident_iff.mpr ⟨i, hi, hid⟩)] at htold
    have hrow : i.closed now ∈ ((w.store.resolveIncident id now).addUpdate id now .resolved
        "Resolved by operator." false).incidents.rows :=
      Store.mem_resolveIncident.mpr ⟨i, hi, if_pos hid⟩
    have hsubs : ((w.store.resolveIncident id now).addUpdate id now .resolved
        "Resolved by operator." false).subs = w.store.subs := rfl
    exact h.broken he hi hid hf hq hclosed hsubs hrow ⟨rfl, rfl, rfl⟩ htold

/-! ### Runs -/

/-- **What a subscriber hears about an incident.** Along a run with subscriptions on, from a state
in which the subscriber is active and the incident not yet open, what was queued to it about the
incident reads `opened updated* resolved?` after every operation if and only if the operator never
updates or resolves the incident when it is closed. -/
theorem grammar_iff (w : World) (ops : List Op) (hr : r ∈ w.store.subs.subscribers.rows)
    (hactive : r.status = .active) (hnew : w.store.incidents.next ≤ iid)
    (hunheard : heard w.store.subs r.id iid = []) (h : Always (step pf) Enabled w ops) :
    Always (step pf) (fun w op => ToldWell r iid (step pf w op).store) w ops ↔
      Always (step pf) (Orderly r iid) w ops := by
  have h₀ : Tuned r iid w.store := by
    refine ⟨hr, hactive, fun _ => hunheard, fun i hi hid _ => ?_⟩
    exact absurd (Store.id_lt_next hi) (by omega)
  exact h.iff_of_inv h₀
    (fun w op (hw : Tuned r iid w.store) he =>
      ⟨hw.orderly he, fun hop => (hw.step he hop).toldWell⟩)
    fun w op hw he hop => hw.step he hop

/-- A small site with one subscriber, on which nothing has happened yet. -/
def listened : World :=
  .initial
    { Store.empty with subs := listenerSubs }
    quickConfig

/-- The operator opens an incident, comments on it and resolves it. -/
theorem grammar_kept :
    Always (step .ascii) (fun w op => ToldWell listener 1 (step .ascii w op).store) listened
        [.create { component := "web", title := "Slow" } 1, .update 1 ⟨"identified", "Disk."⟩ 2,
          .resolve 1 3] ↔
      Always (step .ascii) (Orderly listener 1) listened
        [.create { component := "web", title := "Slow" } 1, .update 1 ⟨"identified", "Disk."⟩ 2,
          .resolve 1 3] :=
  grammar_iff listened _ (by decide) rfl (by decide) (by decide) (by decide)

/-- **Subscribers are told twice that an incident is resolved**: the operator posts a last update on
a resolved incident, in the state `resolved`, and it goes out as another resolution. -/
theorem resolved_twice :
    Always (step .ascii) Enabled listened
        [.create { component := "web", title := "Slow" } 1, .resolve 1 2,
          .update 1 ⟨"resolved", "Postmortem."⟩ 3] ∧
      ¬Always (step .ascii) (fun w op => ToldWell listener 1 (step .ascii w op).store) listened
        [.create { component := "web", title := "Slow" } 1, .resolve 1 2,
          .update 1 ⟨"resolved", "Postmortem."⟩ 3] := by
  decide

end Dunlin

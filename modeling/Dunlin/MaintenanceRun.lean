import Dunlin.Maintenance

/-!
# What is said about a maintenance window

The messages an operation queues about windows, and the rows it leaves. A step only adds messages,
so `Subs.Tells s s' f` says all there is to say: `f r wid` lists what the subscriber `r` is newly
told about the window `wid`. The main result is `tells_tick`: a tick tells those who want to hear of
a window what is due of it (`Maintenance.due`), whatever order the windows come in.

A tick claims its windows one by one, and each claim queues messages about its own window and no
other (`Claims`). So the messages about one window do not depend on where it stands among the rest.

## Main results

* `rows_tick`, `tells_tick` — the rows and the messages of a tick
* `startMaintenance_cases` — what planning a window does
* `onlyMaintenance_step` — windows are all that these operations speak of
* `rows_endMaintenance` — ending a window moves its end
-/

namespace Dunlin

open Lib

/-! ### The messages about a window -/

/-- What subscribers hear about a window. -/
inductive MaintenanceChange
  | scheduled
  | started
  | completed
  | cancelled
  deriving DecidableEq, Repr

/-- The window an event is about, and what it says happened. -/
def SubscriberEvent.maintenanceChange : SubscriberEvent → Option (ℤ × MaintenanceChange)
  | .maintenanceScheduled e => some (e.maintenanceId, .scheduled)
  | .maintenanceStarted e => some (e.maintenanceId, .started)
  | .maintenanceCompleted e => some (e.maintenanceId, .completed)
  | .maintenanceCancelled e => some (e.maintenanceId, .cancelled)
  | _ => none

/-- What an event says about the window `wid`. -/
def SubscriberEvent.announces (wid : ℤ) (event : SubscriberEvent) : Option MaintenanceChange :=
  event.maintenanceChange.bind fun c => if c.1 = wid then some c.2 else none

/-- What a message tells the subscriber `sid` about the window `wid`. -/
def OutboxRow.tells (sid wid : ℤ) (o : OutboxRow) : Option MaintenanceChange :=
  if o.subscriberId = sid then
    match o.payload with
    | .json event => event.announces wid
    | .braces => none
  else none

/-- What messages tell a subscriber about a window, oldest first. -/
def newsOf (rows : List OutboxRow) (sid wid : ℤ) : List MaintenanceChange :=
  rows.filterMap (·.tells sid wid)

/-- What a subscriber has been told about a window. -/
def told (s : Subs) (sid wid : ℤ) : List MaintenanceChange := newsOf s.outbox.rows sid wid

/-- Whether news of maintenance on a component goes to a subscriber. -/
def Subs.wants (s : Subs) (r : Subscriber) (component : String) : Bool :=
  r.status == .active && r.maintenance &&
    (component == "" || r.allComponents ||
      s.components.any fun c => c.1 == r.id && c.2 == component)

/-- From `s` to `s'` messages are only added, and `f r wid` is what they tell `r` about `wid`. -/
structure Subs.Tells (s s' : Subs) (f : Subscriber → ℤ → List MaintenanceChange) : Prop where
  subscribers : s'.subscribers = s.subscribers
  components : s'.components = s.components
  next : s.outbox.next ≤ s'.outbox.next
  added : ∃ new, s'.outbox.rows = s.outbox.rows ++ new ∧
    (∀ o ∈ new, s.outbox.next ≤ o.id ∧ ∃ r ∈ s.subscribers.rows, r.id = o.subscriberId) ∧
    ∀ r ∈ s.subscribers.rows, ∀ wid, newsOf new r.id wid = f r wid

namespace Subs.Tells

variable {s s₁ s₂ : Subs} {f g : Subscriber → ℤ → List MaintenanceChange} {r : Subscriber}
  {wid : ℤ}

theorem refl (s : Subs) : s.Tells s fun _ _ => [] :=
  ⟨rfl, rfl, Int.le_refl _, [], by simp, by simp, fun _ _ _ => rfl⟩

theorem trans (h₁ : s.Tells s₁ f) (h₂ : s₁.Tells s₂ g) :
    s.Tells s₂ fun r wid => f r wid ++ g r wid := by
  obtain ⟨new₁, hrows₁, hids₁, hnews₁⟩ := h₁.added
  obtain ⟨new₂, hrows₂, hids₂, hnews₂⟩ := h₂.added
  refine ⟨h₂.subscribers.trans h₁.subscribers, h₂.components.trans h₁.components,
    Int.le_trans h₁.next h₂.next, new₁ ++ new₂, ?_, fun o ho => ?_, fun r hr wid => ?_⟩
  · rw [hrows₂, hrows₁, List.append_assoc]
  · rcases List.mem_append.mp ho with ho | ho
    · exact hids₁ o ho
    · obtain ⟨hid, howner⟩ := hids₂ o ho
      exact ⟨Int.le_trans h₁.next hid, h₁.subscribers ▸ howner⟩
  · rw [newsOf, List.filterMap_append, ← newsOf, ← newsOf, hnews₁ r hr, hnews₂ r]
    rwa [h₁.subscribers]

theorem congr (h : s.Tells s₁ f) (hfg : ∀ r ∈ s.subscribers.rows, ∀ wid, f r wid = g r wid) :
    s.Tells s₁ g := by
  obtain ⟨new, hrows, hids, hnews⟩ := h.added
  exact ⟨h.subscribers, h.components, h.next, new, hrows, hids,
    fun r hr wid => (hnews r hr wid).trans (hfg r hr wid)⟩

theorem wants (h : s.Tells s₁ f) (r : Subscriber) (component : String) :
    s₁.wants r component = s.wants r component := by
  rw [Subs.wants, Subs.wants, h.components]

theorem told (h : s.Tells s₁ f) (hr : r ∈ s.subscribers.rows) :
    told s₁ r.id wid = Dunlin.told s r.id wid ++ f r wid := by
  obtain ⟨new, hrows, -, hnews⟩ := h.added
  rw [Dunlin.told, hrows, newsOf, List.filterMap_append, ← newsOf, ← newsOf, hnews r hr]
  rfl

/-- The messages added are the ones with fresh ids. -/
theorem exists_added_iff (h : s.Tells s₁ f) {sid : ℤ} {c : MaintenanceChange} :
    (∃ o ∈ s₁.outbox.rows, s.outbox.next ≤ o.id ∧ o.tells sid wid = some c) ↔
      ∃ r ∈ s.subscribers.rows, r.id = sid ∧ c ∈ f r wid := by
  obtain ⟨new, hrows, hids, hnews⟩ := h.added
  constructor
  · rintro ⟨o, ho, hid, htells⟩
    rw [hrows] at ho
    rcases List.mem_append.mp ho with ho | ho
    · exact absurd (s.outbox.lt_next o ho) (Int.not_lt.mpr hid)
    · obtain ⟨-, r, hr, hrid⟩ := hids o ho
      have hsid : o.subscriberId = sid := by
        by_contra hne
        rw [OutboxRow.tells, if_neg hne] at htells
        cases htells
      have hsid' : r.id = sid := hrid.trans hsid
      refine ⟨r, hr, hsid', ?_⟩
      rw [← hnews r hr, newsOf, List.mem_filterMap, hsid']
      exact ⟨o, ho, htells⟩
  · rintro ⟨r, hr, rfl, hc⟩
    rw [← hnews r hr, newsOf, List.mem_filterMap] at hc
    obtain ⟨o, ho, htells⟩ := hc
    exact ⟨o, hrows ▸ List.mem_append_right _ ho, (hids o ho).1, htells⟩

/-- Queueing an event tells everyone it concerns. -/
theorem fanOut (s : Subs) (event : SubscriberEvent) (now : ℤ) :
    s.Tells (s.fanOut event now) fun r wid =>
      if s.concerns event r then (event.announces wid).toList else [] := by
  refine ⟨rfl, rfl, Table.next_le_insertMany _ _ _, _, Table.rows_insertMany _ _ _, ?_, ?_⟩
  · intro o ho
    obtain ⟨q, hq, rfl⟩ := List.mem_map.mp ho
    obtain ⟨hid, hmem⟩ := Table.mem_numbered hq
    exact ⟨hid, q.2, List.mem_of_mem_filter hmem, rfl⟩
  · intro r hr wid
    have hfilter : newsOf ((Table.numbered s.outbox.next
        (s.subscribers.rows.filter (s.concerns event))).map
          fun q => OutboxRow.queued q.2.id event.kind (.json event) now q.1) r.id wid =
        (s.subscribers.rows.filter (s.concerns event)).filterMap
          fun r' => if r'.id = r.id then event.announces wid else none := by
      conv_rhs => rw [← Table.map_snd_numbered s.outbox.next
        (s.subscribers.rows.filter (s.concerns event)), List.filterMap_map]
      rw [newsOf, List.filterMap_map]
      rfl
    rw [hfilter]
    split
    · rename_i hc
      exact Table.filterMap_of_mem (s.subscribers.sorted.filter _)
        (List.mem_filter.mpr ⟨hr, hc⟩) _
    · rename_i hc
      rw [List.filterMap_eq_nil_iff]
      intro r' hr'
      obtain ⟨hr', hc'⟩ := List.mem_filter.mp hr'
      refine if_neg fun hid => hc ?_
      rwa [← Table.eq_of_id hr' hr hid]

end Subs.Tells

/-- Whom news of a window concerns. -/
theorem Subs.concerns_of_isMaintenance {s : Subs} {event : SubscriberEvent}
    (h : event.isMaintenance = true) (r : Subscriber) :
    s.concerns event r = s.wants r event.component := by
  simp [Subs.concerns, Subs.wants, h, Bool.and_assoc]

/-- An event about a window, or none, told to those who want to hear of it. -/
def Subs.announce (s : Subs) (event : Option SubscriberEvent) (now : ℤ) : Subs :=
  match event with
  | some event => s.fanOut event now
  | none => s

/-- What an announcement about the window `m` says. -/
def said (event : Option SubscriberEvent) (m : Maintenance) : List MaintenanceChange :=
  (event.bind (·.announces m.id)).toList

/-- The event is one about the window `m`. -/
def Maintenance.OwnEvent (m : Maintenance) (event : Option SubscriberEvent) : Prop :=
  ∀ e ∈ event, e.isMaintenance = true ∧ e.component = m.component ∧
    ∃ c, e.maintenanceChange = some (m.id, c)

theorem Subs.Tells.announce (s : Subs) {event : Option SubscriberEvent} {m : Maintenance}
    (h : m.OwnEvent event) (now : ℤ) :
    s.Tells (s.announce event now) fun r wid =>
      if m.id = wid ∧ s.wants r m.component then said event m else [] := by
  cases event with
  | none => exact (Subs.Tells.refl s).congr fun r hr wid => by simp [said]
  | some e =>
    obtain ⟨hmaint, hcomp, c, hchange⟩ := h e rfl
    refine (Subs.Tells.fanOut s e now).congr fun r hr wid => ?_
    rw [Subs.concerns_of_isMaintenance hmaint, hcomp]
    by_cases hid : m.id = wid
    · subst hid
      simp only [said, Option.bind_some, true_and]
    · have hsays : e.announces wid = none := by simp [SubscriberEvent.announces, hchange, hid]
      simp [hid, hsays]

/-! ### Claiming windows one by one -/

/-- One half of a tick: claiming a window that meets `p` rewrites its row by `f`, so that it cannot
be claimed again, and announces its event. -/
structure Claims (now : ℤ) (claim : Upkeep → Maintenance → Upkeep) (p : Maintenance → Bool)
    (f : Maintenance → Maintenance) (event : Maintenance → Option SubscriberEvent) : Prop where
  id : ∀ m : Maintenance, (f m).id = m.id
  once : ∀ m, p (f m) = false
  rows : ∀ u m, (claim u m).windows.rows =
    u.windows.rows.map fun m' => if m'.id = m.id ∧ p m' = true then f m' else m'
  next : ∀ u m, (claim u m).windows.next = u.windows.next
  subs : ∀ u m, m ∈ u.windows.rows → p m = true →
    (claim u m).subs = u.subs.announce (event m) now
  own : ∀ m : Maintenance, m.OwnEvent (event m)

namespace Claims

variable {now : ℤ} {claim : Upkeep → Maintenance → Upkeep} {p : Maintenance → Bool}
  {f : Maintenance → Maintenance} {event : Maintenance → Option SubscriberEvent}

theorem rows_foldl (h : Claims now claim p f event) (l : List Maintenance) (u : Upkeep) :
    (l.foldl claim u).windows.rows = u.windows.rows.map fun m =>
      if m.id ∈ l.map (·.id) ∧ p m = true then f m else m := by
  induction l generalizing u with
  | nil => simp
  | cons m₀ l ih =>
    rw [List.foldl_cons, ih, h.rows, List.map_map]
    refine List.map_congr_left fun m _ => ?_
    simp only [Function.comp_apply, List.map_cons, List.mem_cons]
    by_cases hone : m.id = m₀.id ∧ p m = true
    · rw [if_pos hone, if_neg fun hc => Bool.false_ne_true ((h.once m).symm.trans hc.2),
        if_pos ⟨.inl hone.1, hone.2⟩]
    · rw [if_neg hone]
      refine if_congr ⟨fun hc => ⟨.inr hc.1, hc.2⟩, fun hc => ⟨?_, hc.2⟩⟩ rfl rfl
      exact hc.1.resolve_left fun hid => hone ⟨hid, hc.2⟩

theorem tells_foldl (h : Claims now claim p f event) (l : List Maintenance) (u : Upkeep)
    (hnodup : (l.map (·.id)).Nodup) (hl : ∀ m ∈ l, m ∈ u.windows.rows ∧ p m = true) :
    u.subs.Tells (l.foldl claim u).subs fun r wid => l.flatMap fun m =>
      if m.id = wid ∧ u.subs.wants r m.component then said (event m) m else [] := by
  induction l generalizing u with
  | nil => exact .refl _
  | cons m₀ l ih =>
    rw [List.map_cons, List.nodup_cons] at hnodup
    obtain ⟨hm₀, hp⟩ := hl m₀ List.mem_cons_self
    have hone := Subs.Tells.announce u.subs (h.own m₀) now
    rw [← h.subs u m₀ hm₀ hp] at hone
    have hrest := ih (claim u m₀) hnodup.2 fun m hm => by
      obtain ⟨hmem, hpm⟩ := hl m (List.mem_cons_of_mem _ hm)
      have hne : m.id ≠ m₀.id := fun hid => hnodup.1 (hid ▸ List.mem_map_of_mem hm)
      refine ⟨?_, hpm⟩
      rw [h.rows, List.mem_map]
      exact ⟨m, hmem, if_neg fun hc => hne hc.1⟩
    refine (hone.trans hrest).congr fun r hr wid => ?_
    simp only [hone.wants, List.flatMap_cons]

variable {key : Maintenance → ℤ} {q : Maintenance → Bool}

/-- The windows a half of a tick goes through. -/
theorem mem_sorted (o : OrderBy key) {u : Upkeep} {m : Maintenance} :
    m ∈ o.sort (u.windows.rows.filter fun m => p m && q m) ↔
      m ∈ u.windows.rows ∧ p m = true ∧ q m = true := by
  rw [o.mem_sort, List.mem_filter, Bool.and_eq_true]

theorem nodup_sorted (o : OrderBy key) {u : Upkeep} :
    ((o.sort (u.windows.rows.filter fun m => p m && q m)).map (·.id)).Nodup := by
  refine (((o.perm _).map _).nodup_iff).mpr (List.pairwise_map.mpr ?_)
  exact (u.windows.sorted.filter _).imp fun hlt => Int.ne_of_lt hlt

theorem rows_sorted (h : Claims now claim p f event) (o : OrderBy key) (u : Upkeep) :
    ((o.sort (u.windows.rows.filter fun m => p m && q m)).foldl claim u).windows.rows =
      u.windows.rows.map fun m => if p m = true ∧ q m = true then f m else m := by
  rw [h.rows_foldl]
  refine List.map_congr_left fun m hm => ?_
  have hmem : m.id ∈ (o.sort (u.windows.rows.filter fun m => p m && q m)).map (·.id) ↔
      p m = true ∧ q m = true := by
    rw [List.mem_map]
    constructor
    · rintro ⟨m', hm', hid⟩
      obtain ⟨hmem, hpq⟩ := (mem_sorted o).mp hm'
      rwa [← Table.eq_of_id hmem hm hid]
    · exact fun hpq => ⟨m, (mem_sorted o).mpr ⟨hm, hpq⟩, rfl⟩
  simp only [hmem]
  by_cases hp : p m = true <;> simp [hp]

/-- Only the window itself has something to say about itself. -/
theorem flatMap_of_nodup {l : List Maintenance} (hnodup : (l.map (·.id)).Nodup)
    (m₀ : Maintenance) (g : Maintenance → List MaintenanceChange)
    (hg : ∀ m ∈ l, m.id ≠ m₀.id → g m = []) :
    (m₀ ∈ l → l.flatMap g = g m₀) ∧ ((∀ m ∈ l, m.id ≠ m₀.id) → l.flatMap g = []) := by
  induction l with
  | nil => exact ⟨fun h => absurd h List.not_mem_nil, fun _ => rfl⟩
  | cons a l ih =>
    rw [List.map_cons, List.nodup_cons] at hnodup
    obtain ⟨ihmem, ihnone⟩ := ih hnodup.2 fun m hm => hg m (List.mem_cons_of_mem _ hm)
    rw [List.flatMap_cons]
    constructor
    · intro hmem
      rcases List.mem_cons.mp hmem with rfl | hmem
      · rw [ihnone fun m hm hid => hnodup.1 (hid ▸ List.mem_map_of_mem hm), List.append_nil]
      · rw [ihmem hmem, hg a List.mem_cons_self, List.nil_append]
        exact fun hid => hnodup.1 (hid ▸ List.mem_map_of_mem hmem)
    · intro hne
      rw [ihnone fun m hm => hne m (List.mem_cons_of_mem _ hm),
        hg a List.mem_cons_self (hne a List.mem_cons_self), List.append_nil]

theorem tells_sorted (h : Claims now claim p f event) (o : OrderBy key) (u : Upkeep) :
    u.subs.Tells ((o.sort (u.windows.rows.filter fun m => p m && q m)).foldl claim u).subs
      fun r wid => match u.windows.find? wid with
        | some m =>
          if p m = true ∧ q m = true ∧ u.subs.wants r m.component then said (event m) m else []
        | none => [] := by
  refine (h.tells_foldl _ u (nodup_sorted o) fun m hm => ?_).congr fun r hr wid => ?_
  · obtain ⟨hmem, hp, -⟩ := (mem_sorted o).mp hm
    exact ⟨hmem, hp⟩
  · cases hfind : u.windows.find? wid with
    | none =>
      rw [List.flatMap_eq_nil_iff]
      intro m hm
      have hne := Table.find?_eq_none_iff.mp hfind m ((mem_sorted o).mp hm).1
      exact if_neg fun hc => hne hc.1
    | some m =>
      obtain ⟨hm, hid⟩ := Table.find?_eq_some_iff.mp hfind
      obtain ⟨hin, hout⟩ := flatMap_of_nodup (nodup_sorted o) m
        (fun m => if m.id = wid ∧ u.subs.wants r m.component then said (event m) m else [])
        fun m' hm' hne => if_neg fun hc => hne (hc.1.trans hid.symm)
      by_cases hpq : p m = true ∧ q m = true
      · rw [hin ((mem_sorted o).mpr ⟨hm, hpq⟩)]
        simp only [show m.id = wid from hid, true_and, hpq]
      · rw [hout fun m' hm' hid => hpq ?_]
        · exact (if_neg fun hc => hpq ⟨hc.1, hc.2.1⟩).symm
        obtain ⟨hmem, hpq'⟩ := (mem_sorted o).mp hm'
        rwa [← Table.eq_of_id hmem hm hid]

end Claims

/-! ### A tick -/

/-- What a tick has to say about a window. -/
def Maintenance.due (now : ℤ) (m : Maintenance) : List MaintenanceChange :=
  (if m.startedSent = false ∧ m.startsAt ≤ now ∧ now < m.endsAt then [.started] else []) ++
    if m.completedSent = false ∧ m.endsAt ≤ now then
      if m.startsAt < m.endsAt then [.completed]
      else if m.scheduledSent = true then [.cancelled] else []
    else []

/-- The row after the first half of a tick. -/
def Maintenance.begun (now : ℤ) (m : Maintenance) : Maintenance :=
  { m with startedSent := m.startedSent || m.startsAt ≤ now }

theorem Maintenance.id_begun (now : ℤ) (m : Maintenance) : (m.begun now).id = m.id := rfl

/-- The row a tick leaves. -/
def Maintenance.ticked (now : ℤ) (m : Maintenance) : Maintenance :=
  { m with
    startedSent := m.startedSent || m.startsAt ≤ now || (!m.completedSent && m.endsAt ≤ now)
    completedSent := m.completedSent || m.endsAt ≤ now }

namespace Upkeep

variable {wo : WindowOrder} {cfg : Config} {now : ℤ} {u : Upkeep}

/-- A row is claimed once: without an unclaimed row the statement changes nothing. -/
theorem rows_claim (t : Table Maintenance) (id : ℤ) {p : Maintenance → Bool}
    {f : Maintenance → Maintenance} (hf) :
    (if (t.find? id).any p then t.update (fun m => m.id == id && p m) f hf else t).rows =
      t.rows.map fun m => if m.id = id ∧ p m = true then f m else m := by
  split
  · simp [Table.update]
  · rename_i hnone
    conv_lhs => rw [← List.map_id t.rows]
    refine List.map_congr_left fun m hm => ?_
    rw [if_neg fun hc => hnone ?_, id_eq]
    rw [Table.find?_eq_some_iff.mpr ⟨hm, hc.1⟩]
    exact hc.2

theorem claims_started (now : ℤ) (he : cfg.subscriptions.enabled = true) :
    Claims now (claimStarted cfg now) (!·.startedSent) (fun m => { m with startedSent := true })
      fun m => if m.endsAt > now then some (.maintenanceStarted (maintenanceEvent cfg m))
        else none where
  id m := rfl
  once m := rfl
  rows u m := by
    have hrows := rows_claim u.windows m.id (p := fun m => !m.startedSent)
      (f := fun m => { m with startedSent := true }) fun _ => rfl
    rw [← hrows]
    rw [claimStarted]
    split <;> rfl
  next u m := by
    rw [claimStarted]
    split <;> rfl
  subs u m hm hp := by
    have hclaimed : (u.windows.find? m.id).any (!·.startedSent) = true := by
      have hfind : u.windows.find? m.id = some m := Table.find?_eq_some_iff.mpr ⟨hm, rfl⟩
      rw [hfind]
      exact hp
    rw [claimStarted]
    rw [if_pos hclaimed]
    by_cases hends : m.endsAt > now <;> simp [he, hends, Subs.announce]
  own m e h := by
    split at h
    · obtain rfl := Option.mem_some_iff.mp h
      exact ⟨rfl, rfl, .started, rfl⟩
    · exact absurd h (Option.not_mem_none e)

theorem claims_completed (now : ℤ) (he : cfg.subscriptions.enabled = true) :
    Claims now (claimCompleted cfg now) (!·.completedSent)
      (fun m => { m with completedSent := true, startedSent := true }) (closing cfg) where
  id m := rfl
  once m := rfl
  rows u m := by
    have hrows := rows_claim u.windows m.id (p := fun m => !m.completedSent)
      (f := fun m => { m with completedSent := true, startedSent := true }) fun _ => rfl
    rw [← hrows]
    unfold claimCompleted
    split <;> rfl
  next u m := by
    unfold claimCompleted
    split <;> rfl
  subs u m hm hp := by
    have hclaimed : (u.windows.find? m.id).any (!·.completedSent) = true := by
      have hfind : u.windows.find? m.id = some m := Table.find?_eq_some_iff.mpr ⟨hm, rfl⟩
      rw [hfind]
      exact hp
    unfold claimCompleted
    rw [if_pos hclaimed, if_pos he]
    rfl
  own m e h := by
    unfold closing at h
    dsimp only at h
    split at h
    · obtain rfl := Option.mem_some_iff.mp h
      exact ⟨rfl, rfl, .completed, rfl⟩
    · split at h
      · obtain rfl := Option.mem_some_iff.mp h
        exact ⟨rfl, rfl, .cancelled, rfl⟩
      · exact absurd h (Option.not_mem_none e)

theorem said_started (m : Maintenance) :
    said (if m.endsAt > now then some (.maintenanceStarted (maintenanceEvent cfg m)) else none) m =
      if now < m.endsAt then [.started] else [] := by
  by_cases h : now < m.endsAt <;>
    simp [said, h, SubscriberEvent.announces, SubscriberEvent.maintenanceChange, maintenanceEvent]

theorem said_closing (m : Maintenance) :
    said (closing cfg m) m =
      if m.startsAt < m.endsAt then [.completed]
      else if m.scheduledSent = true then [.cancelled] else [] := by
  by_cases h : m.startsAt < m.endsAt <;> cases hs : m.scheduledSent <;>
    simp [said, closing, h, hs, SubscriberEvent.announces, SubscriberEvent.maintenanceChange,
      maintenanceEvent]

/-- Looking up a window after its table was rewritten row by row. -/
theorem find?_of_rows {t t' : Table Maintenance} {f : Maintenance → Maintenance}
    (hf : ∀ m, (f m).id = m.id) (h : t'.rows = t.rows.map f) (id : ℤ) :
    t'.find? id = (t.find? id).map f := by
  cases hfind : t.find? id with
  | none =>
    refine Table.find?_eq_none_iff.mpr fun m' hm' => ?_
    rw [h, List.mem_map] at hm'
    obtain ⟨m, hm, rfl⟩ := hm'
    exact fun hid => Table.find?_eq_none_iff.mp hfind m hm ((hf m).symm.trans hid)
  | some m =>
    obtain ⟨hm, hid⟩ := Table.find?_eq_some_iff.mp hfind
    exact Table.find?_eq_some_iff.mpr ⟨h ▸ List.mem_map_of_mem hm, (hf m).trans hid⟩

/-- The tables between the two halves of a tick. -/
def halfway (wo : WindowOrder) (cfg : Config) (now : ℤ) (u : Upkeep) : Upkeep :=
  (wo.byStart.sort (u.windows.rows.filter fun m => !m.startedSent && m.startsAt ≤ now)).foldl
    (claimStarted cfg now) u

theorem maintenanceTick_eq : u.maintenanceTick wo cfg now =
    (wo.byEnd.sort ((halfway wo cfg now u).windows.rows.filter
      fun m => !m.completedSent && m.endsAt ≤ now)).foldl (claimCompleted cfg now)
        (halfway wo cfg now u) := rfl

variable (he : cfg.subscriptions.enabled = true)
include he

theorem rows_halfway : (halfway wo cfg now u).windows.rows =
    u.windows.rows.map (·.begun now) := by
  rw [halfway, (claims_started now he).rows_sorted]
  refine List.map_congr_left fun m _ => ?_
  obtain ⟨id, component, note, startsAt, endsAt, createdAt, scheduled, started, completed⟩ := m
  by_cases hs : startsAt ≤ now <;> cases started <;> simp [Maintenance.begun, hs]

theorem find?_halfway (id : ℤ) : (halfway wo cfg now u).windows.find? id =
    (u.windows.find? id).map (·.begun now) :=
  find?_of_rows (Maintenance.id_begun now) (rows_halfway he) id

/-- **The rows after a tick.** -/
theorem rows_tick : (u.maintenanceTick wo cfg now).windows.rows =
    u.windows.rows.map (·.ticked now) := by
  rw [maintenanceTick_eq, (claims_completed now he).rows_sorted, rows_halfway he, List.map_map]
  refine List.map_congr_left fun m _ => ?_
  obtain ⟨id, component, note, startsAt, endsAt, createdAt, scheduled, started, completed⟩ := m
  by_cases hend : endsAt ≤ now <;> cases completed <;>
    simp [Maintenance.ticked, Maintenance.begun, hend]

/-- **The messages of a tick**: who wants to hear of a window is told what is due of it. -/
theorem tells_tick : u.subs.Tells (u.maintenanceTick wo cfg now).subs fun r wid =>
    match u.windows.find? wid with
    | some m => if u.subs.wants r m.component then m.due now else []
    | none => [] := by
  have hhalf := (claims_started now he).tells_sorted (q := fun m => m.startsAt ≤ now)
    wo.byStart u
  have hrest := (claims_completed now he).tells_sorted (q := fun m => m.endsAt ≤ now)
    wo.byEnd (halfway wo cfg now u)
  refine (hhalf.trans hrest).congr fun r _ wid => ?_
  have hwants : ∀ component, (halfway wo cfg now u).subs.wants r component =
      u.subs.wants r component := hhalf.wants r
  rw [find?_halfway he]
  cases u.windows.find? wid with
  | none => rfl
  | some m =>
    dsimp only [Option.map_some]
    rw [hwants, said_started, show said (closing cfg (m.begun now)) (m.begun now) =
      said (closing cfg m) m from rfl, said_closing]
    by_cases hw : u.subs.wants r m.component = true
    · by_cases hend : m.endsAt ≤ now <;>
        simp [hw, hend, Maintenance.due, Maintenance.begun, ite_and]
    · have hw' : ¬u.subs.wants r (m.begun now).component = true := hw
      simp [hw, hw']

theorem told_tick {r : Subscriber} (hr : r ∈ u.subs.subscribers.rows) {m : Maintenance}
    (hm : m ∈ u.windows.rows) :
    told (u.maintenanceTick wo cfg now).subs r.id m.id =
      told u.subs r.id m.id ++ if u.subs.wants r m.component then m.due now else [] := by
  have hfind : u.windows.find? m.id = some m := Table.find?_eq_some_iff.mpr ⟨hm, rfl⟩
  have htells : u.subs.Tells (u.maintenanceTick wo cfg now).subs _ := tells_tick he
  rw [htells.told hr, hfind]

end Upkeep

/-! ### Planning and ending -/

/-- The window a form makes. -/
def MaintenanceForm.window (form : MaintenanceForm) (starts now id : ℤ) : Maintenance :=
  { Upkeep.newWindow form.component form.note starts (starts + form.duration) now id with
    scheduledSent := now < starts }

/-- A window never starts in the past. -/
theorem MaintenanceForm.le_starts {form : MaintenanceForm} {parse : String → Option ℤ}
    {now starts : ℤ} (h : form.starts parse now = some starts) : now ≤ starts := by
  unfold MaintenanceForm.starts at h
  split at h
  · obtain rfl := Option.some.inj h
    have hle := le_clamp (form.startsInSeconds.getD 0) 0 maxMaintenanceSecs
    omega
  · obtain ⟨ts, -, rfl⟩ := Option.map_eq_some_iff.mp h
    exact le_clamp ts now (now + maxMaintenanceSecs)

namespace Upkeep

/-- A window has been added, and announced if it starts later. -/
structure Plans (form : MaintenanceForm) (now starts : ℤ) (u u' : Upkeep) : Prop where
  le : now ≤ starts
  rows : u'.windows.rows = u.windows.rows ++ [form.window starts now u.windows.next]
  next : u'.windows.next = u.windows.next + 1
  tells : u.subs.Tells u'.subs fun r wid =>
    if u.windows.next = wid ∧ now < starts ∧ u.subs.wants r form.component then [.scheduled]
    else []

variable {cfg : Config} {now : ℤ} {u : Upkeep}

/-- **Starting maintenance** is rejected or plans a window. -/
theorem startMaintenance_cases (he : cfg.subscriptions.enabled = true)
    (parse : String → Option ℤ) (form : MaintenanceForm) :
    (form.starts parse now = none ∧ u.startMaintenance cfg parse form now = u) ∨
      ∃ starts, form.starts parse now = some starts ∧
        Plans form now starts u (u.startMaintenance cfg parse form now) := by
  rw [startMaintenance]
  cases hs : form.starts parse now with
  | none => exact .inl ⟨rfl, rfl⟩
  | some starts =>
    refine .inr ⟨starts, rfl, ?_⟩
    have hle := MaintenanceForm.le_starts hs
    dsimp only
    generalize hu₁ : u.createMaintenance form.component form.note starts (starts + form.duration)
      now = u₁
    have hrows : u₁.windows.rows = u.windows.rows ++
        [newWindow form.component form.note starts (starts + form.duration) now
          u.windows.next] := by
      rw [← hu₁]
      rfl
    have hsubs : u₁.subs = u.subs := by rw [← hu₁]; rfl
    have hnext : u₁.windows.next = u.windows.next + 1 := by rw [← hu₁]; rfl
    split
    · rename_i hlater
      have hlater : now < starts := hlater
      have hfind : u₁.windows.find? u.windows.next = some (newWindow form.component form.note
          starts (starts + form.duration) now u.windows.next) := by
        refine Table.find?_eq_some_iff.mpr ⟨?_, rfl⟩
        rw [hrows]
        exact List.mem_append_right _ List.mem_cons_self
      rw [publishScheduled]
      rw [hfind, if_neg (by simp [he])]
      refine ⟨hle, ?_, hnext, ?_⟩
      · rw [← hu₁]
        refine (Table.rows_update_insert ?_ ?_ fun _ => beq_iff_eq).trans ?_
        · exact fun _ => rfl
        · exact fun _ => rfl
        · simp [MaintenanceForm.window, newWindow, hlater]
      · rw [hsubs]
        refine (Subs.Tells.fanOut _ _ _).congr fun r hr wid => ?_
        rw [Subs.concerns_of_isMaintenance rfl]
        by_cases hid : u.windows.next = wid <;>
          simp [SubscriberEvent.announces, SubscriberEvent.maintenanceChange, maintenanceEvent,
            SubscriberEvent.component, newWindow, hid, hlater]
    · rename_i hnow
      have hnow : ¬now < starts := hnow
      refine ⟨hle, ?_, hnext, ?_⟩
      · rw [hrows]
        simp [MaintenanceForm.window, newWindow, hnow]
      · rw [hsubs]
        exact (Subs.Tells.refl _).congr fun r hr wid => by simp [hnow]

/-- The messages of `u'` are those of `u` and news of maintenance. -/
def OnlyMaintenance (u u' : Upkeep) : Prop :=
  ∀ o ∈ u'.subs.outbox.rows, o ∈ u.subs.outbox.rows ∨
    ∃ event, o.payload = .json event ∧ event.isMaintenance = true

theorem OnlyMaintenance.refl (u : Upkeep) : OnlyMaintenance u u := fun _ ho => .inl ho

theorem OnlyMaintenance.fanOut {u u' : Upkeep} {event : SubscriberEvent} {now : ℤ}
    (h : u'.subs = u.subs.fanOut event now) (hmaint : event.isMaintenance = true) :
    OnlyMaintenance u u' := by
  intro o ho
  rw [h] at ho
  refine (Table.mem_insertMany ho).imp_right ?_
  rintro ⟨r, -, n, -, rfl⟩
  exact ⟨event, rfl, hmaint⟩

theorem OnlyMaintenance.foldl {claim : Upkeep → Maintenance → Upkeep}
    (hclaim : ∀ u m, OnlyMaintenance u (claim u m)) (l : List Maintenance) (u : Upkeep) :
    OnlyMaintenance u (l.foldl claim u) := by
  induction l generalizing u with
  | nil => exact .refl u
  | cons m l ih =>
    intro o ho
    rcases ih (claim u m) o ho with ho | hnew
    · exact hclaim u m o ho
    · exact .inr hnew

theorem onlyMaintenance_claimStarted (cfg : Config) (now : ℤ) (u : Upkeep) (m : Maintenance) :
    OnlyMaintenance u (claimStarted cfg now u m) := by
  rw [claimStarted]
  split
  · by_cases h : (m.endsAt > now && cfg.subscriptions.enabled) = true
    · exact .fanOut (if_pos h) rfl
    · exact fun o ho => .inl (by rwa [if_neg h] at ho)
  · exact .refl u

theorem onlyMaintenance_claimCompleted (cfg : Config) (now : ℤ) (u : Upkeep) (m : Maintenance) :
    OnlyMaintenance u (claimCompleted cfg now u m) := by
  rw [claimCompleted]
  split
  · by_cases he : cfg.subscriptions.enabled = true
    · rw [if_pos he]
      cases hevent : closing cfg m with
      | none => exact fun o ho => .inl ho
      | some event => exact .fanOut rfl ((claims_completed now he).own m event hevent).1
    · exact fun o ho => .inl (by rwa [if_neg he] at ho)
  · exact .refl u

theorem onlyMaintenance_publishScheduled (id : ℤ) :
    OnlyMaintenance u (u.publishScheduled cfg id now) := by
  rw [publishScheduled]
  split
  · exact .refl u
  · split
    · exact .fanOut rfl rfl
    · exact .refl u

/-- **Maintenance** queues news of maintenance only. -/
theorem onlyMaintenance_step (wo : WindowOrder) (u : Upkeep) (op : MaintenanceOp) :
    OnlyMaintenance u (op.step wo u) := by
  cases op with
  | start cfg parse form now =>
    show OnlyMaintenance u (u.startMaintenance cfg parse form now)
    rw [startMaintenance]
    split
    · dsimp only
      split
      · exact onlyMaintenance_publishScheduled (u := u.createMaintenance ..) _
      · exact .refl u
    · exact .refl u
  | finish id now => exact .refl u
  | tick cfg now =>
    intro o ho
    rcases OnlyMaintenance.foldl (onlyMaintenance_claimCompleted cfg now) _ _ o ho with ho | hnew
    · exact OnlyMaintenance.foldl (onlyMaintenance_claimStarted cfg now) _ _ o ho
    · exact .inr hnew
  | restart => exact .refl u

theorem rows_endMaintenance (id : ℤ) : (u.endMaintenance id now).windows.rows =
    u.windows.rows.map fun m =>
      if m.id = id ∧ now < m.endsAt then { m with endsAt := now } else m := by
  simp [endMaintenance, Table.update]

end Upkeep

end Dunlin

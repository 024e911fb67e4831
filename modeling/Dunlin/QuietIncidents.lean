import Dunlin.MessageGrammar
import Dunlin.Site
import Dunlin.SubscriptionRun

/-!
# Quiet incidents stay quiet

An incident the engine opens during maintenance is marked quiet in the database. The mute is over
some time later, but the mark is not: nothing clears it, and every path that tells subscribers about
an incident goes through `publishIncident`, which asks for it. So whatever happens to the incident
afterwards, no message about it is ever queued.

The invariant is `Unspoken`. A step keeps it because what a step queues is about incidents that are
not quiet (`speaks_step`).

A store `Moves` to a later one when no incident is lost or changes its mark. Messages are taken by
the incident they are about, whoever they are for and however often they are tried.

## Main results

* `Speaks.publish` — what `publishIncident` says of an incident
* `speaks_step` — an operation queues messages about loud incidents only
* `Unspoken.move` — what has never been spoken of is not spoken of by the next step
* `stays_quiet` — an incident opened while muted is never told of, in any run of the program
-/

namespace Dunlin

open Lib AlertEngine

/-! ### What an operation on incidents queues -/

/-- An incident that subscribers hear about. -/
def Store.Loud (s : Store) (id : ℤ) : Prop := ∃ i ∈ s.incidents.rows, i.id = id ∧ i.quiet = false

/-- What is queued from `s` to `s'` is about incidents that are loud in `s'`. -/
def Store.Speaks (s s' : Store) : Prop :=
  ∀ o ∈ s'.subs.outbox.rows, o ∈ s.subs.outbox.rows ∨
    ∃ id c, o.change = some (id, c) ∧ s'.Loud id

namespace Store

variable {pf : Platform} {s s₁ s₂ : Store} {cfg : Config} {id now : ℤ} {change : IncidentChange}
  {text : String} {input : AlertInput} {subscriptions : Option Config} {previous : Option Config}

theorem Speaks.refl (s : Store) : s.Speaks s := fun _ ho => .inl ho

/-- Publishing after rows have changed. -/
theorem Speaks.publish (hsubs : s₁.subs = s.subs) :
    s.Speaks (s₁.publishIncident cfg id change text now) := by
  intro o ho
  rcases mem_outbox_publishIncident ho with hold | ⟨i, hi, hpayload⟩
  · exact .inl (hsubs ▸ hold)
  · obtain ⟨hmem, rfl⟩ := incident_eq_some_iff.mp hi
    cases hq : i.quiet with
    | true =>
      rw [publishIncident_of_quiet hi hq, hsubs] at ho
      exact .inl ho
    | false =>
      refine .inr ⟨i.id, change, ?_, i, ?_, rfl, hq⟩
      · rw [OutboxRow.change, hpayload]
        exact change_event change cfg i text
      · rwa [incidents_publishIncident]

theorem Speaks.trans (h₁ : s.Speaks s₁) (hloud : ∀ id, s₁.Loud id → s₂.Loud id)
    (h₂ : s₁.Speaks s₂) : s.Speaks s₂ := by
  intro o ho
  rcases h₂ o ho with ho | hnew
  · rcases h₁ o ho with ho | ⟨id, c, hchange, hl⟩
    · exact .inl ho
    · exact .inr ⟨id, c, hchange, hloud id hl⟩
  · exact .inr hnew

theorem speaks_opened : s.Speaks (s.opened pf subscriptions input) := by
  unfold opened
  cases input.muted with
  | true => exact fun o ho => .inl ho
  | false =>
    cases subscriptions with
    | none => exact fun o ho => .inl ho
    | some cfg => exact .publish rfl

theorem speaks_recovered : s.Speaks (s.recovered subscriptions input id) := by
  unfold recovered
  cases subscriptions with
  | none => exact fun o ho => .inl ho
  | some cfg => exact .publish rfl

theorem speaks_forgotOne (i : Incident) : s.Speaks (s.forgotOne cfg previous now i) := by
  rw [forgotOne]
  split
  · exact .publish rfl
  · exact .refl s

/-- Closing incidents leaves the loud ones loud. -/
theorem loud_foldl_forgotOne (l : List Incident) (h : s.Loud id) :
    (l.foldl (forgotOne cfg previous now) s).Loud id := by
  obtain ⟨i, hi, hid, hq⟩ := h
  rw [Loud, rows_foldl_forgotOne]
  refine ⟨_, List.mem_map_of_mem hi, ?_⟩
  split
  · exact ⟨hid, hq⟩
  · exact ⟨hid, hq⟩

theorem speaks_forgotten : s.Speaks (s.forgotten pf cfg previous now) := by
  rw [forgotten]
  generalize s.activeIncidents pf = l
  induction l generalizing s with
  | nil => exact .refl s
  | cons i l ih => exact (speaks_forgotOne i).trans (fun id => loud_foldl_forgotOne l) ih

theorem speaks_operatorCreated (form : CreateIncidentForm) :
    s.Speaks (s.operatorCreated cfg form now) := .publish rfl

theorem speaks_operatorUpdated (form : UpdateForm) :
    s.Speaks (s.operatorUpdated cfg id form now) := by
  unfold operatorUpdated
  dsimp only
  split
  · exact .publish rfl
  · exact .publish rfl

theorem speaks_operatorResolved : s.Speaks (s.operatorResolved cfg id now) := .publish rfl

end Store

section Step

variable {pf : Platform} {w : World} {input : AlertInput}

theorem speaks_fedStore : w.store.Speaks (fedStore pf w input) := by
  rw [fedStore]
  split
  · split
    · exact .refl _
    · exact Store.speaks_opened
  · split
    · split
      · exact Store.speaks_recovered
      · exact .refl _
    · exact .refl _

/-- **An operation queues messages about loud incidents only.** -/
theorem speaks_step (pf : Platform) (w : World) (op : Op) :
    w.store.Speaks (step pf w op).store := by
  cases op with
  | start cfg now =>
    rw [store_start]
    exact Store.speaks_forgotten
  | reload cfg now =>
    rw [store_reload]
    exact Store.speaks_forgotten
  | follow => exact .refl _
  | handle input =>
    rw [step_handle, store_handled]
    exact speaks_fedStore
  | create form now =>
    rw [step_create]
    exact Store.speaks_operatorCreated form
  | update id form now =>
    rw [step_update]
    split
    · exact Store.speaks_operatorUpdated form
    · exact .refl _
  | resolve id now =>
    rw [step_resolve]
    split
    · exact Store.speaks_operatorResolved
    · exact .refl _

/-- An incident that `handle` opens while muted is quiet, and its opening queues nothing. -/
theorem quiet_of_created {i : Incident} (hmuted : input.muted = true)
    (hi : i ∈ (step pf w (.handle input)).store.incidents.rows)
    (hnew : ∀ j ∈ w.store.incidents.rows, j.id ≠ i.id) :
    i.quiet = true ∧ (step pf w (.handle input)).store.subs = w.store.subs := by
  have hsame : i ∉ w.store.incidents.rows := fun hi => hnew i hi rfl
  rw [step_handle, store_handled] at hi ⊢
  by_cases ho : (effective w input.check.id).opens input.check input.ok
  · rw [fedStore, if_pos ho] at hi ⊢
    cases hfor : w.store.activeIncidentFor pf input.component with
    | some j =>
      rw [hfor] at hi
      exact absurd hi hsame
    | none =>
      rw [hfor] at hi
      dsimp only at hi ⊢
      rw [Store.rows_opened, List.mem_append, List.mem_singleton] at hi
      rcases hi with hi | rfl
      · exact absurd hi hsame
      · refine ⟨hmuted, ?_⟩
        unfold Store.opened
        dsimp only
        rw [if_pos hmuted]
        rfl
  · rw [fedStore, if_neg ho] at hi
    split at hi
    · split at hi
      · obtain ⟨j, hj, rfl⟩ := Store.mem_recovered.mp hi
        refine absurd ?_ (hnew j hj)
        split <;> rfl
      · exact absurd hi hsame
    · exact absurd hi hsame

end Step

/-! ### The invariant -/

/-- From `s` to `s'` no incident is lost or loses its mark, and new messages are about loud
incidents. -/
structure Store.Moves (s s' : Store) : Prop where
  grows : s.Grows s'
  news : ∀ o' ∈ s'.subs.outbox.rows, ∀ id c, o'.change = some (id, c) →
    (∃ o ∈ s.subs.outbox.rows, o.change = some (id, c)) ∨ s'.Loud id

/-- Every message about an incident is about one that exists. -/
def Known (s : Store) : Prop :=
  ∀ o ∈ s.subs.outbox.rows, ∀ id c, o.change = some (id, c) → ∃ i ∈ s.incidents.rows, i.id = id

/-- The incident `id` is quiet, and no message is about it. -/
structure Unspoken (id : ℤ) (s : Store) : Prop where
  quiet : ∃ i ∈ s.incidents.rows, i.id = id ∧ i.quiet = true
  unheard : ∀ o ∈ s.subs.outbox.rows, ∀ c, o.change ≠ some (id, c)

section Moves

variable {s s' : Store} {id : ℤ}

theorem Known.move (h : Known s) (hm : s.Moves s') : Known s' := by
  intro o' ho' id c hchange
  rcases hm.news o' ho' id c hchange with ⟨o, ho, hc⟩ | ⟨i, hi, hid, -⟩
  · obtain ⟨i, hi, hid⟩ := h o ho id c hc
    obtain ⟨i', hi', hev⟩ := hm.grows i hi
    exact ⟨i', hi', hev.id.trans hid⟩
  · exact ⟨i, hi, hid⟩

theorem Unspoken.move (h : Unspoken id s) (hm : s.Moves s') : Unspoken id s' := by
  obtain ⟨i, hi, hid, hq⟩ := h.quiet
  obtain ⟨i', hi', hev⟩ := hm.grows i hi
  have hid' : i'.id = id := hev.id.trans hid
  refine ⟨⟨i', hi', hid', hev.quiet hq⟩, fun o' ho' c hchange => ?_⟩
  rcases hm.news o' ho' id c hchange with ⟨o, ho, hc⟩ | ⟨j, hj, hjd, hjq⟩
  · exact h.unheard o ho c hc
  · obtain rfl : j = i' := Table.eq_of_id hj hi' (hjd.trans hid'.symm)
    rw [hev.quiet hq] at hjq
    exact Bool.noConfusion hjq

end Moves

/-! ### Every operation of the site -/

section Site

variable {pf : Platform} {cr : Crypto} {wo : WindowOrder} {s : Site}

/-- Other tables of subscriptions in the same store. -/
theorem moves_withSubs {subs : Subs}
    (h : ∀ o' ∈ subs.outbox.rows, ∀ id c, o'.change = some (id, c) →
      ∃ o ∈ s.subs.outbox.rows, o.change = some (id, c)) :
    s.store.Moves (s.withSubs subs).store :=
  ⟨.refl _, fun o' ho' id c hchange => .inl (h o' ho' id c hchange)⟩

/-- Visitors and the dispatcher queue nothing about incidents. -/
theorem change_subscriptions {op : SubsOp} (hop : op.publishes = false) {d : Dispatcher} :
    ∀ o' ∈ (op.step cr d).subs.outbox.rows, ∀ id c, o'.change = some (id, c) →
      ∃ o ∈ d.subs.outbox.rows, o.change = some (id, c) := by
  intro o' ho' id c hchange
  by_cases hround : ∃ ρ, op = .dispatch ρ
  · obtain ⟨ρ, rfl⟩ := hround
    obtain ⟨o, ho, hmoves⟩ := SubsOp.roundMoves_run ho'
    refine ⟨o, ho, ?_⟩
    rwa [OutboxRow.change, ← hmoves.payload]
  · rcases SubsOp.outbox_step (fun ρ hρ => hround ⟨ρ, hρ⟩) ho' with ho | ⟨-, hfresh⟩
    · exact ⟨o', ho, hchange⟩
    · rcases hfresh with ⟨-, -, now, sid, -, hq⟩ | ⟨r, -, -, cfg, event, now, rfl, -⟩
      · rw [hq] at hchange
        cases hchange
      · exact Bool.noConfusion hop

theorem change_maintenance (op : MaintenanceOp) {u : Upkeep} :
    ∀ o' ∈ (op.step wo u).subs.outbox.rows, ∀ id c, o'.change = some (id, c) →
      ∃ o ∈ u.subs.outbox.rows, o.change = some (id, c) := by
  intro o' ho' id c hchange
  rcases Upkeep.onlyMaintenance_step wo u op o' ho' with ho | ⟨event, hpayload, hmaint⟩
  · exact ⟨o', ho, hchange⟩
  · rw [OutboxRow.change, hpayload] at hchange
    cases event <;> simp [SubscriberEvent.change, SubscriberEvent.isMaintenance] at hchange hmaint

theorem moves_step (op : SiteOp) : s.store.Moves (op.step pf cr wo s).store := by
  cases op with
  | incidents op =>
    refine ⟨grows_step pf s.world op, fun o' ho' id c hchange => ?_⟩
    rcases speaks_step pf s.world op o' ho' with ho | ⟨id', c', hchange', hl⟩
    · exact .inl ⟨o', ho, hchange⟩
    · obtain ⟨rfl, rfl⟩ : id' = id ∧ c' = c := by simpa [hchange'] using hchange
      exact .inr hl
  | subscriptions op hop => exact moves_withSubs (change_subscriptions hop)
  | maintenance op => exact moves_withSubs (change_maintenance op)

/-- **A quiet incident stays quiet.** In every run of the program, an incident that `handle` opens
while muted is never the subject of a message, whatever operators, subscribers, reloads, restarts
and maintenance windows do afterwards. -/
theorem stays_quiet (cfg : Config) (before after : List SiteOp) (input : AlertInput) {i : Incident}
    (hmuted : input.muted = true)
    (hi : i ∈ (run (SiteOp.step pf cr wo) (.initial cfg)
      (before ++ [.incidents (.handle input)])).store.incidents.rows)
    (hnew : ∀ j ∈ (run (SiteOp.step pf cr wo) (.initial cfg) before).store.incidents.rows,
      j.id ≠ i.id) :
    ∀ o ∈ (run (SiteOp.step pf cr wo) (.initial cfg)
      (before ++ [.incidents (.handle input)] ++ after)).subs.outbox.rows,
      ∀ c, o.change ≠ some (i.id, c) := by
  have hknown : Known (run (SiteOp.step pf cr wo) (.initial cfg) before).store := by
    refine run_invariant ?_ (fun s op (h : Known (Site.store s)) => h.move (moves_step op)) before
    exact fun o ho => absurd ho List.not_mem_nil
  rw [run_append] at hi
  rw [run_append, run_append]
  generalize run (SiteOp.step pf cr wo) (.initial cfg) before = s at hi hnew hknown
  obtain ⟨hquiet, hsubs⟩ := quiet_of_created (w := s.world) hmuted hi hnew
  have hopened : Unspoken i.id (SiteOp.step pf cr wo s (.incidents (.handle input))).store := by
    refine ⟨⟨i, hi, rfl, hquiet⟩, fun o ho c hchange => ?_⟩
    obtain ⟨j, hj, hjd⟩ := hknown o (by rwa [← show _ = s.store.subs from hsubs]) i.id c hchange
    exact hnew j hj hjd
  have hafter : Unspoken i.id (run (SiteOp.step pf cr wo)
      (SiteOp.step pf cr wo s (.incidents (.handle input))) after).store := by
    refine run_invariant ?_ (fun s op (h : Unspoken i.id (Site.store s)) => h.move (moves_step op))
      after
    exact hopened
  exact hafter.unheard

end Site

/-- A reader signs up and confirms. -/
def joined : List SiteOp :=
  [.incidents (.start quickConfig 0),
    .subscriptions (.signUp ⟨.email, "reader@example.org", true, [], true⟩ (fun _ => sampleKey) 0)
      rfl,
    .subscriptions (.confirm (confirmToken sampleCrypto sampleKey 1 86400) 10) rfl,
    .incidents .follow]

/-- The check fails during maintenance. -/
def mutedFailure : AlertInput := { probe false 20 with muted := true }

/-- After the maintenance the operator comments on the incident, and the check recovers. -/
def unmuted : List SiteOp :=
  [.incidents (.update 1 ⟨"identified", "Disk."⟩ 30), .incidents (.handle (probe true 40))]

theorem stays_quiet_muted :
    Store.autoIncident mutedFailure 1 ∈ (run (SiteOp.step .ascii sampleCrypto .stable)
      (.initial quickConfig) (joined ++ [.incidents (.handle mutedFailure)])).store.incidents.rows ∧
    ∀ o ∈ (run (SiteOp.step .ascii sampleCrypto .stable) (.initial quickConfig)
      (joined ++ [.incidents (.handle mutedFailure)] ++ unmuted)).subs.outbox.rows,
      ∀ c, o.change ≠ some (1, c) := by
  have hopened : Store.autoIncident mutedFailure 1 ∈
      (run (SiteOp.step .ascii sampleCrypto .stable) (.initial quickConfig)
        (joined ++ [.incidents (.handle mutedFailure)])).store.incidents.rows := by
    decide
  exact ⟨hopened, stays_quiet quickConfig joined unmuted mutedFailure rfl hopened (by decide)⟩

/-- The same incident opened outside maintenance is news to the reader. -/
example : ((run (SiteOp.step .ascii sampleCrypto .stable) (.initial quickConfig)
    (joined ++ [.incidents (.handle (probe false 20))] ++ unmuted)).subs.outbox.rows.filterMap
      (·.change)) = [(1, .opened), (1, .updated), (1, .resolved)] := by
  decide

end Dunlin

import Dunlin.AlertFaults

/-!
# Open automatic incidents

Two facts that hold whichever database calls fail. A component never has two open automatic
incidents: the engine looks before it opens one, and nothing else opens any. And a closed incident
stays closed: `handle` looks the machine's incident up first, and starts over when it is closed, so
it never reminds about one, announces its recovery or closes it again.

The second is about a single call and needs no invariant. `Untouched` states what a call owes to an
incident that was closed before it.

A fault plan says which statements fail, over all calls of a run; `Rewritable` of `AlertFaults` does
the programs that only rewrite rows, so that `handle` is the one case with work in it.

## Main results

* `oneOpen_prog` — every program of an operation keeps at most one open automatic incident
* `untouched_handle` — a closed incident is left alone, whichever calls fail
* `open_incidents` — both, in every run
-/

namespace Dunlin

open Lib AlertEngine

/-- No component has two open automatic incidents. -/
def OneOpen (s : Store) : Prop :=
  ∀ i ∈ s.incidents.rows, ∀ j ∈ s.incidents.rows, i.isActive → j.isActive → i.auto → j.auto →
    i.component = j.component → i = j

/-- What a call leaves of an incident in the tables: no resolution of it was published, and it was
closed when it was. -/
structure UntouchedRow (s s' : Store) (i : Incident) : Prop where
  queued : ∀ o ∈ s'.subs.outbox.rows, o ∉ s.subs.outbox.rows →
    ∀ e, o.payload = .json (.incidentResolved e) → e.incidentId ≠ i.id
  closed : ∃ i' ∈ s'.incidents.rows, i'.id = i.id ∧ i'.resolvedAt = i.resolvedAt

/-- What a call owes to an incident that was closed before it: it stays as it was, and no reminder
and no recovery is sent for it. -/
structure Untouched (w w' : World) (i : Incident) : Prop where
  row : UntouchedRow w.store w'.store i
  sent : ∃ new, w'.sent = w.sent ++ new ∧
    ∀ n ∈ new, n.event = "up" ∨ n.event = "reminder" → n.incidentId ≠ some i.id

variable {pf : Platform} {w : World} {s s' : Store} {input : AlertInput}

/-! ### At most one -/

theorem OneOpen.rewrite (h : OneOpen s) (hs : s.Rewrites s') : OneOpen s' := by
  intro i' hi' j' hj' hiact hjact hiauto hjauto hcomp
  obtain ⟨i, hi, hei⟩ := hs.origin i' hi'
  obtain ⟨j, hj, hej⟩ := hs.origin j' hj'
  have hij : i = j := h i hi j hj (hei.active hiact) (hej.active hjact) (hei.auto ▸ hiauto)
    (hej.auto ▸ hjauto) (by rw [← hei.component, ← hej.component, hcomp])
  refine Table.eq_of_id hi' hj' ?_
  rw [id_incident, id_incident, hei.id, hej.id, hij]

/-- A new incident that is manual, or the first open one of its component. -/
theorem OneOpen.createIncident (h : OneOpen s) {component title : String} {impact : State}
    {state : IncidentState} {auto : Bool} {ts : ℤ}
    (hfirst : auto = true → ∀ i ∈ s.incidents.rows, i.isActive → i.component ≠ component) :
    OneOpen (s.createIncident component title impact state auto ts) := by
  intro i hi j hj hiact hjact hiauto hjauto hcomp
  rcases Store.mem_createIncident.mp hi with hi | rfl
  · rcases Store.mem_createIncident.mp hj with hj | rfl
    · exact h i hi j hj hiact hjact hiauto hjauto hcomp
    · exact absurd hcomp (hfirst hjauto i hi hiact)
  · rcases Store.mem_createIncident.mp hj with hj | rfl
    · exact absurd hcomp.symm (hfirst hiauto j hj hjact)
    · rfl

theorem rewritable_oneOpen : Rewritable fun w => OneOpen w.store := fun _ _ h hs => h.rewrite hs

theorem rewrites_noted : (s.created input).Rewrites (s.noted pf input) := .of_incidents rfl

theorem rewrites_opened (subscriptions : Option Config) :
    (s.created input).Rewrites (s.opened pf subscriptions input) := by
  unfold Store.opened
  cases input.muted with
  | true =>
    refine .of_update (p := fun i => i.id = s.incidents.next)
      (fun i => (⟨rfl, rfl, rfl, fun _ => rfl, fun h => h⟩ : i.Evolves { i with quiet := true }))
      fun i' => ?_
    exact Store.mem_markQuiet
  | false =>
    cases subscriptions with
    | none => exact rewrites_noted
    | some cfg => exact .of_incidents Store.incidents_publishIncident

theorem oneOpen_handle (h : OneOpen w.store) :
    (handle pf input).wp (fun _ w' => OneOpen w'.store) w := by
  have hstep : OneOpen (stepped input w).store := by rwa [store_stepped]
  rw [wp_handle]
  refine ⟨fun _ => h, ?_⟩
  split
  · exact hstep
  · rw [wp_onOpen]
    refine ⟨hstep, ?_⟩
    split
    · simpa using hstep
    · rename_i hnone
      have hcreated : OneOpen ((stepped input w).store.created input) :=
        hstep.createIncident fun _ => Store.activeIncidentFor_eq_none_iff.mp hnone
      have hnoted : OneOpen ((stepped input w).store.noted pf input) :=
        hcreated.rewrite rewrites_noted
      refine ⟨hcreated, ?_, ?_⟩
      · split
        · exact hnoted
        · simpa using hnoted
      · rw [opened, hnone]
        simpa using hcreated.rewrite (rewrites_opened _)
  · rename_i id hid
    obtain ⟨i, hi, rfl, -, -, -⟩ :=
      exists_of_effective (CheckMachine.incidentId_of_resolve hid)
    have hres : OneOpen ((stepped input w).store.resolveIncident i.id input.now) :=
      rewritable_oneOpen.resolveIncident hstep i.id input.now
    rw [wp_onResolve (Store.exists_incident_iff.mpr ⟨i, by rwa [store_stepped], rfl⟩)]
    refine ⟨hstep, hres, ?_, ?_⟩
    · simpa using hstep.rewrite (.recoveredNoted _ _ _)
    · simpa [recovered] using hstep.rewrite (.recovered _ _ _ _)
  · simpa using hstep

/-- Every operation keeps the invariant, whichever of its calls fail. -/
theorem oneOpen_prog (h : OneOpen w.store) (op : Op) :
    (op.prog pf).wp (fun _ w' => OneOpen w'.store) w := by
  have hI := rewritable_oneOpen
  cases op with
  | start cfg now =>
    exact Rewritable.wp_bind (by exact h) fun _ w hw =>
      hI.wp_bootstrap (fun _ _ _ hw => hw) (fun _ _ _ hw _ => hw) hw
  | reload cfg now =>
    refine Rewritable.wp_bind (by exact h) fun _ w hw => Rewritable.wp_bind (by exact hw)
      fun _ w hw => ?_
    exact Rewritable.wp_bind (hI.wp_forgetUnmonitored (fun _ _ _ hw => hw) hw) fun _ w hw => hw
  | follow => exact h
  | handle input => exact oneOpen_handle h
  | create form now =>
    exact hI.wp_operatorCreate (fun _ _ _ => h.createIncident (by simp)) h
  | update id form now => exact hI.wp_operatorUpdate h
  | resolve id now => exact hI.wp_operatorResolve h

/-! ### Closed incidents -/

variable {i j : Incident}

theorem UntouchedRow.of_tables (hsubs : s'.subs = s.subs) (hrow : i ∈ s'.incidents.rows) :
    UntouchedRow s s' i :=
  ⟨fun _ ho hnew => absurd (hsubs ▸ ho) hnew, ⟨i, hrow, rfl, rfl⟩⟩

/-- Publishing anything but the incident's resolution. -/
theorem UntouchedRow.publish (h : UntouchedRow s s' i) {cfg : Config} {id now : ℤ}
    {change : IncidentChange} {text : String} (hne : change = .resolved → id ≠ i.id) :
    UntouchedRow s (s'.publishIncident cfg id change text now) i := by
  refine ⟨fun o ho hnew e he => ?_, by simpa using h.closed⟩
  rcases Store.mem_outbox_publishIncident ho with ho | ⟨j, hj, hpayload⟩
  · exact h.queued o ho hnew e he
  · rw [hpayload, Payload.json.injEq] at he
    cases change with
    | opened | updated => cases he
    | resolved =>
      cases he
      rw [incidentEvent, (Store.incident_eq_some_iff.mp hj).2]
      exact hne rfl

theorem untouchedRow_created (hi : i ∈ s.incidents.rows) : UntouchedRow s (s.created input) i :=
  .of_tables rfl (Store.mem_createIncident.mpr (.inl hi))

theorem untouchedRow_noted (hi : i ∈ s.incidents.rows) : UntouchedRow s (s.noted pf input) i :=
  .of_tables rfl (Store.mem_createIncident.mpr (.inl hi))

theorem untouchedRow_opened (hi : i ∈ s.incidents.rows) (subscriptions : Option Config) :
    UntouchedRow s (s.opened pf subscriptions input) i := by
  have hrow : i ∈ (s.opened pf subscriptions input).incidents.rows := by
    rw [Store.rows_opened]
    exact List.mem_append_left _ hi
  unfold Store.opened at hrow ⊢
  cases hm : input.muted with
  | true => exact .of_tables rfl (by simpa [hm] using hrow)
  | false =>
    cases subscriptions with
    | none => exact untouchedRow_noted hi
    | some cfg => exact (untouchedRow_noted hi).publish (by simp)

theorem untouchedRow_resolved (hi : i ∈ s.incidents.rows) {id ts : ℤ} (hne : i.id ≠ id) :
    UntouchedRow s (s.resolveIncident id ts) i :=
  .of_tables rfl (Store.mem_resolveIncident.mpr ⟨i, hi, if_neg hne⟩)

theorem untouchedRow_recoveredNoted (hi : i ∈ s.incidents.rows) {id : ℤ} (hne : i.id ≠ id) :
    UntouchedRow s (s.recoveredNoted input id) i :=
  .of_tables rfl (Store.mem_resolveIncident.mpr ⟨i, hi, if_neg hne⟩)

theorem untouchedRow_recovered (hi : i ∈ s.incidents.rows) (subscriptions : Option Config) {id : ℤ}
    (hne : i.id ≠ id) : UntouchedRow s (s.recovered subscriptions input id) i := by
  unfold Store.recovered
  cases subscriptions with
  | none => exact untouchedRow_recoveredNoted hi hne
  | some cfg => exact (untouchedRow_recoveredNoted hi hne).publish fun _ => hne.symm

/-- A call that sends nothing. -/
theorem Untouched.of_row {w' : World} (h : UntouchedRow w.store w'.store i)
    (hsent : w'.sent = w.sent) : Untouched w w' i :=
  ⟨h, [], by rw [hsent, List.append_nil], by simp⟩

/-- A notification of an outage, or about another incident. -/
theorem Untouched.notified {w' : World} (h : Untouched w w' i) (muted : Bool) {n : Notification}
    (hn : n.event = "down" ∨ n.incidentId ≠ some i.id) :
    Untouched w (notified muted n w') i := by
  unfold AlertEngine.notified
  have hlink : ∀ url, (linkTo url n).event = n.event ∧
      (linkTo url n).incidentId = n.incidentId := fun url => by
    unfold linkTo
    split <;> exact ⟨rfl, rfl⟩
  cases muted with
  | true => exact h
  | false =>
    obtain ⟨new, hnew, hall⟩ := h.sent
    refine ⟨h.row, new ++ [linkTo w'.engine.publicUrl n], ?_, fun n' hn' hevent => ?_⟩
    · simp [hnew]
    rcases List.mem_append.mp hn' with hn' | hn'
    · exact hall n' hn' hevent
    · rw [List.mem_singleton] at hn'
      subst hn'
      rw [(hlink _).1] at hevent
      rw [(hlink _).2]
      rcases hn with hdown | hne
      · rw [hdown] at hevent
        exact absurd hevent (by decide)
      · exact hne

/-- **`handle` leaves closed incidents alone**, whichever of its calls fail. -/
theorem untouched_handle (hi : i ∈ w.store.incidents.rows) (hclosed : ¬i.isActive) :
    (handle pf input).wp (fun _ w' => Untouched w w' i) w := by
  have hrefl : UntouchedRow w.store w.store i := .of_tables rfl hi
  have hstep : ∀ f, UntouchedRow w.store (f w.store) i →
      Untouched w ((stepped input w).onStore f) i := fun f hf => by
    refine .of_row ?_ (sent_stepped input w)
    rwa [World.store_onStore, store_stepped]
  -- a machine's incident that survived the look-up is open, so it is another one
  have hother : ∀ id, (effective w input.check.id).incidentId = some id → i.id ≠ id := by
    rintro _ hid rfl
    obtain ⟨j, hj, hji, hact, -, -⟩ := exists_of_effective hid
    obtain rfl : j = i := Table.eq_of_id hj hi hji
    exact hclosed hact
  have hself : Untouched w (stepped input w) i :=
    .of_row (by rwa [store_stepped]) (sent_stepped input w)
  have hpoint : ∀ f id, UntouchedRow w.store (f w.store) i →
      Untouched w (point input.check.id id ((stepped input w).onStore f)) i := fun f id hf => by
    refine .of_row ?_ (by simp [sent_stepped])
    rwa [store_point, World.store_onStore, store_stepped]
  rw [wp_handle]
  refine ⟨fun _ => .of_row hrefl rfl, ?_⟩
  split
  · exact hself
  · rw [wp_onOpen, store_stepped]
    refine ⟨hself, ?_⟩
    split
    · exact (hpoint (fun s => s) _ hrefl).notified _ (.inl rfl)
    · rename_i hnone
      refine ⟨hstep _ (untouchedRow_created hi), ?_, ?_⟩
      · split
        · exact hstep _ (untouchedRow_noted hi)
        · exact (hpoint _ _ (untouchedRow_noted hi)).notified _ (.inl rfl)
      · rw [opened, store_stepped, hnone]
        exact (hpoint _ _ (untouchedRow_opened hi _)).notified _ (.inl rfl)
  · rename_i id hid
    have hid' := CheckMachine.incidentId_of_resolve hid
    have hne := hother id hid'
    have hup : (upNotification input id).incidentId ≠ some i.id :=
      fun h => hne (Option.some.inj h).symm
    obtain ⟨j, hj, hji, -, -, -⟩ := exists_of_effective hid'
    rw [wp_onResolve (Store.exists_incident_iff.mpr ⟨j, by rwa [store_stepped], hji⟩)]
    refine ⟨hself, hstep _ (untouchedRow_resolved hi hne), ?_, ?_⟩
    · exact (hstep _ (untouchedRow_recoveredNoted hi hne)).notified _ (.inr hup)
    · exact (hstep _ (untouchedRow_recovered hi _ hne)).notified _ (.inr hup)
  · rename_i id hid
    have hne := hother id (CheckMachine.incidentId_of_remind hid)
    exact hself.notified _ (.inr fun h => hne (Option.some.inj h).symm)

/-! ### Runs -/

/-- **At most one open automatic incident per component, and closed incidents stay closed.** In
every run, whichever database calls fail: after each operation no component has two open automatic
incidents, and no `handle` call touches an incident that was closed before it. -/
theorem open_incidents (cfg : Config) (ops : List (Op × List Bool)) :
    Always (faultyStep pf)
      (fun w op => OneOpen (faultyStep pf w op).store ∧
        ∀ input, op.1 = .handle input → ∀ i ∈ w.store.incidents.rows, ¬i.isActive →
          Untouched w (faultyStep pf w op) i)
      (.initial .empty cfg) ops := by
  have hstep : ∀ w op, OneOpen w.store → OneOpen (faultyStep pf w op).store :=
    fun w op h => Prog.wp_run (oneOpen_prog h op.1) op.2
  have h₀ : OneOpen (World.initial .empty cfg).store := fun i hi => by
    simp [World.initial, Store.empty] at hi
  refine Always.of_invariant h₀ hstep fun w op h => ?_
  refine ⟨hstep w op h, fun input hop i hi hclosed => ?_⟩
  obtain ⟨op, faults⟩ := op
  subst hop
  exact Prog.wp_run (untouched_handle hi hclosed) faults

end Dunlin

import Dunlin.IncidentRows

/-!
# What the engine's programs leave when a call fails

The rules for `wp`, which asks for a postcondition whichever statements fail. For `handle` they list
the states it can end in: the one of the fault-free run, and one for each statement whose failure
ends the program or is swallowed.

The other programs only rewrite the rows of incidents, apart from the operator's `create`. For them
it is enough to know which invariants survive a rewriting (`Rewritable`).

A statement that fails under `?` ends the program; one whose error is logged does not. So for each
program there are as many ends as statements that can end it, and the postcondition has to hold at
each of them. The stores at those ends have names: `Store.created` is an incident without its first
entry, `Store.noted` one with it.

## Main results

* `wp_handle` — every way `handle` can end
* `wp_forgetUnmonitored`, `wp_bootstrap` — what survives a reconciliation and a start that break off
* `wp_operatorUpdate`, `wp_operatorResolve`, `wp_operatorCreate` — the same for the operator
-/

namespace Dunlin

open Lib AlertEngine

/-! ### Half-finished tables -/

/-- The tables with a new incident that has no timeline yet. -/
def Store.created (input : AlertInput) (s : Store) : Store :=
  s.createIncident input.component s!"{input.check.name} is down" .majorOutage .investigating true
    input.now

/-- The tables with a new incident nobody has been told about. -/
def Store.noted (pf : Platform) (input : AlertInput) (s : Store) : Store :=
  (s.created input).addUpdate s.incidents.next input.now .investigating
    (sentenceCase pf (input.message.getD "check failed")) true

/-- The tables with an incident resolved by its check that nobody has been told about. -/
def Store.recoveredNoted (input : AlertInput) (id : ℤ) (s : Store) : Store :=
  (s.resolveIncident id input.now).addUpdate id input.now .resolved
    "Automatically resolved after recovery." true

theorem Store.Rewrites.recoveredNoted (input : AlertInput) (id : ℤ) (s : Store) :
    s.Rewrites (s.recoveredNoted input id) :=
  .of_update (fun i => .closed i input.now) fun _ => mem_resolveIncident

section

variable {pf : Platform} {input : AlertInput} {w : World} {id : ℤ} {Q : Option Unit → World → Prop}

/-! ### Opening -/

theorem wp_openNew {Q : Option ℤ → World → Prop} :
    (openNew pf input).wp Q w ↔
      Q none w ∧ Q none (w.onStore (Store.created input)) ∧
      (if input.muted then Q none (w.onStore (Store.noted pf input))
        else Q (some w.store.incidents.next) (w.onStore (Store.noted pf input))) ∧
      Q (some w.store.incidents.next)
        (w.onStore (Store.opened pf w.engine.subscriptions input)) := by
  rw [openNew]
  simp only [Prog.bind_eq, Prog.wp_bind, wp_createIncident, Prog.after_some, Prog.after_none]
  rw [wp_addUpdate (Store.incident_createIncident w.store _ _ _ _ _ _)]
  cases hm : input.muted with
  | true =>
    simp [Store.created, Store.noted, Store.opened, World.onStore, hm]
    tauto
  | false =>
    cases hs : w.engine.subscriptions <;>
      simp [Store.created, Store.noted, Store.opened, World.onStore, wp_publishIncident, hm, hs]
    · tauto
    · tauto

theorem wp_onOpen :
    (onOpen pf input).wp Q w ↔
      Q none w ∧
      match w.store.activeIncidentFor pf input.component with
      | some i =>
        Q (some ()) (notified input.muted (downNotification input i.id)
          (point input.check.id i.id w))
      | none =>
        Q none (w.onStore (Store.created input)) ∧
        (if input.muted then Q none (w.onStore (Store.noted pf input))
          else Q (some ()) (notified false (downNotification input w.store.incidents.next)
            (point input.check.id w.store.incidents.next (w.onStore (Store.noted pf input))))) ∧
        Q (some ()) (opened pf input w) := by
  rw [onOpen, opened]
  simp only [Prog.bind_eq, Prog.wp_bind, wp_select, Prog.after_some, Prog.after_none]
  cases hi : w.store.activeIncidentFor pf input.component with
  | some i => cases hm : input.muted <;> simp [notified, and_comm]
  | none =>
    simp only [Prog.wp_bind, wp_openNew, Prog.after_some, Prog.after_none]
    cases hm : input.muted <;> simp [notified] <;> tauto

/-! ### Resolving -/

theorem wp_onResolve (h : (w.store.incident id).isSome) :
    (onResolve input id).wp Q w ↔
      Q none w ∧ Q none (w.onStore (·.resolveIncident id input.now)) ∧
      Q (some ()) (notified input.muted (upNotification input id)
        (w.onStore (Store.recoveredNoted input id))) ∧
      Q (some ()) (recovered input id w) := by
  unfold onResolve recovered Store.recovered
  simp only [Prog.bind_eq, Prog.wp_bind, wp_statement, Prog.after_some, Prog.after_none]
  rw [wp_addUpdate (Store.isSome_incident_resolveIncident h _)]
  cases hs : w.engine.subscriptions <;> cases input.muted <;>
    simp [World.onStore, Store.recoveredNoted, wp_publishIncident, notified, hs] <;> tauto

/-! ### One probe outcome -/

/-- **Every way `handle` can end.** -/
theorem wp_handle :
    (handle pf input).wp Q w ↔
      ((w.held input.check.id).isSome → Q none w) ∧
      match ((effective w input.check.id).onResult input.check input.ok input.now).2 with
      | .nothing => Q (some ()) (stepped input w)
      | .open => (onOpen pf input).wp Q (stepped input w)
      | .resolve id => (onResolve input id).wp Q (stepped input w)
      | .remind id =>
        Q (some ()) (notified input.muted (reminderNotification input id) (stepped input w)) := by
  unfold handle
  simp only [Prog.bind_eq, Prog.wp_bind, wp_dropClosed, Prog.after_some, Prog.after_none,
    wp_advance]
  rw [and_comm]
  refine and_congr_right fun _ => ?_
  unfold effective stepped
  cases (((dropped input.check.id w).machine input.check.id).onResult input.check input.ok
    input.now).2 with
  | nothing => simp
  | «open» => rfl
  | resolve id => rfl
  | remind id =>
    unfold onRemind
    cases input.muted <;> simp [notified]

end

/-! ### Invariants that survive a rewriting -/

/-- An invariant that holds on when rows of incidents get other columns. -/
def Rewritable (I : World → Prop) : Prop :=
  ∀ w f, I w → w.store.Rewrites (f w.store) → I (w.onStore f)

namespace Rewritable

variable {I : World → Prop} {w : World} {id now : ℤ}

theorem resolveIncident (hI : Rewritable I) (h : I w) (id now : ℤ) :
    I (w.onStore (·.resolveIncident id now)) :=
  hI w _ h (.of_update (fun i => .closed i now) fun _ => Store.mem_resolveIncident)

theorem setIncidentState (hI : Rewritable I) (h : I w) (id : ℤ) (state : IncidentState) :
    I (w.onStore (·.setIncidentState id state)) :=
  hI w _ h (.of_update
    (fun i => (⟨rfl, rfl, rfl, fun h => h, fun h => h⟩ : i.Evolves { i with state := state }))
    fun _ => Store.mem_setIncidentState)

theorem wp_addUpdate (hI : Rewritable I) (h : I w) {ts : ℤ} {state : IncidentState}
    {text : String} {auto : Bool} :
    (addUpdate id ts state text auto).wp (fun _ => I) w := by
  cases hi : w.store.incident id with
  | none => exact (wp_addUpdate_of_none hi).mpr h
  | some i =>
    rw [Dunlin.wp_addUpdate (by rw [hi]; rfl)]
    exact ⟨hI w _ h (.of_incidents rfl), h⟩

theorem wp_publishIncident (hI : Rewritable I) (h : I w) {cfg : Config} {change : IncidentChange}
    {text : String} : (publishIncident cfg id change text now).wp (fun _ => I) w := by
  rw [Dunlin.wp_publishIncident]
  exact ⟨hI w _ h (.of_incidents Store.incidents_publishIncident), h⟩

/-- The rule for a program made of two. -/
theorem wp_bind {α β : Type} {p : Prog World α} {f : α → Prog World β}
    (hp : p.wp (fun _ => I) w) (hf : ∀ a w', I w' → (f a).wp (fun _ => I) w') :
    (p.bind f).wp (fun _ => I) w := by
  rw [Prog.wp_bind]
  refine Prog.wp_mono hp fun r w' hw' => ?_
  cases r with
  | some a => exact hf a w' hw'
  | none => exact hw'

theorem wp_forgetUnmonitored (hI : Rewritable I)
    (hretain : ∀ cfg ids w, I w → I (retain cfg ids w)) (h : I w) {pf : Platform} {cfg : Config}
    {previous : Option Config} :
    (forgetUnmonitored pf cfg previous now).wp (fun _ => I) w := by
  have hone : ∀ i ids w, I w →
      (forgetIncident cfg previous now ids i).wp (fun _ => I) w := by
    intro i ids w hw
    rw [forgetIncident]
    split
    · exact hw
    · refine wp_bind ⟨hI.resolveIncident hw _ _, hw⟩ fun _ w hw => ?_
      refine wp_bind (hI.wp_addUpdate hw) fun _ w hw => ?_
      exact wp_bind (hI.wp_publishIncident hw) fun _ _ hw => hw
  have hall : ∀ (l : List Incident) ids w, I w →
      (l.foldlM (forgetIncident cfg previous now) ids).wp (fun _ => I) w := by
    intro l
    induction l with
    | nil => exact fun _ _ hw => hw
    | cons i l ih =>
      intro ids w hw
      rw [List.foldlM_cons]
      exact wp_bind (hone i ids w hw) ih
  rw [forgetUnmonitored]
  refine wp_bind ⟨h, h⟩ fun incidents w hw => ?_
  refine wp_bind (hall incidents [] w hw) fun ids w hw => ?_
  exact hretain cfg ids w hw

theorem wp_bootstrap (hI : Rewritable I) (hretain : ∀ cfg ids w, I w → I (retain cfg ids w))
    {pf : Platform}
    (hresume : ∀ w checkId i, I w → i ∈ w.store.incidents.rows →
      I (w.setMachine checkId (.resumed i.id))) (h : I w) {cfg : Config} :
    (bootstrap pf cfg now).wp (fun _ => I) w := by
  have hall : ∀ (checks : List CheckConfig) u w, I w →
      (checks.foldlM (fun _ check => resume pf cfg check) u).wp (fun _ => I) w := by
    intro checks
    induction checks with
    | nil => exact fun _ _ hw => hw
    | cons check checks ih =>
      intro u w hw
      rw [List.foldlM_cons]
      refine wp_bind ?_ ih
      rw [resume]
      simp only [Prog.bind_eq, Prog.wp_bind, wp_select, Prog.after_some, Prog.after_none]
      refine ⟨?_, hw⟩
      cases hi : w.store.activeIncidentFor pf (cfg.incidentComponent check.id) with
      | none => exact hw
      | some i => exact hresume w _ i hw (Store.activeIncidentFor_eq_some hi).1
  rw [bootstrap]
  exact wp_bind (hI.wp_forgetUnmonitored hretain h) fun _ w hw => hall _ _ w hw

theorem wp_operatorUpdate (hI : Rewritable I) (h : I w) {form : UpdateForm} :
    (Operator.update id form now).wp (fun _ => I) w := by
  rw [Operator.update]
  refine wp_bind (hI.wp_addUpdate h) fun _ w hw => ?_
  have hpublish : ∀ w, I w → (do
      let cfg ← Prog.get (·.running)
      publishIncident cfg id (changeFor form.incidentState) form.message now :
        Prog World Unit).wp (fun _ => I) w := fun w hw =>
    wp_bind (by exact hw) fun _ _ hw => hI.wp_publishIncident hw
  dsimp only
  split
  · exact wp_bind ⟨hI.resolveIncident hw _ _, hw⟩ fun _ w hw => hpublish w hw
  · exact wp_bind ⟨hI.setIncidentState hw _ _, hw⟩ fun _ w hw => hpublish w hw

theorem wp_operatorResolve (hI : Rewritable I) (h : I w) :
    (Operator.resolve id now).wp (fun _ => I) w := by
  rw [Operator.resolve]
  refine wp_bind ⟨hI.resolveIncident h _ _, h⟩ fun _ w hw => ?_
  refine wp_bind (hI.wp_addUpdate hw) fun _ w hw => ?_
  exact wp_bind (by exact hw) fun _ w hw => hI.wp_publishIncident hw

/-- The operator's `create`, for an invariant that survives a new manual incident. -/
theorem wp_operatorCreate (hI : Rewritable I) {form : CreateIncidentForm}
    (hcreate : ∀ title impact component, I (w.onStore
      (·.createIncident component title impact .investigating false now))) (h : I w) :
    (Operator.create form now).wp (fun _ => I) w := by
  rw [Operator.create]
  refine wp_bind ⟨hcreate _ _ _, h⟩ fun _ w hw => ?_
  refine wp_bind (hI.wp_addUpdate hw) fun _ w hw => ?_
  exact wp_bind (by exact hw) fun _ w hw => hI.wp_publishIncident hw

end Rewritable

end Dunlin

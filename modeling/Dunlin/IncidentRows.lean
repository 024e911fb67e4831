import Dunlin.AlertRun

/-!
# What becomes of an incident

Rows of `incidents` after each operation with every database call succeeding, in terms of the rows
before it, and the timeline entries it adds. No operation deletes an incident or changes its id, its
component or its `auto` flag (`Incident.Evolves`), and none reopens one.

Each lemma names the rows after one statement by the rows before it. On top of them stand two
relations between stores: `Store.Grows`, that every incident is still there, as it was or further
on, and `Store.Rewrites`, that each row of the later store comes from a row of the earlier one. Both
are preorders, so they hold from one end of a run to the other.

## Main results

* `Store.Grows`, `Store.Rewrites` — what a store keeps over time
* `grows_step` — no operation deletes, reopens or relabels an incident
-/

namespace Dunlin

open Lib

/-! ### Rows after each operation -/

namespace Store

variable {pf : Platform} {subscriptions : Option Config} {cfg : Config} {input : AlertInput}
  {s : Store} {i : Incident} {id now : ℤ}

/-- The incident the engine opens for a probe outcome. -/
def autoIncident (input : AlertInput) (id : ℤ) : Incident :=
  { newIncident input.component s!"{input.check.name} is down" .majorOutage .investigating true
      input.now id with
    quiet := input.muted }

theorem rows_opened :
    (s.opened pf subscriptions input).incidents.rows =
      s.incidents.rows ++ [autoIncident input s.incidents.next] := by
  unfold opened autoIncident
  cases input.muted with
  | true => exact rows_markQuiet_createIncident
  | false => cases subscriptions <;> simp [createIncident, addUpdate, newIncident]

theorem updates_opened :
    (s.opened pf subscriptions input).updates =
      (s.addUpdate s.incidents.next input.now .investigating
        (sentenceCase pf (input.message.getD "check failed")) true).updates := by
  unfold opened
  cases input.muted with
  | true => rfl
  | false => cases subscriptions <;> simp [createIncident, addUpdate]

theorem incidents_recovered :
    (s.recovered subscriptions input id).incidents =
      (s.resolveIncident id input.now).incidents := by
  unfold recovered
  cases subscriptions <;> simp [addUpdate]

theorem mem_recovered :
    i ∈ (s.recovered subscriptions input id).incidents.rows ↔
      ∃ i₀ ∈ s.incidents.rows, (if i₀.id = id then i₀.closed input.now else i₀) = i := by
  rw [incidents_recovered]
  exact mem_resolveIncident

theorem updates_recovered :
    (s.recovered subscriptions input id).updates =
      (s.addUpdate id input.now .resolved "Automatically resolved after recovery."
        true).updates := by
  unfold recovered
  cases subscriptions <;> simp [addUpdate, resolveIncident]

theorem rows_operatorCreated (form : CreateIncidentForm) :
    (s.operatorCreated cfg form now).incidents.rows =
      s.incidents.rows ++ [newIncident form.componentId form.title form.impactState .investigating
        false now s.incidents.next] := by
  simp [operatorCreated, addUpdate, createIncident]

/-- What an operator's update makes of the incident's row. -/
def afterUpdate (form : UpdateForm) (now : ℤ) (i : Incident) : Incident :=
  if form.incidentState = .resolved then i.closed now else { i with state := form.incidentState }

theorem mem_operatorUpdated (form : UpdateForm) :
    i ∈ (s.operatorUpdated cfg id form now).incidents.rows ↔
      ∃ i₀ ∈ s.incidents.rows, (if i₀.id = id then afterUpdate form now i₀ else i₀) = i := by
  unfold operatorUpdated afterUpdate
  simp only [incidents_publishIncident]
  split
  · exact mem_resolveIncident (s := s.addUpdate id now form.incidentState form.message false)
  · exact mem_setIncidentState (s := s.addUpdate id now form.incidentState form.message false)

theorem incidents_operatorResolved :
    (s.operatorResolved cfg id now).incidents = (s.resolveIncident id now).incidents := by
  simp [operatorResolved, addUpdate]

theorem mem_operatorResolved :
    i ∈ (s.operatorResolved cfg id now).incidents.rows ↔
      ∃ i₀ ∈ s.incidents.rows, (if i₀.id = id then i₀.closed now else i₀) = i := by
  rw [incidents_operatorResolved]
  exact mem_resolveIncident

theorem mem_updates_addUpdate {ts : ℤ} {state : IncidentState} {text : String} {auto : Bool}
    {u : IncidentUpdate} :
    u ∈ (s.addUpdate id ts state text auto).updates.rows ↔
      u ∈ s.updates.rows ∨ u = ⟨s.updates.next, id, ts, state, text, auto⟩ :=
  Table.mem_insert _ _

theorem updates_forgotOne {previous : Option Config} {u : IncidentUpdate}
    (h : u ∈ (s.forgotOne cfg previous now i).updates.rows) :
    u ∈ s.updates.rows ∨ cfg.abandons i ∧ u.incidentId = i.id ∧ u.ts = now := by
  unfold forgotOne at h
  split at h
  · rename_i ha
    rw [updates_publishIncident, mem_updates_addUpdate] at h
    exact h.imp id fun hu => ⟨ha, by rw [hu], by rw [hu]⟩
  · exact .inl h

/-- `forgetUnmonitored` writes to the timelines of the incidents it resolves only. -/
theorem updates_forgotten {previous : Option Config} {u : IncidentUpdate}
    (h : u ∈ (s.forgotten pf cfg previous now).updates.rows) :
    u ∈ s.updates.rows ∨
      ∃ i ∈ s.incidents.rows, i.isActive ∧ cfg.abandons i ∧ u.incidentId = i.id ∧ u.ts = now := by
  have hfold : ∀ (l : List Incident) (s' : Store),
      u ∈ (l.foldl (forgotOne cfg previous now) s').updates.rows →
        u ∈ s'.updates.rows ∨ ∃ i ∈ l, cfg.abandons i ∧ u.incidentId = i.id ∧ u.ts = now := by
    intro l
    induction l with
    | nil => exact fun s' hu => .inl hu
    | cons i l ih =>
      intro s' hu
      rcases ih _ hu with hu | ⟨j, hj, hju⟩
      · rcases updates_forgotOne hu with hu | hiu
        · exact .inl hu
        · exact .inr ⟨i, List.mem_cons_self, hiu⟩
      · exact .inr ⟨j, List.mem_cons_of_mem _ hj, hju⟩
  rcases hfold _ _ h with hu | ⟨j, hj, hju⟩
  · exact .inl hu
  · obtain ⟨hj, hact⟩ := mem_activeIncidents.mp hj
    exact .inr ⟨j, hj, hact, hju⟩

/-- The open incident of a monitored component survives `forgetUnmonitored`. -/
theorem activeIncidentFor_forgotten {previous : Option Config} {component : String}
    (h : cfg.monitors component) :
    (s.forgotten pf cfg previous now).activeIncidentFor pf component =
      s.activeIncidentFor pf component := by
  have hfilter : (s.forgotten pf cfg previous now).incidents.rows.filter
      (fun i => i.isActive && i.component == component) =
        s.incidents.rows.filter fun i => i.isActive && i.component == component := by
    rw [forgotten, rows_foldl_forgotOne, ← forgottenIds]
    refine Table.filter_map_of_unseen fun i hi => ?_
    by_cases hid : i.id ∈ s.forgottenIds pf cfg
    · have hab : cfg.abandons i := ((mem_forgottenIds hi).mp hid).2
      have hc : i.component ≠ component := fun hc => by
        simp [Config.abandons, hc, h] at hab
      exact .inr ⟨by simp [hc], by simp [hid, Incident.closed, hc]⟩
    · exact .inl (if_neg hid)
  rw [activeIncidentFor, hfilter, ← activeIncidentFor]

end Store

/-! ### Rows over time -/

/-- What no operation changes about an incident, and that none reopens it. -/
structure Incident.Evolves (i i' : Incident) : Prop where
  id : i'.id = i.id
  component : i'.component = i.component
  auto : i'.auto = i.auto
  quiet : i.quiet → i'.quiet
  /-- A closed incident stays closed. -/
  active : i'.isActive → i.isActive

namespace Incident.Evolves

variable {i : Incident} {ts : ℤ}

theorem refl (i : Incident) : i.Evolves i := ⟨rfl, rfl, rfl, fun h => h, fun h => h⟩

theorem closed (i : Incident) (ts : ℤ) : i.Evolves (i.closed ts) :=
  ⟨rfl, rfl, rfl, fun h => h, fun h => absurd h (by simp [Incident.closed, Incident.isActive])⟩

theorem afterUpdate (form : UpdateForm) (ts : ℤ) (i : Incident) :
    i.Evolves (Store.afterUpdate form ts i) := by
  rw [Store.afterUpdate]
  split
  · exact closed i ts
  · exact ⟨rfl, rfl, rfl, fun h => h, fun h => h⟩

end Incident.Evolves

/-- Every incident of `s` is still there in `s'`. -/
def Store.Grows (s s' : Store) : Prop :=
  ∀ i ∈ s.incidents.rows, ∃ i' ∈ s'.incidents.rows, i.Evolves i'

theorem Store.Grows.refl (s : Store) : s.Grows s := fun i hi => ⟨i, hi, .refl i⟩

theorem Store.Grows.of_rows_append {s s' : Store} {rows : List Incident}
    (h : s'.incidents.rows = s.incidents.rows ++ rows) : s.Grows s' := fun i hi =>
  ⟨i, h ▸ List.mem_append_left _ hi, .refl i⟩

/-- The incidents of `s'` are those of `s`, with other columns. -/
structure Store.Rewrites (s s' : Store) : Prop where
  grows : s.Grows s'
  origin : ∀ i' ∈ s'.incidents.rows, ∃ i ∈ s.incidents.rows, i.Evolves i'

namespace Store.Rewrites

variable {s s' : Store}

theorem of_incidents (h : s'.incidents = s.incidents) : s.Rewrites s' :=
  ⟨fun i hi => ⟨i, h ▸ hi, .refl i⟩, fun i hi => ⟨i, h ▸ hi, .refl i⟩⟩

/-- An `UPDATE` of the rows picked by `p`. -/
theorem of_update {f : Incident → Incident} {p : Incident → Prop} [DecidablePred p]
    (hf : ∀ i : Incident, i.Evolves (f i))
    (h : ∀ i', i' ∈ s'.incidents.rows ↔
      ∃ i ∈ s.incidents.rows, (if p i then f i else i) = i') : s.Rewrites s' := by
  have hif : ∀ i : Incident, i.Evolves (if p i then f i else i) := fun i => by
    split
    · exact hf i
    · exact .refl i
  refine ⟨fun i hi => ⟨_, (h _).mpr ⟨i, hi, rfl⟩, hif i⟩, fun i' hi' => ?_⟩
  obtain ⟨i, hi, rfl⟩ := (h i').mp hi'
  exact ⟨i, hi, hif i⟩

theorem recovered (subscriptions : Option Config) (input : AlertInput) (id : ℤ) (s : Store) :
    s.Rewrites (s.recovered subscriptions input id) :=
  .of_update (fun i => .closed i input.now) fun _ => mem_recovered

theorem forgotten (pf : Platform) (cfg : Config) (previous : Option Config) (now : ℤ) (s : Store) :
    s.Rewrites (s.forgotten pf cfg previous now) :=
  .of_update (fun i => .closed i now) fun _ => mem_forgotten

theorem operatorUpdated (cfg : Config) (id : ℤ) (form : UpdateForm) (now : ℤ) (s : Store) :
    s.Rewrites (s.operatorUpdated cfg id form now) :=
  .of_update (fun i => .afterUpdate form now i) fun _ => mem_operatorUpdated form

theorem operatorResolved (cfg : Config) (id now : ℤ) (s : Store) :
    s.Rewrites (s.operatorResolved cfg id now) :=
  .of_update (fun i => .closed i now) fun _ => mem_operatorResolved

end Store.Rewrites

section

variable {pf : Platform} {w : World}

open AlertEngine

theorem grows_fedStore (input : AlertInput) : w.store.Grows (fedStore pf w input) := by
  rw [fedStore]
  split
  · split
    · exact .refl _
    · exact .of_rows_append Store.rows_opened
  · split
    · split
      · exact (Store.Rewrites.recovered _ _ _ _).grows
      · exact .refl _
    · exact .refl _

/-- **No operation deletes, reopens or relabels an incident.** -/
theorem grows_step (pf : Platform) (w : World) (op : Op) : w.store.Grows (step pf w op).store := by
  cases op with
  | start cfg now =>
    rw [store_start]
    exact (Store.Rewrites.forgotten _ _ _ _ _).grows
  | reload cfg now =>
    rw [store_reload]
    exact (Store.Rewrites.forgotten _ _ _ _ _).grows
  | follow => exact .refl _
  | handle input =>
    rw [step_handle, store_handled]
    exact grows_fedStore input
  | create form now =>
    rw [step_create]
    exact .of_rows_append (Store.rows_operatorCreated form)
  | update id form now =>
    rw [step_update]
    split
    · exact (Store.Rewrites.operatorUpdated _ _ _ _ _).grows
    · exact .refl _
  | resolve id now =>
    rw [step_resolve]
    split
    · exact (Store.Rewrites.operatorResolved _ _ _ _).grows
    · exact .refl _

end

end Dunlin

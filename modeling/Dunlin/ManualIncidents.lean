import Dunlin.IncidentRows

/-!
# Manual incidents

`forget_unmonitored` says that manual incidents were opened by an operator and are theirs to close,
and skips them. `bootstrap` and the opening branch of `handle` make no such distinction: they take
whatever incident is open on the component, and the check's recovery then closes it.

`closes_manual` is a run in which that happens. `engine_leaves_manual` says that nothing else goes
wrong: as long as bootstrapping and opening only ever find automatic incidents, the engine leaves
every manual incident alone. What carries it is that every machine then points at an automatic
incident (`HoldsAuto`).

## Main results

* `HoldsAuto.step` — machines point at automatic incidents as long as only those are found
* `HoldsAuto.leavesManual` — and then no manual incident is touched
* `engine_leaves_manual` — for every run whose steps find none
* `closes_manual` — an operator's incident that the engine closes
-/

namespace Dunlin

open Lib AlertEngine

/-- Between two states of the tables, no incident of the operator's was closed or reopened, and none
got a resolving timeline entry. -/
def SparesManual (s s' : Store) : Prop :=
  ∀ i ∈ s.incidents.rows, i.auto = false →
    (∃ i' ∈ s'.incidents.rows, i'.id = i.id ∧ i'.resolvedAt = i.resolvedAt) ∧
      ∀ u ∈ s'.updates.rows, u.incidentId = i.id → u.state = .resolved → u ∈ s.updates.rows

instance (s s' : Store) : Decidable (SparesManual s s') :=
  inferInstanceAs (Decidable (∀ i ∈ s.incidents.rows, i.auto = false → _ ∧ _))

variable (pf : Platform)

/-- An operation that is not the operator's leaves the manual incidents alone. -/
def LeavesManual (w : World) (op : Op) : Prop :=
  op.isOperator = false → SparesManual w.store (step pf w op).store

instance (w : World) (op : Op) : Decidable (LeavesManual pf w op) :=
  inferInstanceAs (Decidable (_ → _))

/-- The incidents an operation makes machines point at are automatic. -/
def TakesAutomatic (w : World) : Op → Prop
  | .start cfg _ => ∀ c ∈ cfg.checks,
    (w.store.activeIncidentFor pf (cfg.incidentComponent c.id)).all (·.auto)
  | .handle input => (effective w input.check.id).opens input.check input.ok →
    (w.store.activeIncidentFor pf input.component).all (·.auto)
  | _ => True

instance (w : World) : (op : Op) → Decidable (TakesAutomatic pf w op)
  | .start cfg _ => inferInstanceAs (Decidable (∀ c ∈ cfg.checks, _))
  | .handle _ => inferInstanceAs (Decidable (_ → _))
  | .reload .. | .follow | .create .. | .update .. | .resolve .. => isTrue trivial

/-! ### The invariant -/

/-- Every machine that points at an incident points at an automatic one. -/
def HoldsAuto (w : World) : Prop :=
  ∀ c id, w.held c = some id → ∃ i ∈ w.store.incidents.rows, i.id = id ∧ i.auto = true

variable {pf} {w : World} {op : Op}

/-- A start points a machine at the open incident of its component. -/
theorem held_start {cfg : Config} {now : ℤ} {c : String} {id : ℤ}
    (hop : TakesAutomatic pf w (.start cfg now))
    (h : (step pf w (.start cfg now)).held c = some id) :
    ∃ i ∈ (step pf w (.start cfg now)).store.incidents.rows, i.id = id ∧ i.auto = true := by
  rw [World.held, machines_start] at h
  split at h
  · rename_i hc
    obtain ⟨check, hcheck, rfl⟩ := List.mem_map.mp hc
    have hact : (w.store.forgotten pf cfg none now).activeIncidentFor pf
        (cfg.incidentComponent check.id) =
          w.store.activeIncidentFor pf (cfg.incidentComponent check.id) :=
      Store.activeIncidentFor_forgotten (cfg.monitors_incidentComponent hcheck)
    rw [hact] at h
    cases hi : w.store.activeIncidentFor pf (cfg.incidentComponent check.id) with
    | none => simp [hi] at h
    | some i =>
      have hauto : i.auto := by simpa [hi] using hop check hcheck
      obtain ⟨i', hi', he⟩ := grows_step pf w (.start cfg now) i
        (Store.activeIncidentFor_eq_some hi).1
      refine ⟨i', hi', ?_, he.auto.trans hauto⟩
      simpa [hi, CheckMachine.resumed, he.id] using h
  · simp at h

/-- A result that opens an incident points the machine at the one it adopts or creates. -/
theorem auto_target {input : AlertInput} (hop : TakesAutomatic pf w (.handle input))
    (ho : (effective w input.check.id).opens input.check input.ok) :
    ∃ i ∈ (handled pf input w).store.incidents.rows, i.id = target pf w input ∧ i.auto = true := by
  have hopen := hop ho
  rw [store_handled, fedStore, if_pos ho, target]
  cases hi : w.store.activeIncidentFor pf input.component with
  | some i =>
    rw [hi] at hopen
    exact ⟨i, (Store.activeIncidentFor_eq_some hi).1, rfl, by simpa using hopen⟩
  | none =>
    refine ⟨Store.autoIncident input w.store.incidents.next, ?_, rfl, rfl⟩
    rw [Store.rows_opened]
    exact List.mem_append_right _ List.mem_cons_self

/-- What a machine may point at after an operation: the incident it pointed at, or one the
operation made it take. -/
theorem held_step {c : String} {id : ℤ} (hop : TakesAutomatic pf w op)
    (h : (step pf w op).held c = some id) :
    w.held c = some id ∨ ∃ i ∈ (step pf w op).store.incidents.rows, i.id = id ∧ i.auto = true := by
  cases op with
  | start cfg now => exact .inr (held_start hop h)
  | reload cfg now =>
    rw [World.held, machines_reload] at h
    cases hm : w.engine.machines c with
    | none => simp [hm] at h
    | some m =>
      rw [hm] at h
      rw [Option.bind_eq_some_iff] at h
      obtain ⟨m', hm', hid⟩ := h
      rw [Option.filter_eq_some_iff] at hm'
      refine .inl ?_
      rw [World.held, hm, hm'.1, Option.bind_some, hid]
  | follow => exact .inl h
  | handle input =>
    rw [step_handle] at h ⊢
    rcases held_handled pf input w h with ⟨rfl, ho, rfl⟩ | hheld
    · exact .inr (auto_target hop ho)
    · exact .inl hheld
  | create form now => exact .inl (by rwa [step_create] at h)
  | update id form now =>
    rw [step_update] at h
    refine .inl ?_
    split at h <;> exact h
  | resolve id now =>
    rw [step_resolve] at h
    refine .inl ?_
    split at h <;> exact h

theorem HoldsAuto.step (h : HoldsAuto w) (hop : TakesAutomatic pf w op) :
    HoldsAuto (step pf w op) := by
  intro c id hc
  rcases held_step hop hc with hold | hnew
  · obtain ⟨i, hi, rfl, hauto⟩ := h c id hold
    obtain ⟨i', hi', he⟩ := grows_step pf w op i hi
    exact ⟨i', hi', he.id, he.auto.trans hauto⟩
  · exact hnew

/-! ### One operation -/

theorem SparesManual.refl (s : Store) : SparesManual s s := fun i hi _ =>
  ⟨⟨i, hi, rfl, rfl⟩, fun _ hu _ _ => hu⟩

theorem sparesManual_forgotten {cfg : Config} {previous : Option Config} {now : ℤ} {s : Store} :
    SparesManual s (s.forgotten pf cfg previous now) := by
  intro i hi hmanual
  have hkeep : ¬(i.isActive ∧ cfg.abandons i) := fun h => by
    simp [Config.abandons, hmanual] at h
  refine ⟨⟨i, Store.mem_forgotten.mpr ⟨i, hi, if_neg hkeep⟩, rfl, rfl⟩, fun u hu hui _ => ?_⟩
  rcases Store.updates_forgotten hu with hu | ⟨j, hj, -, hab, huj, -⟩
  · exact hu
  · obtain rfl : j = i := Table.eq_of_id hj hi (huj.symm.trans hui)
    simp [Config.abandons, hmanual] at hab

theorem sparesManual_recovered {subscriptions : Option Config} {input : AlertInput} {s : Store}
    {j : Incident} (hj : j ∈ s.incidents.rows) (hauto : j.auto = true) :
    SparesManual s (s.recovered subscriptions input j.id) := by
  intro i hi hmanual
  have hne : i.id ≠ j.id := fun h => by
    rw [Table.eq_of_id hi hj h, hauto] at hmanual
    exact absurd hmanual (by decide)
  refine ⟨⟨i, Store.mem_recovered.mpr ⟨i, hi, if_neg hne⟩, rfl, rfl⟩, fun u hu hui _ => ?_⟩
  rw [Store.updates_recovered, Store.mem_updates_addUpdate] at hu
  rcases hu with hu | rfl
  · exact hu
  · exact absurd hui.symm hne

theorem sparesManual_opened {subscriptions : Option Config} {input : AlertInput} {s : Store} :
    SparesManual s (s.opened pf subscriptions input) := by
  intro i hi _
  refine ⟨⟨i, ?_, rfl, rfl⟩, fun u hu _ hres => ?_⟩
  · rw [Store.rows_opened]
    exact List.mem_append_left _ hi
  · rw [Store.updates_opened, Store.mem_updates_addUpdate] at hu
    rcases hu with hu | rfl
    · exact hu
    · exact absurd hres (by simp)

/-- While machines point at automatic incidents only, no operation but the operator's touches a
manual one. -/
theorem HoldsAuto.leavesManual (h : HoldsAuto w) : LeavesManual pf w op := by
  intro hop
  cases op with
  | start cfg now =>
    rw [store_start]
    exact sparesManual_forgotten
  | reload cfg now =>
    rw [store_reload]
    exact sparesManual_forgotten
  | follow => exact .refl _
  | handle input =>
    rw [step_handle, store_handled]
    rw [fedStore]
    split
    · split
      · exact .refl _
      · exact sparesManual_opened
    · split
      · split
        · rename_i id hid
          obtain ⟨-, -, -, -, -, hheld⟩ := exists_of_effective hid
          obtain ⟨j, hj, rfl, hauto⟩ := h _ _ hheld
          exact sparesManual_recovered hj hauto
        · exact .refl _
      · exact .refl _
  | create form now => simp [Op.isOperator] at hop
  | update id form now => simp [Op.isOperator] at hop
  | resolve id now => simp [Op.isOperator] at hop

/-! ### Runs -/

theorem holdsAuto_initial (store : Store) (cfg : Config) : HoldsAuto (.initial store cfg) := by
  intro c id h
  simp [World.held, World.initial] at h

/-- **The engine leaves manual incidents to the operator** in every run in which bootstrapping and
opening only ever find automatic incidents. -/
theorem engine_leaves_manual (store : Store) (cfg : Config) (ops : List Op)
    (h : Always (step pf) (TakesAutomatic pf) (.initial store cfg) ops) :
    Always (step pf) (LeavesManual pf) (.initial store cfg) ops :=
  h.of_inv (holdsAuto_initial store cfg) (fun _ _ hw hop => hw.step hop)
    fun _ _ hw _ => hw.leavesManual

/-- The check fails and recovers while the operator has an incident open on another component. -/
theorem engine_leaves_manual_elsewhere :
    Always (step .ascii) (LeavesManual .ascii) (.initial .empty quickConfig)
      [.start quickConfig 0, .create { component := "api", title := "Slow" } 1,
        .handle (probe false 2), .handle (probe true 3)] :=
  engine_leaves_manual .empty quickConfig _ (by decide)

/-- **The engine closes an incident of the operator's**: the operator opens an incident on the
check's component, the check fails, which adopts it, and recovers, which resolves it. -/
theorem closes_manual :
    ¬Always (step .ascii) (LeavesManual .ascii) (.initial .empty quickConfig)
      [.start quickConfig 0, .create { component := "web", title := "Slow" } 1,
        .handle (probe false 2), .handle (probe true 3)] := by
  decide

end Dunlin

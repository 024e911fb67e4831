import Dunlin.IncidentRows

/-!
# Automatic incidents nobody can close

An automatic incident is closed by the recovery of the check whose machine points at it, so it must
be pointed at by the machine of a check in force (`Tracked`), or it stays open for good. That is
what `forget_unmonitored` is for: `prober_loop` calls it because otherwise the incidents of a
removed check "stay open for good".

It goes by component, though. An incident stays when its component is still monitored, also when
the check that opened it is gone. And a start resumes one incident for each component, the newest,
which may be a manual one. `keepsTrack` states what the tables and machines must look like for a
start or a reload to lose nothing, and `tracked_iff` says that this is exactly what it takes.

## Main results

* `tracked_start_iff`, `tracked_reload_iff` — a start and a reload lose nothing exactly then
* `Tracked.handle`, `Tracked.operator` — results and the operator lose nothing at all
* `tracked_iff` — both directions, along every run from an empty database
* `orphaned_by_replacement` — a check is replaced by another on its component
-/

namespace Dunlin

open Lib AlertEngine

/-- The machine of a check is down and points at an incident. -/
def Tracks (w : World) (c : CheckConfig) (i : Incident) : Prop :=
  (w.engine.machines c.id).any fun m => m.state == .down && m.incidentId == some i.id

instance (w : World) (c : CheckConfig) (i : Incident) : Decidable (Tracks w c i) :=
  inferInstanceAs (Decidable (_ = true))

theorem tracks_iff {w : World} {c : CheckConfig} {i : Incident} :
    Tracks w c i ↔
      ∃ m, w.engine.machines c.id = some m ∧ m.state = .down ∧ m.incidentId = some i.id := by
  simp [Tracks, Option.any_eq_true]

/-- Every open automatic incident is tracked by the machine of a check in force. -/
def Tracked (w : World) : Prop :=
  ∀ i ∈ w.store.incidents.rows, i.isActive → i.auto → ∃ c ∈ w.running.checks, Tracks w c i

instance (w : World) : Decidable (Tracked w) :=
  inferInstanceAs (Decidable (∀ i ∈ w.store.incidents.rows, i.isActive → i.auto → _))

variable (pf : Platform)

/-- The operations as `app.rs` performs them: configs are validated, and results come from checks of
the config in force and name the component it files their incidents under. -/
def Served (w : World) : Op → Prop
  | .start cfg _ | .reload cfg _ => cfg.validate = []
  | .handle input => input.check ∈ w.running.checks ∧
    input.component = w.running.incidentComponent input.check.id
  | _ => True

instance (w : World) : (op : Op) → Decidable (Served w op)
  | .start .. | .reload .. => inferInstanceAs (Decidable (_ = []))
  | .handle _ => inferInstanceAs (Decidable (_ ∧ _))
  | .follow | .create .. | .update .. | .resolve .. => isTrue trivial

/-- What a start or a reload must find to lose nothing. For a start: every open automatic incident
on a monitored component is the one a check of the new config resumes. For a reload: every such
incident is tracked by a check of the new config. -/
def KeepsTrack (w : World) : Op → Prop
  | .start cfg _ => ∀ i ∈ w.store.incidents.rows, i.isActive → i.auto → cfg.monitors i.component →
    ∃ c ∈ cfg.checks, w.store.activeIncidentFor pf (cfg.incidentComponent c.id) = some i
  | .reload cfg _ => ∀ i ∈ w.store.incidents.rows, i.isActive → i.auto →
    cfg.monitors i.component → ∃ c ∈ cfg.checks, Tracks w c i
  | _ => True

instance (w : World) : (op : Op) → Decidable (KeepsTrack pf w op)
  | .start _ _ =>
    inferInstanceAs (Decidable (∀ i ∈ w.store.incidents.rows, i.isActive → i.auto → _ → _))
  | .reload _ _ =>
    inferInstanceAs (Decidable (∀ i ∈ w.store.incidents.rows, i.isActive → i.auto → _ → _))
  | .handle _ | .follow | .create .. | .update .. | .resolve .. => isTrue trivial

variable {pf} {w : World}

/-! ### Starts and reloads -/

/-- The open automatic incidents after `forgetUnmonitored` are those on monitored components. -/
theorem mem_forgotten_active {cfg : Config} {previous : Option Config} {now : ℤ} {s : Store}
    {i : Incident} (hact : i.isActive) (hauto : i.auto) :
    i ∈ (s.forgotten pf cfg previous now).incidents.rows ↔
      i ∈ s.incidents.rows ∧ cfg.monitors i.component := by
  rw [Store.mem_forgotten]
  constructor
  · rintro ⟨i₀, hi₀, h⟩
    by_cases hc : i₀.isActive ∧ cfg.abandons i₀
    · rw [if_pos hc] at h
      simp [← h, Incident.closed, Incident.isActive] at hact
    · rw [if_neg hc] at h
      subst h
      refine ⟨hi₀, ?_⟩
      simpa [Config.abandons, hact, hauto] using hc
  · rintro ⟨hi, hmon⟩
    exact ⟨i, hi, if_neg fun h => by simp [Config.abandons, hmon] at h⟩

theorem tracked_start_iff (cfg : Config) (now : ℤ) :
    Tracked (step pf w (.start cfg now)) ↔ KeepsTrack pf w (.start cfg now) := by
  have htracks : ∀ i ∈ w.store.incidents.rows, i.isActive → ∀ c ∈ cfg.checks,
      (Tracks (step pf w (.start cfg now)) c i ↔
        w.store.activeIncidentFor pf (cfg.incidentComponent c.id) = some i) := by
    intro i hi hact c hc
    rw [tracks_iff, machines_start, if_pos (List.mem_map_of_mem hc),
      Store.activeIncidentFor_forgotten (cfg.monitors_incidentComponent hc)]
    cases hj : w.store.activeIncidentFor pf (cfg.incidentComponent c.id) with
    | none => simp
    | some j =>
      have hjmem := (Store.activeIncidentFor_eq_some hj).1
      simp only [Option.map_some, Option.some.injEq, exists_eq_left', CheckMachine.resumed,
        true_and]
      exact ⟨fun h => Table.eq_of_id hjmem hi h, fun h => by rw [h]⟩
  rw [Tracked, KeepsTrack]
  rw [running_start, store_start]
  constructor
  · intro h i hi hact hauto hmon
    obtain ⟨c, hc, ht⟩ := h i ((mem_forgotten_active hact hauto).mpr ⟨hi, hmon⟩) hact hauto
    exact ⟨c, hc, (htracks i hi hact c hc).mp ht⟩
  · intro h i hi hact hauto
    obtain ⟨hi, hmon⟩ := (mem_forgotten_active hact hauto).mp hi
    obtain ⟨c, hc, ht⟩ := h i hi hact hauto hmon
    exact ⟨c, hc, (htracks i hi hact c hc).mpr ht⟩

theorem tracked_reload_iff (cfg : Config) (now : ℤ) :
    Tracked (step pf w (.reload cfg now)) ↔ KeepsTrack pf w (.reload cfg now) := by
  have hrunning : (step pf w (.reload cfg now)).running = cfg := by
    rw [step_reload]
    rfl
  have htracks : ∀ i ∈ w.store.incidents.rows, cfg.monitors i.component → ∀ c ∈ cfg.checks,
      (Tracks (step pf w (.reload cfg now)) c i ↔ Tracks w c i) := by
    intro i hi hmon c hc
    have hcheck : (cfg.check c.id).isSome := by
      rw [Config.check, List.find?_isSome]
      exact ⟨c, hc, by simp⟩
    have hkeep : i.id ∉ w.store.forgottenIds pf cfg := fun h => by
      have hab := ((Store.mem_forgottenIds hi).mp h).2
      simp [Config.abandons, hmon] at hab
    rw [tracks_iff, tracks_iff, machines_reload]
    refine exists_congr fun m => ?_
    rw [Option.filter_eq_some_iff, and_assoc]
    refine and_congr_right fun _ => ⟨fun h => h.2, fun h => ⟨?_, h⟩⟩
    simp [hcheck, h.2, hkeep]
  rw [Tracked, KeepsTrack]
  rw [hrunning, store_reload]
  constructor
  · intro h i hi hact hauto hmon
    obtain ⟨c, hc, ht⟩ := h i ((mem_forgotten_active hact hauto).mpr ⟨hi, hmon⟩) hact hauto
    exact ⟨c, hc, (htracks i hi hmon c hc).mp ht⟩
  · intro h i hi hact hauto
    obtain ⟨hi, hmon⟩ := (mem_forgotten_active hact hauto).mp hi
    obtain ⟨c, hc, ht⟩ := h i hi hact hauto hmon
    exact ⟨c, hc, (htracks i hi hmon c hc).mpr ht⟩

/-! ### Probe outcomes -/

section Fed

variable {input : AlertInput} {i : Incident}

/-- A machine that tracks an open incident is down with it when it is fed. -/
theorem effective_of_tracks {check : CheckConfig} (hi : i ∈ w.store.incidents.rows)
    (hact : i.isActive) (ht : Tracks w check i) :
    (effective w check.id).state = .down ∧ (effective w check.id).incidentId = some i.id := by
  obtain ⟨m, hm, hdown, hid⟩ := tracks_iff.mp ht
  rw [effective_of_open hm hid hi hact]
  exact ⟨hdown, hid⟩

theorem tracks_handled_other {c : CheckConfig} (hne : c.id ≠ input.check.id) (ht : Tracks w c i) :
    Tracks (handled pf input w) c i := by
  rw [Tracks]
  rwa [machines_handled, if_neg hne]

theorem tracks_handled_self {c : CheckConfig} (heq : c.id = input.check.id)
    (hdown : (fed pf w input).state = .down) (hid : (fed pf w input).incidentId = some i.id) :
    Tracks (handled pf input w) c i := by
  rw [Tracks]
  simp [machines_handled, heq, hdown, hid]

/-- The machine that tracked an old incident keeps it, or is not the one that was fed, unless it
closes it. -/
theorem Tracked.kept (h : Tracked w) (hi : i ∈ w.store.incidents.rows) (hact : i.isActive)
    (hauto : i.auto) (hnr : (effective w input.check.id).recovers input.check input.ok →
      (effective w input.check.id).incidentId ≠ some i.id) :
    ∃ c ∈ w.running.checks, Tracks (handled pf input w) c i := by
  obtain ⟨c, hc, ht⟩ := h i hi hact hauto
  refine ⟨c, hc, ?_⟩
  by_cases heq : c.id = input.check.id
  · have ht' : Tracks w input.check i := by rwa [Tracks, ← heq]
    obtain ⟨hdown, hid⟩ := effective_of_tracks hi hact ht'
    have hno : ¬(effective w input.check.id).opens input.check input.ok := by
      intro ho
      rw [ho.2.1] at hdown
      exact absurd hdown (by decide)
    have hstays := CheckMachine.onResult_of_stays hno (fun hr => hnr hr hid) input.now
    refine tracks_handled_self heq ?_ ?_
    · rw [fed, if_neg hno, hstays.1, hdown]
    · rw [fed, if_neg hno, hstays.2.1, hid]
  · exact tracks_handled_other heq ht

/-- Feeding a result loses no incident: a machine that tracks an open one goes on tracking it unless
it closes it, and a new one is tracked by the machine that opened it. -/
theorem Tracked.handle (h : Tracked w) (hcheck : input.check ∈ w.running.checks) :
    Tracked (step pf w (.handle input)) := by
  rw [step_handle]
  intro i hi hact hauto
  rw [running_handled]
  rw [store_handled, fedStore] at hi
  split at hi
  · rename_i ho
    split at hi
    · exact h.kept hi hact hauto fun hr => absurd ho (CheckMachine.not_opens_of_recovers hr)
    · rename_i hnone
      rw [Store.rows_opened, List.mem_append, List.mem_singleton] at hi
      rcases hi with hi | rfl
      · exact h.kept hi hact hauto fun hr => absurd ho (CheckMachine.not_opens_of_recovers hr)
      · refine ⟨input.check, hcheck, tracks_handled_self rfl ?_ ?_⟩
        · rw [fed, if_pos ho, CheckMachine.onResult_of_opens ho]
        · rw [fed, if_pos ho, target, hnone]
          rfl
  · split at hi
    · split at hi
      · rename_i id hid
        obtain ⟨i₀, hi₀, hif⟩ := Store.mem_recovered.mp hi
        split at hif
        · simp [← hif, Incident.closed, Incident.isActive] at hact
        · rename_i hne
          subst hif
          refine h.kept hi₀ hact hauto fun _ hid' => hne ?_
          exact (Option.some.inj (hid.symm.trans hid')).symm
      · rename_i hid
        exact h.kept hi hact hauto fun _ hid' => by simp [hid] at hid'
    · rename_i hnr
      exact h.kept hi hact hauto fun hr => absurd hr hnr

end Fed

/-! ### The operator -/

/-- An operation that keeps the machines and only adds manual incidents or closes some. -/
theorem Tracked.of_origin {w' : World} (h : Tracked w)
    (hmachines : w'.engine.machines = w.engine.machines) (hrunning : w'.running = w.running)
    (horigin : ∀ i' ∈ w'.store.incidents.rows, i'.auto = true →
      ∃ i ∈ w.store.incidents.rows, i.Evolves i') : Tracked w' := by
  intro i' hi' hact hauto
  obtain ⟨i, hi, he⟩ := horigin i' hi' hauto
  obtain ⟨c, hc, ht⟩ := h i hi (he.active hact) (he.auto ▸ hauto)
  refine ⟨c, hrunning ▸ hc, ?_⟩
  rw [Tracks] at ht ⊢
  rwa [hmachines, he.id]

theorem Tracked.operator {op : Op} (h : Tracked w) (hop : op.isOperator) :
    Tracked (step pf w op) := by
  cases op with
  | start | reload | follow | handle => simp [Op.isOperator] at hop
  | create form now =>
    rw [step_create]
    refine h.of_origin rfl rfl fun i' hi' hauto => ?_
    rw [World.store_onStore, Store.rows_operatorCreated, List.mem_append, List.mem_singleton] at hi'
    rcases hi' with hi' | rfl
    · exact ⟨i', hi', .refl i'⟩
    · simp [Store.newIncident] at hauto
  | update id form now =>
    rw [step_update]
    split
    · exact h.of_origin rfl rfl fun i' hi' _ =>
        (Store.Rewrites.operatorUpdated _ _ _ _ _).origin i' hi'
    · exact h
  | resolve id now =>
    rw [step_resolve]
    split
    · exact h.of_origin rfl rfl fun i' hi' _ =>
        (Store.Rewrites.operatorResolved _ _ _ _).origin i' hi'
    · exact h

/-! ### Runs -/

theorem tracked_step_iff {op : Op} (h : Tracked w) (hop : Served w op) :
    Tracked (step pf w op) ↔ KeepsTrack pf w op := by
  cases op with
  | start cfg now => exact tracked_start_iff cfg now
  | reload cfg now => exact tracked_reload_iff cfg now
  | follow => exact iff_of_true h trivial
  | handle input => exact iff_of_true (h.handle hop.1) trivial
  | create | update | resolve => exact iff_of_true (h.operator rfl) trivial

/-- **When no automatic incident is orphaned.** Along a run from an empty database, every open
automatic incident is tracked by a check in force after every operation if and only if every start
and every reload finds what it needs. -/
theorem tracked_iff (cfg : Config) (ops : List Op)
    (h : Always (step pf) Served (.initial .empty cfg) ops) :
    Always (step pf) (fun w op => Tracked (step pf w op)) (.initial .empty cfg) ops ↔
      Always (step pf) (KeepsTrack pf) (.initial .empty cfg) ops := by
  have h₀ : Tracked (.initial .empty cfg) := fun i hi => by
    simp [World.initial, Store.empty] at hi
  exact h.iff_of_inv h₀ (fun _ _ hw hop => tracked_step_iff hw hop)
    fun _ _ hw hop hM => (tracked_step_iff hw hop).mpr hM

/-- A reload that gives the component another check. -/
def replacedConfig : Config :=
  { quickConfig with
    components := [{ id := "web", name := "Website", check := some "site" }]
    checks := [{ quickCheck with id := "site" }] }

/-- The check is down when its component is taken off the page: the reload closes the incident. -/
theorem tracked_removed :
    Always (step .ascii) (fun w op => Tracked (step .ascii w op)) (.initial .empty quickConfig)
        [.start quickConfig 0, .handle (probe false 1), .reload {} 2] ↔
      Always (step .ascii) (KeepsTrack .ascii) (.initial .empty quickConfig)
        [.start quickConfig 0, .handle (probe false 1), .reload {} 2] :=
  tracked_iff quickConfig _ (by decide)

/-- **An automatic incident stays open for good**: its check is replaced by another one on the same
component. The reload drops the machine that pointed at the incident, and since the component is
still monitored it keeps the incident, which no machine points at. -/
theorem orphaned_by_replacement :
    Always (step .ascii) Served (.initial .empty quickConfig)
        [.start quickConfig 0, .handle (probe false 1), .reload replacedConfig 2] ∧
      ¬Always (step .ascii) (fun w op => Tracked (step .ascii w op)) (.initial .empty quickConfig)
        [.start quickConfig 0, .handle (probe false 1), .reload replacedConfig 2] := by
  decide

end Dunlin

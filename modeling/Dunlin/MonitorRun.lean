import Dunlin.AlertSync
import Dunlin.Monitor
import Dunlin.StatusPage
import Mathlib.Data.List.Chain
import Mathlib.Data.List.DropRight

/-!
# Alarms are earned

Whatever is configured, reloaded, skipped, interrupted or failing, the engine opens an incident for
a check only at the end of a streak: probes of the check in this process, one after another and each
at least the whole seconds of its interval after the one before, none of which passed and of which
at least `failures_to_open` failed.

## The invariant

It is about one check at a time (`Kept`). Of the probes in the log it looks at the recent ones,
those since the check was last forgotten: the loop's clock is the time of the last of them, and a
machine that is up counts no more failures than they end with. While a check waits for its turn in a
round its clock is ahead of the log; that its turn is due is then what is kept.

## Scope

The loop's clock counts whole seconds, and a check is due by `Duration::as_secs` of its interval:
an interval of a second and a half lets probes a second apart. What is said about the distance of
two probes is said of these whole seconds (`Probe.Follows`).

## Main results

* `alarms_earned` — what every step of every run opens is earned.
-/

namespace Dunlin

open Lib AlertEngine

/-! ### The machine -/

/-- A machine that is up has counted at most so many failures. -/
def CheckMachine.Within (m : CheckMachine) (n : ℕ) : Prop := m.state = .up → m.failures ≤ n

namespace CheckMachine

variable {m : CheckMachine} {n : ℕ} {check : CheckConfig} {ok : Bool} {now : ℤ}

theorem within_default (n : ℕ) : ({} : CheckMachine).Within n := fun _ => Nat.zero_le n

theorem bump_le (n : ℕ) : bump n ≤ n + 1 := Nat.mod_le _ _

theorem up_of_onResult (h : (m.onResult check false now).1.state = .up) : m.state = .up := by
  by_contra hdown
  by_cases hd : m.lastReminder.all (now - · ≥ asI64 check.reminderInterval.asSecs)
  · cases hid : m.incidentId <;> simp [onResult, hdown, hd, hid] at h
  · simp [onResult, hdown, hd] at h

/-- **A result moves the bound** as it moves the number of failures in a row. -/
theorem Within.onResult (h : m.Within n) (check : CheckConfig) (ok : Bool) (now : ℤ) :
    (m.onResult check ok now).1.Within (if ok then 0 else n + 1) := by
  intro hup
  rw [failures_onResult]
  cases ok with
  | true => rfl
  | false => exact (bump_le _).trans (Nat.succ_le_succ (h (up_of_onResult hup)))

theorem Within.opens (h : m.Within n) (ho : m.opens check ok) :
    ok = false ∧ check.failuresToOpen ≤ n + 1 :=
  ⟨ho.1, ho.2.2.trans ((bump_le _).trans (Nat.succ_le_succ (h ho.2.1)))⟩

end CheckMachine

/-! ### One result, whichever statements fail -/

/-- Incidents of `s'` that the engine opened and that were not there in `s` meet `P`. -/
def Store.OpensOnly (P : Incident → Prop) (s s' : Store) : Prop :=
  ∀ i ∈ s'.incidents.rows, i.auto = true →
    (∃ j ∈ s.incidents.rows, j.id = i.id ∧ j.auto = true) ∨ P i

namespace Store.OpensOnly

variable {P : Incident → Prop} {s s' : Store}

theorem of_rewrites (h : s.Rewrites s') : s.OpensOnly P s' := by
  intro i' hi' hauto
  obtain ⟨i, hi, he⟩ := h.origin i' hi'
  exact .inl ⟨i, hi, he.id.symm, he.auto.symm.trans hauto⟩

theorem of_append {i : Incident} (h : s'.incidents.rows = s.incidents.rows ++ [i])
    (hi : i.auto = true → P i) : s.OpensOnly P s' := by
  intro i' hi' hauto
  rw [h, List.mem_append, List.mem_singleton] at hi'
  rcases hi' with hi' | rfl
  · exact .inl ⟨i', hi', rfl, hauto⟩
  · exact .inr (hi hauto)

/-- Rewriting opens nothing. -/
theorem rewrites {s'' : Store} (h : s.OpensOnly (fun _ => False) s') (hr : s'.Rewrites s'') :
    s.OpensOnly (fun _ => False) s'' := by
  intro i' hi' hauto
  obtain ⟨i, hi, he⟩ := hr.origin i' hi'
  rw [he.auto] at hauto
  rw [he.id]
  exact h i hi hauto

theorem mono {Q : Incident → Prop} (h : s.OpensOnly P s') (hPQ : ∀ i, P i → Q i) :
    s.OpensOnly Q s' := by
  intro i hi hauto
  exact (h i hi hauto).imp_right (hPQ i)

end Store.OpensOnly

section Handle

variable {pf : Platform} {input : AlertInput} {w : World} {n : ℕ}

/-- What the other machines and the one of the check are after a result was fed to it. -/
structure FedWithin (input : AlertInput) (n : ℕ) (w w' : World) : Prop where
  others : ∀ c ≠ input.check.id, w'.engine.machines c = w.engine.machines c
  within : (w'.machine input.check.id).Within n

namespace FedWithin

variable {w' : World}

theorem onStore (h : FedWithin input n w w') (f : Store → Store) :
    FedWithin input n w (w'.onStore f) := ⟨h.others, h.within⟩

theorem notified (h : FedWithin input n w w') (muted : Bool) (note : Notification) :
    FedWithin input n w (notified muted note w') := by
  cases muted <;> exact ⟨h.others, h.within⟩

theorem point (h : FedWithin input n w w') (id : ℤ) :
    FedWithin input n w (point input.check.id id w') := by
  constructor
  · intro c hc
    rw [machines_point, if_neg hc, h.others c hc]
  · have hwithin := h.within
    rw [World.machine] at hwithin ⊢
    rw [machines_point, if_pos rfl]
    cases hm : w'.engine.machines input.check.id with
    | none => exact CheckMachine.within_default n
    | some m =>
      rw [hm] at hwithin
      exact hwithin

end FedWithin

theorem effective_within (h : (w.machine input.check.id).Within n) :
    (effective w input.check.id).Within n := by
  rw [effective, dropped]
  split
  · have hm : (w.setMachine input.check.id {}).machine input.check.id = {} := by
      rw [World.machine, machines_setMachine, if_pos rfl, Option.getD_some]
    rw [hm]
    exact CheckMachine.within_default n
  · exact h

theorem fedWithin_stepped (h : (w.machine input.check.id).Within n) :
    FedWithin input (if input.ok then 0 else n + 1) w (stepped input w) := by
  constructor
  · intro c hc
    rw [machines_stepped, if_neg hc]
  · rw [World.machine, machines_stepped, if_pos rfl]
    exact (effective_within h).onResult _ _ _

/-- **What `handle` leaves of the machines**, whichever statements fail. -/
theorem wp_handle_within (hs : Sound w) (h : (w.machine input.check.id).Within n) :
    (handle pf input).wp
      (fun _ w' => FedWithin input (if input.ok then 0 else n + 1) w w') w := by
  have hstepped := fedWithin_stepped h
  rw [wp_handle]
  constructor
  · -- a machine that points at an incident is down, and counts for nothing
    intro hheld
    obtain ⟨id, hid⟩ := Option.isSome_iff_exists.mp hheld
    refine ⟨fun c _ => rfl, fun hup => ?_⟩
    obtain ⟨m, hm, hmid⟩ := Option.bind_eq_some_iff.mp hid
    rw [World.machine, hm, Option.getD_some] at hup
    rw [hs.up _ m hm hup] at hmid
    cases hmid
  · split
    · exact hstepped
    · rw [wp_onOpen]
      refine ⟨hstepped, ?_⟩
      split
      · exact (hstepped.point _).notified _ _
      · rename_i hnone
        refine ⟨hstepped.onStore _, ?_, ?_⟩
        · split
          · exact hstepped.onStore _
          · exact ((hstepped.onStore _).point _).notified _ _
        · rw [opened, hnone]
          exact ((hstepped.onStore _).point _).notified _ _
    · rename_i id ht
      obtain ⟨i, hi, rfl, -, -, -⟩ := exists_of_effective (CheckMachine.incidentId_of_resolve ht)
      rw [wp_onResolve (Store.exists_incident_iff.mpr ⟨i, by rwa [store_stepped], rfl⟩)]
      exact ⟨hstepped, hstepped.onStore _, (hstepped.onStore _).notified _ _,
        (hstepped.onStore _).notified _ _⟩
    · exact hstepped.notified _ _

/-- An incident that a result opens. -/
def OpenedBy (input : AlertInput) (n : ℕ) (i : Incident) : Prop :=
  input.ok = false ∧ input.check.failuresToOpen ≤ n + 1 ∧ i.createdAt = input.now ∧
    i.component = input.component ∧ i.title = s!"{input.check.name} is down"

theorem wp_handle_opens (h : (w.machine input.check.id).Within n) :
    (handle pf input).wp (fun _ w' => w.store.OpensOnly (OpenedBy input n) w'.store) w := by
  have hkept : w.store.OpensOnly (OpenedBy input n) w.store := .of_rewrites (.of_incidents rfl)
  have hstepped : w.store.OpensOnly (OpenedBy input n) (stepped input w).store := by
    rwa [store_stepped]
  rw [wp_handle]
  refine ⟨fun _ => hkept, ?_⟩
  split
  · exact hstepped
  · rename_i ht
    obtain ⟨hok, hcount⟩ := (effective_within h).opens (opens_of_open ht)
    have hopened : ∀ {s' : Store} {i : Incident},
        s'.incidents.rows = (stepped input w).store.incidents.rows ++ [i] →
        i.createdAt = input.now → i.component = input.component →
        i.title = s!"{input.check.name} is down" →
        w.store.OpensOnly (OpenedBy input n) s' := by
      intro s' i hrows hat hcomponent htitle
      rw [store_stepped] at hrows
      exact .of_append hrows fun _ => ⟨hok, hcount, hat, hcomponent, htitle⟩
    rw [wp_onOpen]
    refine ⟨hstepped, ?_⟩
    split
    · rw [store_notified, store_point]
      exact hstepped
    · rename_i hnone
      refine ⟨hopened rfl rfl rfl rfl, ?_, ?_⟩
      · split
        · exact hopened rfl rfl rfl rfl
        · rw [store_notified, store_point]
          exact hopened rfl rfl rfl rfl
      · rw [opened, hnone]
        rw [store_notified, store_point]
        exact hopened Store.rows_opened rfl rfl rfl
  · rename_i id ht
    obtain ⟨i, hi, rfl, -, -, -⟩ := exists_of_effective (CheckMachine.incidentId_of_resolve ht)
    rw [wp_onResolve (Store.exists_incident_iff.mpr ⟨i, by rwa [store_stepped], rfl⟩)]
    rw [recovered, store_notified, store_notified]
    simp only [World.store_onStore, store_stepped]
    exact ⟨hkept, .of_rewrites (.of_update (fun i => .closed i input.now) fun _ =>
      Store.mem_resolveIncident), .of_rewrites (.recoveredNoted _ _ _),
      .of_rewrites (.recovered _ _ _ _)⟩
  · rw [store_notified]
    exact hstepped

end Handle

/-! ### Programs that open nothing -/

/-- What a program leaves that feeds no result to a machine: machines as they were or gone, and no
incident that was not there. -/
structure Sweeps (w w' : World) : Prop where
  sound : Sound w'
  machines : ∀ c, w'.engine.machines c = w.engine.machines c ∨ w'.engine.machines c = none
  opens : w.store.OpensOnly (fun _ => False) w'.store

namespace Sweeps

variable {w w' : World}

theorem refl (h : Sound w) : Sweeps w w := ⟨h, fun _ => .inl rfl, .of_rewrites (.of_incidents rfl)⟩

theorem rewritable (w : World) : Rewritable (Sweeps w) := by
  intro w' f h hr
  exact ⟨rewritable_sound w' f h.sound hr, h.machines, h.opens.rewrites hr⟩

theorem retain (h : Sweeps w w') (cfg : Config) (ids : List ℤ) :
    Sweeps w (AlertEngine.retain cfg ids w') := by
  refine ⟨h.sound.retain cfg ids, fun c => ?_, h.opens⟩
  show Option.filter _ (w'.engine.machines c) = _ ∨ Option.filter _ (w'.engine.machines c) = _
  cases hm : w'.engine.machines c with
  | none => exact .inr rfl
  | some m =>
    rw [Option.filter_some]
    split
    · exact hm ▸ h.machines c
    · exact .inr rfl

theorem within (h : Sweeps w w') {id : String} {n : ℕ} (hn : (w.machine id).Within n) :
    (w'.machine id).Within n := by
  rw [World.machine] at hn ⊢
  rcases h.machines id with hm | hm
  · rwa [hm]
  · rw [hm]
    exact CheckMachine.within_default n

end Sweeps

section Programs

variable {pf : Platform} {w : World} {cfg : Config} {previous : Option Config} {now : ℤ}

/-- A reconciliation that succeeds has dropped the machines of the checks that are gone. -/
theorem wp_forgetUnmonitored_gone :
    (forgetUnmonitored pf cfg previous now).wp
      (fun r w' => r.isSome → ∀ c, cfg.check c = none → w'.engine.machines c = none) w := by
  rw [forgetUnmonitored]
  simp only [Prog.bind_eq, Prog.wp_bind, wp_select, Prog.after_some, Prog.after_none]
  refine ⟨Prog.wp_mono (Prog.wp_true _ _) fun r w' _ => ?_, by rintro ⟨⟩⟩
  cases r with
  | none => rintro ⟨⟩
  | some ids =>
    intro _ c hc
    show Option.filter _ (w'.engine.machines c) = none
    rw [Option.filter_eq_none_iff]
    intro m _
    simp [hc]

theorem wp_forgetUnmonitored_sweeps (h : Sound w) :
    (forgetUnmonitored pf cfg previous now).wp (fun _ => Sweeps w) w :=
  (Sweeps.rewritable w).wp_forgetUnmonitored (fun cfg ids _ hw => hw.retain cfg ids) (.refl h)

/-- The operator opens no automatic incident. -/
theorem wp_operator_sweeps (h : Sound w) {op : Op} (hop : op.isOperator = true) :
    (op.prog pf).wp (fun _ => Sweeps w) w := by
  cases op with
  | create form now =>
    refine (Sweeps.rewritable w).wp_operatorCreate (fun title impact component => ?_) (.refl h)
    exact ⟨h.onStore (.of_rows_append rfl), fun _ => .inl rfl, .of_append rfl nofun⟩
  | update id form now => exact (Sweeps.rewritable w).wp_operatorUpdate (.refl h)
  | resolve id now => exact (Sweeps.rewritable w).wp_operatorResolve (.refl h)
  | start | reload | follow | handle => cases hop

/-- What a new engine leaves: every machine it has resumed is down. -/
structure Resumes (w w' : World) : Prop where
  sound : Sound w'
  down : ∀ c m, w'.engine.machines c = some m → m.state = .down
  opens : w.store.OpensOnly (fun _ => False) w'.store

theorem Resumes.rewritable (w : World) : Rewritable (Resumes w) := by
  intro w' f h hr
  exact ⟨rewritable_sound w' f h.sound hr, h.down, h.opens.rewrites hr⟩

theorem Resumes.within {w' : World} (h : Resumes w w') (id : String) (n : ℕ) :
    (w'.machine id).Within n := by
  rw [World.machine]
  cases hm : w'.engine.machines id with
  | none => exact CheckMachine.within_default n
  | some m =>
    intro hup
    cases (h.down id m hm).symm.trans hup

theorem wp_bootstrap_resumes :
    (bootstrap pf cfg now).wp (fun _ => Resumes w) (w.restarted cfg) := by
  have hnone : ∀ c, (w.restarted cfg).engine.machines c = none := fun _ => rfl
  have hnew : Resumes w (w.restarted cfg) := by
    refine ⟨⟨fun c id hc => ?_, fun c m hm => ?_⟩, fun c m hm => ?_,
      .of_rewrites (.of_incidents rfl)⟩
    · rw [World.held, hnone] at hc
      cases hc
    · rw [hnone] at hm
      cases hm
    · rw [hnone] at hm
      cases hm
  refine (Resumes.rewritable w).wp_bootstrap (fun cfg ids w' h => ?_) (fun w' checkId i h hi => ?_)
    hnew
  · refine ⟨h.sound.retain cfg ids, fun c m hm => ?_, h.opens⟩
    exact h.down c m (Option.filter_eq_some_iff.mp hm).1
  · refine ⟨h.sound.setMachine ?_ ?_, fun c m hm => ?_, h.opens⟩
    · rintro id ⟨⟩
      exact ⟨i, hi, rfl⟩
    · rintro ⟨⟩
    · rw [machines_setMachine] at hm
      split at hm
      · cases hm
        rfl
      · exact h.down c m hm

end Programs

/-! ### Streaks -/

/-- Two probes of a check are at least the whole seconds of its interval apart, as the later of them
has it. -/
def Probe.Follows (a b : Probe) : Prop := asI64 b.check.interval.asSecs ≤ b.now - a.now

/-- The probes at the end of a list none of which passed. -/
def streakOf (probes : List Probe) : List Probe := probes.rtakeWhile (·.verdict != some true)

/-- How many of them failed. -/
def failing (probes : List Probe) : ℕ := (streakOf probes).countP (·.verdict == some false)

theorem failing_passed {p : Probe} (probes : List Probe) (h : p.verdict = some true) :
    failing (probes ++ [p]) = 0 := by
  rw [failing, streakOf, List.rtakeWhile_concat_neg _ _ _ (by simp [h]), List.countP_nil]

theorem failing_failed {p : Probe} (probes : List Probe) (h : p.verdict = some false) :
    failing (probes ++ [p]) = failing probes + 1 := by
  rw [failing, streakOf, List.rtakeWhile_concat_pos _ _ _ (by simp [h]), List.countP_append,
    List.countP_singleton, if_pos (by simp [h])]
  rfl

theorem failing_skipped {p : Probe} (probes : List Probe) (h : p.verdict = none) :
    failing (probes ++ [p]) = failing probes := by
  rw [failing, streakOf, List.rtakeWhile_concat_pos _ _ _ (by simp [h]), List.countP_append,
    List.countP_singleton, if_neg (by simp [h]), Nat.add_zero]
  rfl

namespace Monitor

/-- The probes of one check since the process started. -/
def probesOf (s : Monitor) (id : String) : List Probe := s.log.filter (·.check.id == id)

/-- The incident was opened by the last probe in the log, which failed and says why, at the end of
a streak long enough. -/
def Earned (s : Monitor) (i : Incident) : Prop :=
  ∃ p ∈ s.log.getLast?, (∃ r ∈ p.result, r.ok = false ∧ r.message.isSome) ∧
    i.createdAt = p.now ∧ i.component = p.config.incidentComponent p.check.id ∧
    i.title = s!"{p.check.name} is down" ∧
    ∃ streak, streak <:+ s.probesOf p.check.id ∧ streak.IsChain Probe.Follows ∧
      (∀ q ∈ streak, q.verdict ≠ some true) ∧
      max p.check.failuresToOpen 1 ≤ streak.countP (·.verdict == some false)

/-! ### The invariant -/

/-- What the loop and the engine keep of a check: its probes since it was last forgotten. -/
structure Kept (s : Monitor) (id : String) (recent : List Probe) : Prop where
  log : recent <:+ s.probesOf id
  spaced : recent.IsChain Probe.Follows
  /-- The clock of a check that is not waiting for its turn. -/
  rested : (∀ r ∈ s.loop.round, ∀ c ∈ r.pending, c.id ≠ id) →
    s.loop.last id = recent.getLast?.map (·.now)
  /-- A check that is waiting is due. -/
  waiting : ∀ r ∈ s.loop.round, ∀ c ∈ r.pending, c.id = id → s.loop.last id = some r.now ∧
    ∀ q ∈ recent.getLast?, asI64 c.interval.asSecs ≤ r.now - q.now
  within : (s.world.machine id).Within (failing recent)

structure Inv (s : Monitor) : Prop where
  kept : ∀ id, ∃ recent, s.Kept id recent
  nodup : ∀ r ∈ s.loop.round, (r.pending.map (·.id)).Nodup
  sound : Sound s.world

/-- What an operation has to leave. -/
def Leaves (s s' : Monitor) : Prop := s'.Inv ∧ s.world.store.OpensOnly s'.Earned s'.world.store

variable {pf : Platform} {fmt : NumberFormat} {s s' : Monitor} {id : String}

/-- A program on the world that opens nothing. -/
theorem Inv.swept (h : s.Inv) {w : World} (hw : Sweeps s.world w) :
    ({ s with world := w }).Inv where
  kept id := by
    obtain ⟨recent, hk⟩ := h.kept id
    exact ⟨recent, hk.log, hk.spaced, hk.rested, hk.waiting, hw.within hk.within⟩
  nodup := h.nodup
  sound := hw.sound

theorem Leaves.of_opens (h : s'.Inv)
    (ho : s.world.store.OpensOnly (fun _ => False) s'.world.store) : Leaves s s' :=
  ⟨h, ho.mono fun _ => False.elim⟩

/-- Work on the loop's memory that leaves the clocks and the round alone. -/
theorem Inv.of_eq (h : s.Inv) (hworld : s'.world = s.world) (hlog : s'.log = s.log)
    (hlast : s'.loop.last = s.loop.last) (hround : s'.loop.round = s.loop.round) : s'.Inv where
  kept id := by
    obtain ⟨recent, hk⟩ := h.kept id
    refine ⟨recent, ?_, hk.spaced, ?_, ?_, ?_⟩
    · rw [probesOf, hlog]
      exact hk.log
    · rw [hround, hlast]
      exact hk.rested
    · rw [hround, hlast]
      exact hk.waiting
    · rw [hworld]
      exact hk.within
  nodup := hround ▸ h.nodup
  sound := hworld ▸ h.sound

/-! ### A round begins -/

theorem nodup_due (cfg : MonitorConfig) (now : ℤ) (s : Monitor) :
    ((s.due cfg now).map (·.id)).Nodup :=
  cfg.nodup.sublist (List.filter_sublist.map _)

theorem Inv.begun (h : s.Inv) (hround : s.loop.round = none) (cfg : MonitorConfig) (now : ℤ)
    (sources : Sources) (maintenance : List Maintenance) :
    ((s.mark ((s.due cfg now).map (·.id)) now).begun cfg now (s.due cfg now) sources
      maintenance).Inv where
  kept id := by
    obtain ⟨recent, hk⟩ := h.kept id
    have hclock : s.loop.last id = recent.getLast?.map (·.now) := by
      refine hk.rested fun r hr => ?_
      rw [hround] at hr
      cases hr
    refine ⟨recent, hk.log, hk.spaced, fun hno => ?_, fun r hr c hc hid => ?_, hk.within⟩
    · have hnot : id ∉ (s.due cfg now).map (·.id) := by
        intro hmem
        obtain ⟨c, hc, hid⟩ := List.mem_map.mp hmem
        exact hno _ rfl c hc hid
      show (if id ∈ (s.due cfg now).map (·.id) then _ else _) = _
      rw [if_neg hnot, hclock]
    · obtain rfl := Option.some.inj hr
      replace hc : c ∈ s.due cfg now := hc
      constructor
      · show (if id ∈ (s.due cfg now).map (·.id) then _ else _) = _
        rw [if_pos (List.mem_map.mpr ⟨c, hc, hid⟩)]
      · -- the clock of the check is the time of its last probe
        intro q hq
        have hdue := of_decide_eq_true (List.mem_filter.mp hc).2
        rw [hid, hclock, Option.mem_def.mp hq, Option.map_some, Option.getD_some] at hdue
        exact hdue
  nodup r hr := by
    obtain rfl := Option.some.inj hr
    exact nodup_due cfg now s
  sound := h.sound

/-- A reconciliation that succeeds forgets the checks that are gone, and their machines are gone. -/
theorem Inv.forgotten (h : s.Inv) {cfg : MonitorConfig} {version : ℕ}
    (hround : s.loop.round = none)
    (hgone : ∀ c, cfg.config.check c = none → s.world.engine.machines c = none) :
    (s.forgetRemovedChecks cfg version).Inv := by
  have hnone : ∀ r, r ∉ (s.forgetRemovedChecks cfg version).loop.round := by
    intro r hr
    replace hr : s.loop.round = some r := hr
    rw [hround] at hr
    cases hr
  refine ⟨fun id => ?_, fun r hr => absurd hr (hnone r), h.sound⟩
  obtain ⟨recent, hk⟩ := h.kept id
  cases hcheck : cfg.config.check id with
  | some check =>
    refine ⟨recent, hk.log, hk.spaced, fun _ => ?_, fun r hr => absurd hr (hnone r), hk.within⟩
    show (if (cfg.config.check id).isSome then _ else _) = _
    rw [hcheck]
    exact hk.rested fun r hr => absurd hr (hnone r)
  | none =>
    refine ⟨[], List.nil_suffix, .nil, fun _ => ?_, fun r hr => absurd hr (hnone r), ?_⟩
    · show (if (cfg.config.check id).isSome then _ else _) = _
      rw [hcheck]
      rfl
    · show (s.world.machine id).Within _
      rw [World.machine, hgone id hcheck]
      exact CheckMachine.within_default _

/-- What is left when a round has not begun yet. -/
structure Rests (s s' : Monitor) : Prop where
  inv : s'.Inv
  round : s'.loop.round = none
  opens : s.world.store.OpensOnly (fun _ => False) s'.world.store

theorem wp_reconcile (h : s.Inv) (hround : s.loop.round = none) {applied : MonitorConfig × ℕ}
    {now : ℤ} : (reconcile pf applied now).wp (fun _ => s.Rests) s := by
  rw [reconcile]
  simp only [Prog.bind_eq, Prog.wp_bind, Prog.wp_get, Prog.after_some]
  split
  · simp only [Prog.wp_bind, Prog.wp_attempt, Prog.wp_lift]
    refine Prog.wp_mono (Prog.wp_and (wp_forgetUnmonitored_sweeps h.sound)
      wp_forgetUnmonitored_gone) ?_
    rintro r w ⟨hw, hgone⟩
    cases r with
    | none => exact ⟨h.swept hw, hround, hw.opens⟩
    | some ids => exact ⟨(h.swept hw).forgotten hround (hgone rfl), hround, hw.opens⟩
  · exact ⟨h, hround, .of_rewrites (.of_incidents rfl)⟩

theorem wp_tick (h : s.Inv) (hround : s.loop.round = none) {applied : MonitorConfig × ℕ} {now : ℤ}
    {sources : Sources} : (tick pf applied now sources).wp (fun _ => s.Leaves) s := by
  rw [tick]
  simp only [Prog.bind_eq, Prog.wp_bind]
  refine Prog.wp_mono (wp_reconcile h hround) ?_
  rintro (_ | cfg) s' hs'
  · exact .of_opens hs'.inv hs'.opens
  · have hinv : (s'.ensureSources cfg sources).Inv := hs'.inv.of_eq rfl rfl rfl rfl
    simp only [Prog.after_some, Prog.wp_bind, Prog.wp_modify, Prog.wp_get]
    split
    · exact .of_opens hinv hs'.opens
    · simp only [Prog.wp_bind, Prog.wp_modify, Prog.after_some, Prog.wp_attempt, Prog.wp_query]
      exact ⟨.of_opens (hinv.begun hs'.round cfg now sources _) hs'.opens,
        .of_opens (hinv.begun hs'.round cfg now sources _) hs'.opens⟩

/-! ### One check of a round -/

variable {round : ProbeRound} {c : ProbedCheck} {rest : List ProbedCheck} {replies : Replies}

/-- `evaluate` reads, and explains what it finds; a query that fails finds nothing. -/
theorem wp_evaluate {Q : Option (Option ProbeResult) → Monitor → Prop}
    (hQ : ∀ r, (∀ x ∈ r, x.Explained) → Q (some r) s) :
    (evaluate fmt round replies c).wp Q s := by
  have hsome : ∀ x : ProbeResult, x.Explained → Q (some (some x)) s := by
    intro x hx
    refine hQ (some x) fun y hy => ?_
    obtain rfl := Option.some.inj hy
    exact hx
  have hmap : ∀ {α : Type} (source : Option α) (f : α → ProbeResult), (∀ a, (f a).Explained) →
      Q (some (source.map f)) s := by
    intro α source f hf
    cases source with
    | none => exact hQ none nofun
    | some a => exact hsome (f a) (hf a)
  have hlatest : ∀ metric key : String,
      (do return some (c.probeResource fmt (← latest metric key)) :
        Prog Monitor (Option ProbeResult)).wp Q s := by
    intro metric key
    rw [latest]
    simp only [Prog.bind_eq, Prog.pure_eq, Prog.wp_bind, Prog.wp_attempt, Prog.wp_query,
      Prog.after_some, Prog.wp_done]
    exact ⟨hsome _ (explained_probeResource fmt c _), hsome _ (explained_probeResource fmt c _)⟩
  rw [evaluate]
  cases c.kind with
  | http => exact hsome _ (explained_probeHttp fmt c _)
  | tcp => exact hsome _ (explained_probeTcp fmt c _)
  | docker => exact hmap _ _ (explained_probeDocker c)
  | systemd => exact hmap _ _ (explained_probeSystemd c)
  | disk | ram | swap | load => exact hlatest _ _
  | heartbeat =>
    simp only [Prog.bind_eq, Prog.pure_eq, Prog.wp_bind, Prog.wp_attempt, Prog.wp_query,
      Prog.wp_get, Prog.after_some, Prog.wp_done]
    exact ⟨hsome _ (explained_probeHeartbeat c _ _ _), hsome _ (explained_probeHeartbeat c _ _ _)⟩

/-- Storing a result touches tables that nothing here depends on. -/
theorem wp_record {r : ProbeResult} {Q : Option Unit → Monitor → Prop}
    (hQ : ∀ tables, Q (some ()) { s with tables }) : (record round c r).wp Q s := by
  have hsamples : ∀ s' : Monitor, (∀ tables, Q (some ()) { s' with tables }) →
      (insertSamples (checkSamples c r round.now)).prog.wp
        (fun _ m => Q (some ()) (metricsPart.set s' m)) (metricsPart.get s') :=
    fun s' hQ' => Prog.wp_mono (Prog.wp_true _ _) fun _ _ _ => hQ' _
  rw [record]
  simp only [Prog.bind_eq, Prog.pure_eq, Prog.wp_bind, Prog.wp_attempt, Prog.wp_exec,
    Prog.after_some, Prog.wp_lift, Prog.wp_done]
  exact ⟨hsamples _ fun tables => hQ tables, hsamples _ hQ⟩

/-- The round has come to this check. -/
structure AtCheck (s : Monitor) (round : ProbeRound) (c : ProbedCheck) (rest : List ProbedCheck) :
    Prop where
  current : s.loop.round = some round
  pending : round.pending = c :: rest

theorem mem_goOn {r : ProbeRound}
    (hr : r ∈ (s.goOn round rest).loop.round) : r.now = round.now ∧ r.pending = rest := by
  replace hr : (if rest = [] then none else some { round with pending := rest }) = some r := hr
  split at hr
  · cases hr
  · obtain rfl := Option.some.inj hr
    exact ⟨rfl, rfl⟩

/-- What is kept of the other checks. -/
theorem Kept.other {recent : List Probe} (hk : s.Kept id recent) (h : s.AtCheck round c rest)
    (hne : c.id ≠ id) {result : Option ProbeResult} {tables : MonitorTables} {w : World}
    (hw : w.engine.machines id = s.world.engine.machines id) :
    ({ (s.goOn round rest).logged (round.probe c result) with tables, world := w }).Kept id
      recent where
  log := by
    show recent <:+ (s.log ++ [round.probe c result]).filter _
    rw [List.filter_append, List.filter_cons_of_neg (by simpa [ProbeRound.probe] using hne),
      List.filter_nil, List.append_nil]
    exact hk.log
  spaced := hk.spaced
  rested hno := by
    refine hk.rested fun r hr c' hc' => ?_
    rw [h.current] at hr
    obtain rfl := Option.some.inj hr
    rw [h.pending] at hc'
    rcases List.mem_cons.mp hc' with rfl | hc'
    · exact hne
    · refine hno { round with pending := rest } ?_ c' hc'
      exact if_neg (List.ne_nil_of_mem hc')
  waiting r hr c' hc' hid := by
    obtain ⟨hnow, hpending⟩ := mem_goOn hr
    rw [hpending] at hc'
    rw [hnow]
    refine hk.waiting round h.current c' ?_ hid
    rw [h.pending]
    exact List.mem_cons_of_mem _ hc'
  within := by
    show (World.machine w id).Within _
    rw [World.machine, hw]
    exact hk.within

/-- **A probe goes into the log** at least the interval after the one before. -/
theorem Kept.probed {recent : List Probe} (hk : s.Kept c.id recent) (h : s.AtCheck round c rest)
    (hnodup : (round.pending.map (·.id)).Nodup) (tables : MonitorTables)
    {result : Option ProbeResult} {w : World}
    (hw : (w.machine c.id).Within (failing (recent ++ [round.probe c result]))) :
    ({ (s.goOn round rest).logged (round.probe c result) with tables, world := w }).Kept c.id
      (recent ++ [round.probe c result]) := by
  have hmem : c ∈ round.pending := h.pending ▸ List.mem_cons_self
  obtain ⟨hlast, hdue⟩ := hk.waiting round h.current c hmem rfl
  have hrest : c.id ∉ rest.map (·.id) := by
    rw [h.pending, List.map_cons, List.nodup_cons] at hnodup
    exact hnodup.1
  refine ⟨?_, ?_, fun _ => ?_, fun r hr c' hc' hid => ?_, hw⟩
  · show _ <:+ (s.log ++ [round.probe c result]).filter _
    rw [List.filter_append, List.filter_cons_of_pos (by simp [ProbeRound.probe]),
      List.filter_nil]
    exact List.suffix_append_self_iff.mpr hk.log
  · refine hk.spaced.append (.singleton _) fun q hq p hp => ?_
    obtain rfl := Option.some.inj hp
    exact hdue q hq
  · rw [List.getLast?_concat]
    exact hlast
  · rw [(mem_goOn hr).2] at hc'
    exact absurd (List.mem_map.mpr ⟨c', hc', hid⟩) hrest

/-- What is kept once a check of the round has been probed. -/
theorem Inv.probed (h : s.Inv) (hat : s.AtCheck round c rest) (tables : MonitorTables)
    {result : Option ProbeResult} {w : World} {recent : List Probe} (hk : s.Kept c.id recent)
    (hsound : Sound w)
    (hothers : ∀ id ≠ c.id, w.engine.machines id = s.world.engine.machines id)
    (hwithin : (w.machine c.id).Within (failing (recent ++ [round.probe c result]))) :
    ({ (s.goOn round rest).logged (round.probe c result) with tables, world := w }).Inv where
  kept id := by
    by_cases hid : c.id = id
    · subst hid
      exact ⟨_, hk.probed hat (h.nodup round hat.current) tables hwithin⟩
    · obtain ⟨recent', hk'⟩ := h.kept id
      exact ⟨recent', hk'.other hat hid (hothers id (Ne.symm hid))⟩
  nodup r hr := by
    rw [(mem_goOn hr).2]
    have hnodup := h.nodup round hat.current
    rw [hat.pending, List.map_cons, List.nodup_cons] at hnodup
    exact hnodup.2
  sound := hsound

/-- A streak that is long enough earns an incident. -/
theorem Kept.earned {p : Probe} {recent : List Probe} {i : Incident} {r : ProbeResult}
    (hk : s.Kept p.check.id (recent ++ [p])) (hp : p ∈ s.log.getLast?) (hr : p.result = some r)
    (hexplained : r.Explained) (hok : r.ok = false) (hat : i.createdAt = p.now)
    (hcomponent : i.component = p.config.incidentComponent p.check.id)
    (htitle : i.title = s!"{p.check.name} is down")
    (hcount : p.check.failuresToOpen ≤ failing recent + 1) : s.Earned i := by
  have hsuffix : streakOf (recent ++ [p]) <:+ recent ++ [p] := List.rtakeWhile_suffix _ _
  have hverdict : p.verdict = some false := by
    rw [Probe.verdict, hr, Option.map_some, hok]
  refine ⟨p, hp, ⟨r, hr, hok, hexplained.message (.inl hok)⟩, hat, hcomponent, htitle,
    streakOf (recent ++ [p]), hsuffix.trans hk.log, hk.spaced.suffix hsuffix, fun q hq => ?_, ?_⟩
  · have hpassed := List.mem_rtakeWhile_imp hq
    simpa using hpassed
  · rw [← failing, failing_failed recent hverdict]
    omega

theorem failing_judged (recent : List Probe) (round : ProbeRound) (c : ProbedCheck)
    (r : ProbeResult) :
    failing (recent ++ [round.probe c (some r)]) = if r.ok then 0 else failing recent + 1 := by
  cases hok : r.ok with
  | true => exact failing_passed recent (congrArg some hok)
  | false => exact failing_failed recent (congrArg some hok)

/-- **One turn of the loop** over the checks that are due. -/
theorem wp_probeCheck (h : s.Inv) (hat : s.AtCheck round c rest) :
    (probeCheck pf fmt round c replies).wp (fun _ => s.Leaves) (s.goOn round rest) := by
  obtain ⟨recent, hk⟩ := h.kept c.id
  rw [probeCheck]
  simp only [Prog.bind_eq, Prog.wp_bind]
  refine wp_evaluate fun r hr => ?_
  cases r with
  | none =>
    have hskipped : (s.world.machine c.id).Within (failing (recent ++ [round.probe c none])) := by
      rw [failing_skipped recent rfl]
      exact hk.within
    exact .of_opens (h.probed hat s.tables hk h.sound (fun _ _ => rfl) hskipped)
      (.of_rewrites (.of_incidents rfl))
  | some r =>
    simp only [Prog.after_some, Prog.wp_bind]
    refine wp_record fun tables => ?_
    simp only [Prog.pure_eq, Prog.after_some, Prog.wp_bind, Prog.wp_modify, Prog.wp_lift,
      Prog.wp_attempt]
    -- the engine that follows the config has the machines it had
    have hsound : Sound (followed round.cfg.config s.world) := ⟨h.sound.found, h.sound.up⟩
    have hwithin : ((followed round.cfg.config s.world).machine
        (fedInput round c r).check.id).Within (failing recent) := hk.within
    refine Prog.wp_mono (Prog.wp_and (sound_handle hsound)
      (Prog.wp_and (wp_handle_within hsound hwithin) (wp_handle_opens hwithin))) ?_
    rintro _ w ⟨hsound', hfed, hopens⟩
    have hjudged : (w.machine c.id).Within (failing (recent ++ [round.probe c (some r)])) := by
      rw [failing_judged]
      exact hfed.within
    have hkept := hk.probed hat (h.nodup round hat.current) tables hjudged
    refine ⟨h.probed hat tables hk hsound' hfed.others hjudged, hopens.mono fun i hi => ?_⟩
    obtain ⟨hok, hcount, hcreated, hcomponent, htitle⟩ := hi
    exact hkept.earned List.getLast?_concat rfl (hr r rfl) hok hcreated hcomponent htitle hcount

theorem wp_probe (h : s.Inv) : (probe pf fmt replies).wp (fun _ => s.Leaves) s := by
  have hrefl : s.Leaves s := .of_opens h (.of_rewrites (.of_incidents rfl))
  rw [probe]
  simp only [Prog.bind_eq, Prog.wp_bind, Prog.wp_get, Prog.after_some]
  cases hround : s.loop.round with
  | none => exact hrefl
  | some round =>
    cases hpending : round.pending with
    | nil =>
      simp only [hpending]
      exact hrefl
    | cons c rest =>
      simp only [hpending, Prog.wp_bind, Prog.wp_modify, Prog.after_some]
      exact wp_probeCheck h ⟨hround, hpending⟩

/-! ### Every operation -/

/-- A machine that has not been fed yet. -/
theorem kept_nil (hround : s.loop.round = none) (hlast : s.loop.last id = none)
    (hwithin : (s.world.machine id).Within 0) : s.Kept id [] where
  log := List.nil_suffix
  spaced := .nil
  rested _ := hlast
  waiting r hr := by
    rw [hround] at hr
    cases hr
  within := hwithin

theorem inv_initial (store : Store) (tables : MonitorTables) (cfg : MonitorConfig) :
    (initial store tables cfg).Inv where
  kept _ := ⟨[], kept_nil rfl rfl (CheckMachine.within_default 0)⟩
  nodup := nofun
  sound := ⟨nofun, nofun⟩

/-- A new process has probed nothing, and every machine it has resumed is down. -/
theorem wp_start (s : Monitor) {cfg : MonitorConfig} {now : ℤ} :
    (start pf cfg now).wp (fun _ => s.Leaves) s := by
  have hinv : ∀ alive w, Resumes s.world w →
      ({ s.restarted cfg with alive, world := w }).Inv := by
    intro alive w hw
    exact ⟨fun id => ⟨[], kept_nil rfl rfl (hw.within id 0)⟩, nofun, hw.sound⟩
  rw [start]
  simp only [Prog.bind_eq, Prog.wp_bind, Prog.wp_modify, Prog.after_some, Prog.wp_lift]
  refine Prog.wp_mono wp_bootstrap_resumes ?_
  rintro (_ | _) w hw
  · exact .of_opens (hinv false w hw) hw.opens
  · exact .of_opens (hinv true w hw) hw.opens

theorem wp_prog (h : s.Inv) (op : MonitorOp) : (op.prog pf fmt).wp (fun _ => s.Leaves) s := by
  have hrefl : s.Leaves s := .of_opens h (.of_rewrites (.of_incidents rfl))
  cases op with
  | start cfg now => exact wp_start s
  | reload cfg =>
    have hswept : Sweeps s.world (s.world.reloaded cfg.config) :=
      ⟨⟨h.sound.found, h.sound.up⟩, fun _ => .inl rfl, .of_rewrites (.of_incidents rfl)⟩
    exact .of_opens ((h.swept hswept).of_eq rfl rfl rfl rfl) hswept.opens
  | enter =>
    rw [MonitorOp.prog]
    simp only [Prog.bind_eq, Prog.wp_bind, Prog.wp_get, Prog.after_some]
    split
    · exact .of_opens (h.of_eq rfl rfl rfl rfl) (.of_rewrites (.of_incidents rfl))
    · exact hrefl
  | tick now sources =>
    rw [MonitorOp.prog]
    simp only [Prog.bind_eq, Prog.wp_bind, Prog.wp_get, Prog.after_some]
    split
    · rename_i applied hidle
      refine wp_tick h ?_
      rw [idle] at hidle
      split at hidle
      · rename_i hready
        exact Option.isNone_iff_eq_none.mp (Bool.and_eq_true_iff.mp hready).2
      · cases hidle
    · exact hrefl
  | probe replies =>
    rw [MonitorOp.prog]
    simp only [Prog.bind_eq, Prog.wp_bind, Prog.wp_get, Prog.after_some]
    split
    · exact wp_probe h
    · exact hrefl
  | operator op hop =>
    rw [MonitorOp.prog, Prog.wp_lift]
    refine Prog.wp_mono (wp_operator_sweeps h.sound hop) fun _ w hw => ?_
    exact .of_opens (h.swept hw) hw.opens
  | others tables => exact .of_opens (h.of_eq rfl rfl rfl rfl) (.of_rewrites (.of_incidents rfl))

theorem leaves_step (h : s.Inv) (op : MonitorOp × List Bool) : s.Leaves (s.step pf fmt op) :=
  Prog.wp_run (wp_prog h op.1) op.2

end Monitor

/-- **Alarms are earned.** In every run of the program, whatever database it starts on, an incident
that the engine opens in a step ends a streak of failures that is long enough. -/
theorem alarms_earned (pf : Platform) (fmt : NumberFormat) (store : Store) (tables : MonitorTables)
    (cfg : MonitorConfig) (ops : List (MonitorOp × List Bool)) :
    Always (Monitor.step pf fmt)
      (fun s op => s.world.store.OpensOnly (s.step pf fmt op).Earned (s.step pf fmt op).world.store)
      (.initial store tables cfg) ops := by
  refine Always.of_invariant (Monitor.inv_initial store tables cfg) ?_ ?_
  · exact fun s op h => (Monitor.leaves_step h op).1
  · exact fun s op h => (Monitor.leaves_step h op).2

/-! ### A small run -/

/-- A check every second and a half, of which two failures in a row open an incident. -/
def briskCheck : ProbedCheck where
  id := "db"
  name := "Database"
  interval := ⟨1500000000⟩
  failuresToOpen := 2
  kind := .tcp
  host := some "db.example.org"
  port := some 5432

/-- A config with this check and a component that mirrors it. -/
def briskConfig : MonitorConfig where
  config := {
    components := [⟨"storage", "Storage", none, some "db"⟩]
    checks := [briskCheck.toCheckConfig] }
  probes := [briskCheck]
  dockerEnabled := false
  systemdEnabled := false
  checks_eq := rfl
  valid := by decide

/-- Texts that nobody reads. -/
def noFormat : NumberFormat := ⟨fun _ _ => "", fun _ => "", fun _ => ""⟩

/-- No source answers, and nobody is reached. -/
def noSources : Sources := ⟨false, none, false, fun _ => none⟩

def unreachable : Replies := ⟨.failed false "refused", .failed "refused"⟩

def emptyTables : MonitorTables where
  windows := .empty
  results := .empty
  metrics := ⟨.empty, .empty, .empty, none, .empty, none⟩
  heartbeats _ := none

/-- The process starts, the check fails at 100, and it is due again at 101. -/
def failsOnce : List (MonitorOp × List Bool) :=
  [(.start briskConfig 99, []), (.enter, []), (.tick 100 noSources, []), (.probe unreachable, []),
    (.tick 101 noSources, [])]

/-- The second failure opens an incident. -/
theorem alarms_earned_brisk :
    let s := run (Monitor.step .ascii noFormat) (.initial .empty emptyTables briskConfig)
      (failsOnce ++ [(.probe unreachable, [])])
    ∃ i ∈ s.world.store.incidents.rows, i.auto = true ∧ i.component = "storage" ∧ s.Earned i := by
  have hbefore : (run (Monitor.step .ascii noFormat) (.initial .empty emptyTables briskConfig)
      failsOnce).world.store.incidents.rows = [] := by decide +kernel
  have hafter : ((run (Monitor.step .ascii noFormat) (.initial .empty emptyTables briskConfig)
      (failsOnce ++ [(.probe unreachable, [])])).world.store.incidents.rows.map
        fun i => (i.auto, i.component)) = [(true, "storage")] := by decide +kernel
  obtain ⟨i, hi, hfields⟩ := List.mem_map.mp (hafter ▸ List.mem_cons_self)
  obtain ⟨hauto, hcomponent⟩ := Prod.mk.inj hfields
  refine ⟨i, hi, hauto, hcomponent, ?_⟩
  have hruns := alarms_earned .ascii noFormat .empty emptyTables briskConfig
    (failsOnce ++ [(.probe unreachable, [])])
  have hlast := (always_append.mp hruns).2.1
  rw [run_append] at hi ⊢
  rcases hlast i hi hauto with ⟨j, hj, -⟩ | hearned
  · exact absurd (hbefore ▸ hj) List.not_mem_nil
  · exact hearned

end Dunlin

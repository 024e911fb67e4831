import Dunlin.AlertFaults

/-!
# Machines and incidents when a database call fails

`handle` moves the machine of a check before it writes to the database. When one of the writes fails
the machine has already moved, so machine and incident can part: a machine that is down and points
at nothing, with or without an incident in the tables that nobody will ever close, or one that is up
again while its incident stays open.

`InSync` is what should hold after a call, `Survives` the condition on the state before it, the
input and the number of the call that fails. `insync_iff` says that they are equivalent in every
state that can be reached, also with earlier failures.

The statements of `handle` are numbered by `Prog.wpAt`, which asks what a program leaves when the
`k`-th statement fails and no other. Where in the program that is depends on the state, so the cases
are those of the machine: it opens, it recovers, it stays.

## Main results

* `sound_run` — what holds of every state that can be reached, with earlier failures
* `wpAt_handle` — where the `k`-th statement of `handle` is
* `insync_iff` — when machine and incident part
* `desynced_by_create` — the failure that leaves an outage without an incident
-/

namespace Dunlin

open Lib AlertEngine

/-- The machine of a check agrees with the tables after a call. Down, it points at an incident that
exists. Up, no incident is left open that it held before the call, opened in the call or opened
earlier; `opened` are the ones it opened earlier. -/
structure InSync (opened : List ℤ) (checkId : String) (w w' : World) : Prop where
  down : (w'.machine checkId).state = .down →
    ∃ i ∈ w'.store.incidents.rows, (w'.machine checkId).incidentId = some i.id
  up : (w'.machine checkId).state = .up → ∀ i ∈ w'.store.incidents.rows, i.isActive →
    i.id ∉ opened ∧ w.held checkId ≠ some i.id ∧ i.id < w.store.incidents.next

variable (pf : Platform)

/-- Whether a call looks the machine's incident up. -/
def looks (w : World) (checkId : String) : ℕ := if (w.held checkId).isSome then 1 else 0

/-- The calls of an opening whose failure is an error: finding the open incident, or else also
creating one, its first timeline entry and the quiet mark. -/
def openingCalls (w : World) (input : AlertInput) : ℕ :=
  match w.store.activeIncidentFor pf input.component with
  | some _ => 1
  | none => if input.muted then 4 else 3

/-- When a call leaves machine and tables in sync although its `k`-th database call fails. -/
def Survives (opened : List ℤ) (w : World) (input : AlertInput) (k : ℕ) : Prop :=
  let m := effective w input.check.id
  if k < looks w input.check.id then True
  else if m.opens input.check input.ok then looks w input.check.id + openingCalls pf w input ≤ k
  else if m.recovers input.check input.ok then
    (m.incidentId.isSome → k ≠ looks w input.check.id) ∧
      ∀ i ∈ w.store.incidents.rows, i.isActive → i.id ∈ opened → m.incidentId = some i.id
  else if m.state = .down then m.incidentId.isSome = true
  else ∀ i ∈ w.store.incidents.rows, i.isActive → i.id ∉ opened

variable {pf} {w : World} {input : AlertInput} {Q : Option Unit → World → Prop} {n : ℕ} {id : ℤ}

/-! ### The call that fails

What each program leaves when its `n`-th statement fails. -/

section Calls

theorem wpAt_addUpdate_bind {ts : ℤ} {state : IncidentState} {text : String} {auto : Bool}
    (h : (w.store.incident id).isSome) (f : Unit → Prog World Unit) :
    ((addUpdate id ts state text auto).bind f).wpAt (n + 1) Q w ↔
      (f ()).wpAt n Q (w.onStore (·.addUpdate id ts state text auto)) := by
  simp [addUpdate, Prog.bind, Prog.wpAt, h]

theorem wpAt_onOpen_zero : (onOpen pf input).wpAt 0 Q w ↔ Q none w := Iff.rfl

theorem wpAt_onOpen_existing {i : Incident}
    (h : w.store.activeIncidentFor pf input.component = some i) :
    (onOpen pf input).wpAt (n + 1) Q w ↔
      Q (some ()) (notified input.muted (downNotification input i.id)
        (point input.check.id i.id w)) := by
  rw [onOpen]
  simp only [Prog.bind_eq, select, Prog.query, Prog.bind, Prog.wpAt, h]
  cases input.muted <;> rfl

section

variable (h : w.store.activeIncidentFor pf input.component = none)
include h

theorem wpAt_onOpen_one : (onOpen pf input).wpAt 1 Q w ↔ Q none w := by
  rw [onOpen]
  simp only [Prog.bind_eq, select, Prog.query, Prog.bind, Prog.wpAt, h]
  rfl

theorem wpAt_onOpen_two :
    (onOpen pf input).wpAt 2 Q w ↔ Q none (w.onStore (Store.created input)) := by
  rw [onOpen]
  simp only [Prog.bind_eq, select, Prog.query, Prog.bind, Prog.wpAt, h]
  rfl

/-- During maintenance the quiet mark can fail with an error. -/
theorem wpAt_onOpen_three (hm : input.muted = true) :
    (onOpen pf input).wpAt 3 Q w ↔ Q none (w.onStore (Store.noted pf input)) := by
  have hnew := Store.incident_createIncident w.store input.component
    s!"{input.check.name} is down" .majorOutage .investigating true input.now
  rw [onOpen, openNew]
  simp only [Prog.bind_eq, select, Prog.query, Prog.bind, Prog.wpAt, h, createIncident,
    Prog.execReturning, id_eq, hm]
  rw [Prog.bind_assoc, wpAt_addUpdate_bind hnew]
  rfl

/-- After the last call that can fail with an error, the machine is pointed at the incident, and
subscribers may or may not have been told. -/
theorem wpAt_onOpen_done
    (hn : (if input.muted then 4 else 3) ≤ n)
    (hnoted : input.muted = false →
      Q (some ()) (notified false (downNotification input w.store.incidents.next)
        (point input.check.id w.store.incidents.next (w.onStore (Store.noted pf input)))))
    (hopened : Q (some ()) (opened pf input w)) : (onOpen pf input).wpAt n Q w := by
  have hnew := Store.incident_createIncident w.store input.component
    s!"{input.check.name} is down" .majorOutage .investigating true input.now
  rw [opened, h] at hopened
  obtain ⟨n, rfl⟩ : ∃ m, n = m + 3 := Nat.exists_eq_add_of_le' (by split at hn <;> omega)
  rw [onOpen, openNew]
  simp only [Prog.bind_eq, select, Prog.query, Prog.bind, Prog.wpAt, h, createIncident,
    Prog.execReturning, id_eq]
  rw [Prog.bind_assoc, wpAt_addUpdate_bind hnew]
  cases hm : input.muted with
  | true =>
    obtain ⟨n, rfl⟩ : ∃ m, n = m + 1 := Nat.exists_eq_add_of_le' (by simp [hm] at hn; omega)
    simpa [statement, Prog.exec, Prog.bind, Prog.wpAt, Prog.modify, notified, Store.opened, hm,
      World.onStore] using hopened
  | false =>
    refine Prog.wpAt_of_wp ?_
    have hnoted := hnoted hm
    cases hs : w.engine.subscriptions with
    | none => simpa [Store.noted, Store.created, World.onStore, hs] using hnoted
    | some cfg =>
      simp only [hm, hs] at hopened
      simpa [wp_publishIncident, Store.opened, Store.noted, Store.created, World.onStore, hs, hm]
        using And.intro hopened hnoted

end

theorem wpAt_onResolve_zero : (onResolve input id).wpAt 0 Q w ↔ Q none w := Iff.rfl

theorem wpAt_onResolve_one :
    (onResolve input id).wpAt 1 Q w ↔ Q none (w.onStore (·.resolveIncident id input.now)) :=
  Iff.rfl

theorem wpAt_onResolve_done (h : (w.store.incident id).isSome)
    (hnoted : Q (some ()) (notified input.muted (upNotification input id)
      (w.onStore (Store.recoveredNoted input id))))
    (hrecovered : Q (some ()) (recovered input id w)) :
    (onResolve input id).wpAt (n + 2) Q w := by
  rw [onResolve]
  simp only [Prog.bind_eq, statement, Prog.exec, Prog.bind, Prog.wpAt]
  rw [wpAt_addUpdate_bind (Store.isSome_incident_resolveIncident h _)]
  refine Prog.wpAt_of_wp ?_
  cases hs : w.engine.subscriptions with
  | none =>
    cases hm : input.muted <;>
      simpa [Store.recoveredNoted, World.onStore, notified, hs, hm] using hnoted
  | some cfg =>
    simp only [recovered, hs] at hrecovered
    cases hm : input.muted <;>
      simpa [wp_publishIncident, Store.recovered, Store.recoveredNoted, World.onStore, notified,
        hs, hm] using And.intro hrecovered hnoted

theorem cost_dropClosed (checkId : String) : (dropClosed checkId).cost w = looks w checkId := by
  rw [dropClosed, looks]
  simp only [Prog.bind_eq, Prog.get, Prog.bind, Prog.cost]
  cases h : w.held checkId with
  | none => simp [Prog.cost]
  | some id =>
    simp only [id_eq, select, Prog.query, Prog.bind, Prog.cost]
    split <;> rfl

theorem wpAt_handle_look (h : n < looks w input.check.id) :
    (handle pf input).wpAt n Q w ↔ Q none w := by
  have hheld : (w.held input.check.id).isSome := by
    by_contra hno
    simp [looks, hno] at h
  obtain ⟨id, hid⟩ := Option.isSome_iff_exists.mp hheld
  obtain rfl : n = 0 := by simp [looks, hid] at h; exact h
  rw [handle, dropClosed]
  simp only [Prog.bind_eq, Prog.get, Prog.bind, Prog.wpAt, id_eq, hid, select, Prog.query]
  rfl

theorem wpAt_handle (h : looks w input.check.id ≤ n) :
    (handle pf input).wpAt n Q w ↔
      match ((effective w input.check.id).onResult input.check input.ok input.now).2 with
      | .nothing => Q (some ()) (stepped input w)
      | .open => (onOpen pf input).wpAt (n - looks w input.check.id) Q (stepped input w)
      | .resolve id => (onResolve input id).wpAt (n - looks w input.check.id) Q (stepped input w)
      | .remind id =>
        Q (some ()) (notified input.muted (reminderNotification input id) (stepped input w)) := by
  unfold handle
  rw [← cost_dropClosed] at h ⊢
  rw [Prog.bind_eq, Prog.wpAt_bind_of_ge h, wpOk_dropClosed]
  simp only [Prog.bind_eq, advance, Prog.bind, Prog.wpAt]
  unfold effective stepped
  cases (((dropped input.check.id w).machine input.check.id).onResult input.check input.ok
    input.now).2 with
  | nothing => rfl
  | «open» => rfl
  | resolve id => rfl
  | remind id =>
    unfold onRemind
    cases input.muted <;> rfl

end Calls

/-! ### What holds in every state -/

/-- Machines point at incidents that exist, and only while they are down. It holds whichever calls
fail. -/
structure Sound (w : World) : Prop where
  found : ∀ c id, w.held c = some id → ∃ i ∈ w.store.incidents.rows, i.id = id
  up : ∀ c m, w.engine.machines c = some m → m.state = .up → m.incidentId = none

namespace Sound

theorem onStore (h : Sound w) {f : Store → Store} (hf : w.store.Grows (f w.store)) :
    Sound (w.onStore f) where
  found c id hc := by
    obtain ⟨i, hi, rfl⟩ := h.found c id hc
    obtain ⟨i', hi', he⟩ := hf i hi
    exact ⟨i', hi', he.id⟩
  up := h.up

theorem notified (h : Sound w) (muted : Bool) (n : Notification) :
    Sound (notified muted n w) := by
  cases muted <;> exact ⟨h.found, h.up⟩

theorem retain (h : Sound w) (cfg : Config) (ids : List ℤ) : Sound (retain cfg ids w) where
  found c id hc := by
    refine h.found c id ?_
    simp only [World.held, AlertEngine.retain, Option.bind_eq_some_iff,
      Option.filter_eq_some_iff] at hc ⊢
    obtain ⟨m, ⟨hm, -⟩, hid⟩ := hc
    exact ⟨m, hm, hid⟩
  up c m hm := by
    simp only [AlertEngine.retain, Option.filter_eq_some_iff] at hm
    exact h.up c m hm.1

/-- A machine that is down may be pointed at an incident that exists. -/
theorem setMachine (h : Sound w) {checkId : String} {m : CheckMachine}
    (hfound : ∀ id, m.incidentId = some id → ∃ i ∈ w.store.incidents.rows, i.id = id)
    (hup : m.state = .up → m.incidentId = none) : Sound (w.setMachine checkId m) where
  found c id hc := by
    rw [World.held, machines_setMachine] at hc
    split at hc
    · exact hfound id hc
    · exact h.found c id hc
  up c m' hm' := by
    rw [machines_setMachine] at hm'
    split at hm'
    · obtain rfl := Option.some.inj hm'
      exact hup
    · exact h.up c m' hm'

theorem effective_up (h : Sound w) {c : String} (hup : (effective w c).state = .up) :
    (effective w c).incidentId = none := by
  rw [effective, dropped] at hup ⊢
  split
  · simp [World.machine]
  · rename_i hc
    rw [if_neg hc] at hup
    cases hm : w.engine.machines c with
    | none => simp [World.machine, hm]
    | some m =>
      simp only [World.machine, hm, Option.getD_some] at hup ⊢
      exact h.up c m hm hup

theorem dropped (h : Sound w) (c : String) : Sound (dropped c w) := by
  rw [AlertEngine.dropped]
  split
  · exact h.setMachine (by simp) (by simp)
  · exact h

theorem stepped (h : Sound w) (input : AlertInput) : Sound (stepped input w) := by
  refine (h.dropped input.check.id).setMachine (fun id hid => ?_) fun hup => ?_
  · have hid' : (effective w input.check.id).incidentId = some id :=
      CheckMachine.incidentId_onResult hid
    obtain ⟨i, hi, hii, -⟩ := exists_of_effective hid'
    exact ⟨i, by rwa [store_dropped], hii⟩
  · exact CheckMachine.incidentId_of_up h.effective_up hup

/-- A machine that has opened is pointed at its incident. -/
theorem point (h : Sound w) {checkId : String} {m : CheckMachine} {id : ℤ}
    (hm : w.engine.machines checkId = some m) (hdown : m.state = .down)
    (hid : ∃ i ∈ w.store.incidents.rows, i.id = id) : Sound (point checkId id w) := by
  rw [AlertEngine.point]
  rw [hm]
  refine h.setMachine (fun id' hid' => ?_) fun hup => ?_
  · rwa [← Option.some.inj hid']
  · exact absurd (hdown.symm.trans hup) (by decide)

end Sound

theorem rewritable_sound : Rewritable Sound := fun _ _ h hs => h.onStore hs.grows

/-- The machine of a check that opens is down. -/
theorem machines_stepped_of_opens (ho : (effective w input.check.id).opens input.check input.ok) :
    ∃ m, (stepped input w).engine.machines input.check.id = some m ∧ m.state = .down ∧
      m.incidentId = (effective w input.check.id).incidentId := by
  rw [machines_stepped, if_pos rfl, CheckMachine.onResult_of_opens ho]
  exact ⟨_, rfl, rfl, rfl⟩

theorem opens_of_open {m : CheckMachine} {check : CheckConfig} {ok : Bool} {now : ℤ}
    (h : (m.onResult check ok now).2 = .open) : m.opens check ok := by
  by_contra ho
  by_cases hr : m.recovers check ok
  · rw [CheckMachine.onResult_of_recovers hr] at h
    cases hid : m.incidentId <;> simp [hid] at h
  · rcases (CheckMachine.onResult_of_stays ho hr now).2.2 with h' | ⟨id, -, -, -, h'⟩ <;>
      simp [h'] at h

theorem grows_created (s : Store) : s.Grows (s.created input) := .of_rows_append rfl

theorem grows_noted (s : Store) : s.Grows (s.noted pf input) := .of_rows_append rfl

theorem grows_opened (subscriptions : Option Config) (s : Store) :
    s.Grows (s.opened pf subscriptions input) := .of_rows_append Store.rows_opened

theorem exists_noted (s : Store) :
    ∃ i ∈ (s.noted pf input).incidents.rows, i.id = s.incidents.next :=
  ⟨_, List.mem_append_right _ List.mem_cons_self, rfl⟩

theorem exists_opened (subscriptions : Option Config) (s : Store) :
    ∃ i ∈ (s.opened pf subscriptions input).incidents.rows, i.id = s.incidents.next := by
  rw [Store.rows_opened]
  exact ⟨_, List.mem_append_right _ List.mem_cons_self, rfl⟩

theorem sound_handle (h : Sound w) : (handle pf input).wp (fun _ => Sound) w := by
  have hs := h.stepped input
  rw [wp_handle]
  refine ⟨fun _ => h, ?_⟩
  split
  · exact hs
  · rename_i ht
    obtain ⟨m, hm, hdown, -⟩ := machines_stepped_of_opens (opens_of_open ht)
    rw [wp_onOpen]
    refine ⟨hs, ?_⟩
    split
    · rename_i i hi
      exact (hs.point hm hdown ⟨i, (Store.activeIncidentFor_eq_some hi).1, rfl⟩).notified _ _
    · rename_i hnone
      refine ⟨hs.onStore (grows_created _), ?_, ?_⟩
      · split
        · exact hs.onStore (grows_noted _)
        · exact ((hs.onStore (grows_noted _)).point hm hdown (exists_noted _)).notified _ _
      · rw [opened, hnone]
        exact ((hs.onStore (grows_opened _ _)).point hm hdown (exists_opened _ _)).notified _ _
  · rename_i id ht
    obtain ⟨i, hi, rfl, -, -, -⟩ := exists_of_effective (CheckMachine.incidentId_of_resolve ht)
    rw [wp_onResolve (Store.exists_incident_iff.mpr ⟨i, by rwa [store_stepped], rfl⟩)]
    have hres := rewritable_sound.resolveIncident hs i.id input.now
    refine ⟨hs, hres, ?_, ?_⟩
    · exact (hs.onStore (Store.Rewrites.recoveredNoted _ _ _).grows).notified _ _
    · exact (hs.onStore (Store.Rewrites.recovered _ _ _ _).grows).notified _ _
  · exact hs.notified _ _

/-- Every operation keeps machines sound, whichever of its calls fail. -/
theorem sound_prog (h : Sound w) (op : Op) : (op.prog pf).wp (fun _ => Sound) w := by
  have hI := rewritable_sound
  have hretain : ∀ cfg ids w, Sound w → Sound (retain cfg ids w) :=
    fun cfg ids _ hw => hw.retain cfg ids
  cases op with
  | start cfg now =>
    have hempty : Sound (w.restarted cfg) := ⟨fun c id hc => by
      simp [World.held, World.restarted] at hc, fun c m hm => by simp [World.restarted] at hm⟩
    refine Rewritable.wp_bind (by exact hempty) fun _ w hw =>
      hI.wp_bootstrap hretain (fun w c i hw hi => ?_) hw
    refine hw.setMachine (fun id hid => ⟨i, hi, ?_⟩) (by simp [CheckMachine.resumed])
    exact Option.some.inj hid
  | reload cfg now =>
    have hreloaded : Sound (w.reloaded cfg) := ⟨h.found, h.up⟩
    refine Rewritable.wp_bind (by exact hreloaded) fun _ w hw =>
      Rewritable.wp_bind (by exact hw) fun _ w hw => ?_
    exact Rewritable.wp_bind (hI.wp_forgetUnmonitored hretain hw) fun _ w hw => ⟨hw.found, hw.up⟩
  | follow => exact ⟨h.found, h.up⟩
  | handle input => exact sound_handle h
  | create form now =>
    exact hI.wp_operatorCreate (fun _ _ _ => h.onStore (.of_rows_append rfl)) h
  | update id form now => exact hI.wp_operatorUpdate h
  | resolve id now => exact hI.wp_operatorResolve h

theorem sound_run (cfg : Config) (ops : List (Op × List Bool)) :
    Sound (run (faultyStep pf) (.initial .empty cfg) ops) := by
  have h₀ : Sound (.initial .empty cfg) := ⟨fun c id hc => by
    simp [World.held, World.initial] at hc, fun c m hm => by simp [World.initial] at hm⟩
  refine Always.run_inv (.of_forall fun _ _ => trivial) h₀ fun w op hw (_ : True) => ?_
  exact Prog.wp_run (sound_prog hw op.1) op.2

/-! ### In sync or not -/

section Sync

variable {opened : List ℤ} {w' : World} {c : String} {m : CheckMachine} {k : ℕ}

theorem insync_of_down (hm : w'.engine.machines c = some m) (hdown : m.state = .down) :
    InSync opened c w w' ↔ ∃ i ∈ w'.store.incidents.rows, m.incidentId = some i.id := by
  have hmachine : w'.machine c = m := by rw [World.machine, hm, Option.getD_some]
  constructor
  · intro h
    simpa [hmachine] using h.down (by rw [hmachine, hdown])
  · intro h
    refine ⟨fun _ => by rwa [hmachine], fun hup => ?_⟩
    rw [hmachine, hdown] at hup
    exact absurd hup (by decide)

theorem insync_of_up (hm : w'.engine.machines c = some m) (hup : m.state = .up) :
    InSync opened c w w' ↔ ∀ i ∈ w'.store.incidents.rows, i.isActive →
      i.id ∉ opened ∧ w.held c ≠ some i.id ∧ i.id < w.store.incidents.next := by
  have hmachine : w'.machine c = m := by rw [World.machine, hm, Option.getD_some]
  constructor
  · exact fun h => h.up (by rw [hmachine, hup])
  · intro h
    refine ⟨fun hdown => ?_, fun _ => h⟩
    rw [hmachine, hup] at hdown
    exact absurd hdown (by decide)

/-- An open incident that is held survives the look-up. -/
theorem effective_of_held {i : Incident} (hheld : w.held c = some i.id)
    (hi : i ∈ w.store.incidents.rows) (hact : i.isActive) :
    (effective w c).incidentId = some i.id := by
  cases hm : w.engine.machines c with
  | none => simp [World.held, hm] at hheld
  | some m =>
    rw [World.held, hm, Option.bind_some] at hheld
    rw [effective_of_open hm hheld hi hact, hheld]

/-- A machine that is up after a call that changed no incident. -/
theorem insync_of_up_same (hm : w'.engine.machines c = some m) (hup : m.state = .up)
    (hrows : w'.store.incidents = w.store.incidents)
    (hnone : (effective w c).incidentId = none) :
    InSync opened c w w' ↔ ∀ i ∈ w.store.incidents.rows, i.isActive → i.id ∉ opened := by
  rw [insync_of_up hm hup, hrows]
  refine forall₂_congr fun i hi => forall_congr' fun hact => ⟨fun h => h.1, fun h => ⟨h, ?_, ?_⟩⟩
  · intro hheld
    rw [effective_of_held hheld hi hact] at hnone
    exact absurd hnone (by simp)
  · exact Store.id_lt_next hi

/-- Before the machine is pointed it is down and points at nothing. -/
theorem not_insync_stepped (h : Sound w)
    (ho : (effective w input.check.id).opens input.check input.ok)
    (hengine : w'.engine = (stepped input w).engine) : ¬InSync opened input.check.id w w' := by
  obtain ⟨m, hm, hdown, hid⟩ := machines_stepped_of_opens ho
  rw [h.effective_up ho.2.1] at hid
  rw [insync_of_down (by rw [hengine, hm]) hdown, hid]
  simp

/-- Afterwards it points at an incident. -/
theorem insync_pointed (ho : (effective w input.check.id).opens input.check input.ok)
    (hengine : w'.engine = (stepped input w).engine)
    (hi : ∃ i ∈ w'.store.incidents.rows, i.id = id) (n' : Notification) :
    InSync opened input.check.id w
      (notified input.muted n' (point input.check.id id w')) := by
  obtain ⟨m, hm, hdown, -⟩ := machines_stepped_of_opens ho
  have hm' : (notified input.muted n' (point input.check.id id w')).engine.machines
      input.check.id = some { m with incidentId := some id } := by
    rw [engine_notified, machines_point, if_pos rfl, hengine, hm]
    rfl
  rw [insync_of_down hm' hdown, store_notified, store_point]
  obtain ⟨i, hi, rfl⟩ := hi
  exact ⟨i, hi, rfl⟩

theorem wpAt_opening (h : Sound w) (ho : (effective w input.check.id).opens input.check input.ok) :
    (onOpen pf input).wpAt n
      (fun _ w' => InSync opened input.check.id w w' ↔ openingCalls pf w input ≤ n)
      (stepped input w) := by
  have hlost : ∀ w' : World, w'.engine = (stepped input w).engine → openingCalls pf w input > n →
      (InSync opened input.check.id w w' ↔ openingCalls pf w input ≤ n) := fun w' hengine hn =>
    iff_of_false (not_insync_stepped h ho hengine) (Nat.not_le.mpr hn)
  have hpointed : ∀ (w' : World) id, w'.engine = (stepped input w).engine →
      (∃ i ∈ w'.store.incidents.rows, i.id = id) → openingCalls pf w input ≤ n →
      ∀ n', InSync opened input.check.id w
        (notified input.muted n' (point input.check.id id w')) ↔ openingCalls pf w input ≤ n :=
    fun w' id hengine hi hn n' => iff_of_true (insync_pointed ho hengine hi n') hn
  cases hactive : w.store.activeIncidentFor pf input.component with
  | some i =>
    have hactive' : (stepped input w).store.activeIncidentFor pf input.component = some i := by
      rw [store_stepped, hactive]
    have hcalls : openingCalls pf w input = 1 := by rw [openingCalls, hactive]
    cases n with
    | zero => exact wpAt_onOpen_zero.mpr (hlost _ rfl (by omega))
    | succ n =>
      rw [wpAt_onOpen_existing hactive']
      refine hpointed _ _ rfl ⟨i, ?_, rfl⟩ (by omega) _
      rw [store_stepped]
      exact (Store.activeIncidentFor_eq_some hactive).1
  | none =>
    have hactive' : (stepped input w).store.activeIncidentFor pf input.component = none := by
      rw [store_stepped, hactive]
    have hcalls : openingCalls pf w input = if input.muted then 4 else 3 := by
      rw [openingCalls, hactive]
    by_cases hn : openingCalls pf w input ≤ n
    · refine wpAt_onOpen_done hactive' (hcalls ▸ hn) (fun hmuted => ?_) ?_
      · have := hpointed ((stepped input w).onStore (Store.noted pf input)) _ rfl
          (exists_noted _) hn (downNotification input (stepped input w).store.incidents.next)
        rwa [hmuted] at this
      · rw [AlertEngine.opened, hactive']
        exact hpointed ((stepped input w).onStore (Store.opened pf _ input)) _ rfl
          (exists_opened _ _) hn _
    · rw [hcalls] at hn
      have hlost := fun w' hw' => hlost w' hw' (by rw [hcalls]; omega)
      rcases n with _ | _ | _ | _ | n
      · exact wpAt_onOpen_zero.mpr (hlost _ rfl)
      · exact (wpAt_onOpen_one hactive').mpr (hlost _ rfl)
      · exact (wpAt_onOpen_two hactive').mpr (hlost _ rfl)
      · have hmuted : input.muted = true := by
          by_contra hmuted
          simp [hmuted] at hn
        exact (wpAt_onOpen_three hactive' hmuted).mpr (hlost _ rfl)
      · split at hn <;> omega

/-- The machine of a check that recovers is up. -/
theorem machines_stepped_of_recovers
    (hr : (effective w input.check.id).recovers input.check input.ok) :
    ∃ m, (stepped input w).engine.machines input.check.id = some m ∧ m.state = .up := by
  rw [machines_stepped, if_pos rfl, CheckMachine.onResult_of_recovers hr]
  exact ⟨_, rfl, rfl⟩

/-- Closing the machine's incident leaves the others, of which the earlier ones matter. -/
theorem insync_resolved {i : Incident} {ts : ℤ} (hid : (effective w c).incidentId = some i.id)
    (hm : w'.engine.machines c = some m) (hup : m.state = .up)
    (hrows : w'.store.incidents = (w.store.resolveIncident i.id ts).incidents) :
    InSync opened c w w' ↔ ∀ j ∈ w.store.incidents.rows, j.isActive → j.id ∈ opened →
      (effective w c).incidentId = some j.id := by
  obtain ⟨-, -, -, -, -, hheld⟩ := exists_of_effective hid
  rw [insync_of_up hm hup, hid, hrows]
  constructor
  · intro h j hj hact hmem
    by_contra hne
    have hne : j.id ≠ i.id := fun he => hne (by rw [he])
    exact (h j (Store.mem_resolveIncident.mpr ⟨j, hj, if_neg hne⟩) hact).1 hmem
  · intro h j hj hact
    obtain ⟨j₀, hj₀, hif⟩ := Store.mem_resolveIncident.mp hj
    split at hif
    · simp [← hif, Incident.closed, Incident.isActive] at hact
    · rename_i hne
      subst hif
      refine ⟨fun hmem => hne (Option.some.inj (h _ hj₀ hact hmem)).symm, fun hh => hne ?_,
        Store.id_lt_next hj₀⟩
      rw [hheld] at hh
      exact (Option.some.inj hh).symm

variable (opened) in
theorem wpAt_recovering {i : Incident} (hi : i ∈ w.store.incidents.rows) (hact : i.isActive)
    (hr : (effective w input.check.id).recovers input.check input.ok)
    (hid : (effective w input.check.id).incidentId = some i.id) :
    (onResolve input i.id).wpAt n
      (fun _ w' => InSync opened input.check.id w w' ↔ n ≠ 0 ∧
        ∀ j ∈ w.store.incidents.rows, j.isActive → j.id ∈ opened →
          (effective w input.check.id).incidentId = some j.id) (stepped input w) := by
  obtain ⟨m, hm, hup⟩ := machines_stepped_of_recovers hr
  obtain ⟨-, -, -, -, -, hheld⟩ := exists_of_effective hid
  have hres : ∀ w' : World, w'.engine = (stepped input w).engine →
      w'.store.incidents = (w.store.resolveIncident i.id input.now).incidents → ∀ n ≠ 0,
      (InSync opened input.check.id w w' ↔ n ≠ 0 ∧
        ∀ j ∈ w.store.incidents.rows, j.isActive → j.id ∈ opened →
          (effective w input.check.id).incidentId = some j.id) := by
    intro w' hengine hrows n hn
    rw [insync_resolved hid (by rw [hengine, hm]) hup hrows]
    exact ⟨fun h => ⟨hn, h⟩, fun h => h.2⟩
  match n with
  | 0 =>
    -- the machine has gone up, and its incident is still open
    refine wpAt_onResolve_zero.mpr ?_
    rw [insync_of_up hm hup, store_stepped]
    exact iff_of_false (fun h => (h i hi hact).2.1 hheld) fun h => h.1 rfl
  | 1 =>
    refine wpAt_onResolve_one.mpr
      (hres ((stepped input w).onStore (·.resolveIncident i.id input.now)) rfl ?_ 1 (by decide))
    rw [World.store_onStore, store_stepped]
  | n + 2 =>
    have hex : ((stepped input w).store.incident i.id).isSome :=
      Store.exists_incident_iff.mpr ⟨i, by rwa [store_stepped], rfl⟩
    refine wpAt_onResolve_done hex ?_ ?_
    · refine hres (notified input.muted (upNotification input i.id)
        ((stepped input w).onStore (Store.recoveredNoted input i.id))) (engine_notified _ _ _) ?_ _
        (Nat.succ_ne_zero _)
      rw [store_notified, World.store_onStore, store_stepped]
      rfl
    · refine hres (recovered input i.id (stepped input w)) (engine_notified _ _ _) ?_ _
        (Nat.succ_ne_zero _)
      rw [recovered, store_notified, World.store_onStore, store_stepped,
        Store.incidents_recovered]

/-- A result that neither opens nor recovers changes no table. -/
theorem insync_of_stays (h : Sound w)
    (ho : ¬(effective w input.check.id).opens input.check input.ok)
    (hr : ¬(effective w input.check.id).recovers input.check input.ok)
    (hengine : w'.engine = (stepped input w).engine) (hstore : w'.store = w.store) :
    InSync opened input.check.id w w' ↔
      if (effective w input.check.id).state = .down then
        (effective w input.check.id).incidentId.isSome = true
      else ∀ i ∈ w.store.incidents.rows, i.isActive → i.id ∉ opened := by
  obtain ⟨hstate, hid, -⟩ := CheckMachine.onResult_of_stays ho hr input.now
  have hm : w'.engine.machines input.check.id =
      some ((effective w input.check.id).onResult input.check input.ok input.now).1 := by
    rw [hengine, machines_stepped, if_pos rfl]
  cases hs : (effective w input.check.id).state with
  | down =>
    rw [if_pos rfl, insync_of_down hm (hstate.trans hs), hid, hstore]
    constructor
    · rintro ⟨i, -, hi⟩
      rw [hi]
      rfl
    · intro hsome
      obtain ⟨id, hid'⟩ := Option.isSome_iff_exists.mp hsome
      obtain ⟨i, hi, rfl, -⟩ := exists_of_effective hid'
      exact ⟨i, hi, hid'⟩
  | up =>
    rw [if_neg (by decide), insync_of_up_same hm (hstate.trans hs) (by rw [hstore])]
    exact h.effective_up hs

theorem wpAt_insync (h : Sound w) (opened : List ℤ) (input : AlertInput) (k : ℕ) :
    (handle pf input).wpAt k
      (fun _ w' => InSync opened input.check.id w w' ↔ Survives pf opened w input k) w := by
  rw [Survives]
  by_cases hk : k < looks w input.check.id
  · -- the look-up fails: nothing has changed, and the machine points at an incident, so it is down
    rw [wpAt_handle_look hk]
    have hheld : (w.held input.check.id).isSome := by
      by_contra hno
      simp [looks, hno] at hk
    obtain ⟨id, hid⟩ := Option.isSome_iff_exists.mp hheld
    obtain ⟨m, hm, hmid⟩ := Option.bind_eq_some_iff.mp hid
    have hdown : m.state = .down := by
      cases hs : m.state with
      | down => rfl
      | up =>
        rw [h.up _ m hm hs] at hmid
        exact absurd hmid (by simp)
    obtain ⟨i, hi, rfl⟩ := h.found _ id hid
    rw [if_pos hk, insync_of_down hm hdown]
    exact iff_of_true ⟨i, hi, hmid⟩ trivial
  rw [wpAt_handle (Nat.not_lt.mp hk), if_neg hk]
  by_cases ho : (effective w input.check.id).opens input.check input.ok
  · rw [CheckMachine.onResult_of_opens ho, if_pos ho]
    have hk' : looks w input.check.id + openingCalls pf w input ≤ k ↔
        openingCalls pf w input ≤ k - looks w input.check.id := by omega
    rw [hk']
    exact wpAt_opening h ho
  rw [if_neg ho]
  by_cases hr : (effective w input.check.id).recovers input.check input.ok
  · rw [CheckMachine.onResult_of_recovers hr, if_pos hr]
    cases hid : (effective w input.check.id).incidentId with
    | none =>
      obtain ⟨m, hm, hup⟩ := machines_stepped_of_recovers hr
      show InSync _ _ _ _ ↔ _
      rw [insync_of_up_same hm hup (by rw [store_stepped]) hid]
      simp
    | some id =>
      obtain ⟨i, hi, rfl, hact, -, -⟩ := exists_of_effective hid
      have hk' : ((some i.id).isSome = true → k ≠ looks w input.check.id) ↔
          k - looks w input.check.id ≠ 0 := by simp; omega
      have hrecovering : (onResolve input i.id).wpAt (k - looks w input.check.id) _ _ :=
        wpAt_recovering opened hi hact hr hid
      rw [hid] at hrecovering
      rw [hk']
      exact hrecovering
  rw [if_neg hr]
  rcases (CheckMachine.onResult_of_stays ho hr input.now).2.2 with ht | ⟨id, -, -, -, ht⟩
  · rw [ht]
    exact insync_of_stays h ho hr rfl (store_stepped input w)
  · rw [ht]
    exact insync_of_stays h ho hr (engine_notified _ _ _)
      ((store_notified _ _ _).trans (store_stepped input w))

end Sync

/-! ### Every reachable state -/

/-- **When a failing database call leaves machine and incident in sync.** In every state that can be
reached, with or without earlier failures, whatever incidents the machine is taken to have opened
before, for every input and every `k`: after a `handle` whose `k`-th database call fails, the
machine agrees with the tables if and only if `Survives` holds. -/
theorem insync_iff (cfg : Config) (ops : List (Op × List Bool)) (opened : List ℤ)
    (input : AlertInput) (k : ℕ) :
    InSync opened input.check.id (run (faultyStep pf) (.initial .empty cfg) ops)
        (faultyStep pf (run (faultyStep pf) (.initial .empty cfg) ops)
          (.handle input, Prog.failAt k)) ↔
      Survives pf opened (run (faultyStep pf) (.initial .empty cfg) ops) input k :=
  Prog.wpAt_iff_run.mp (wpAt_insync (sound_run cfg ops) opened input k)

/-- **A failed write leaves an outage without an incident**: the check goes down, `create_incident`
fails, and the machine is down and points at nothing. -/
theorem desynced_by_create :
    ¬InSync [] "web" (World.initial .empty quickConfig)
      (faultyStep .ascii (.initial .empty quickConfig)
        (.handle (probe false 1), Prog.failAt 1)) := by
  intro h
  have := h.down (by decide)
  revert this
  decide

end Dunlin

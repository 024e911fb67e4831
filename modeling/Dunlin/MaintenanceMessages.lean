import Dunlin.Lib.Run
import Dunlin.MaintenanceRun

/-!
# The messages about a maintenance window

What a subscriber is told about a window should read `scheduled? started? completed?` or
`scheduled cancelled`: a window is called off only if it was announced and has not begun, and one
that has begun is completed by the first tick that finds it over.

The three flags of the row keep to that in every order of events but one. A tick tells a cancelled
window by its end, which then is no later than its start. So a window whose start was announced and
which the operator ends in that very second counts as called off: subscribers are told that it is
cancelled, or nothing at all. `maintenance_messages` says that nothing else can go wrong: in a run
without such an ending (`EndsApart`) the messages are as they should be.

## Main results

* `Voices.step` — an operation keeps the messages in line with the row
* `ended_at_once` — what an ending in the second of the start leads to
* `maintenance_messages` — every run in the order of its times without such an ending
* `cancelled_after_start` — a run with one
-/

namespace Dunlin

open Lib

/-! ### What may go wrong -/

/-- The operator does not end a window in the second in which it starts, once the start has been
announced. -/
def EndsApart (u : Upkeep) : MaintenanceOp → Prop
  | .finish id now => ∀ m ∈ u.windows.rows, m.id = id → m.startsAt = now → now < m.endsAt →
      m.startedSent = false
  | _ => True

instance (u : Upkeep) : (op : MaintenanceOp) → Decidable (EndsApart u op)
  | .finish _ _ => inferInstanceAs (Decidable (∀ m ∈ u.windows.rows, _ → _ → _ → _))
  | .start .. | .tick .. | .restart => isTrue trivial

/-- A tick that finds the window `wid` over. -/
def FindsOver (wid : ℤ) (u : Upkeep) : MaintenanceOp → Prop
  | .tick _ now => ∃ m ∈ u.windows.rows, m.id = wid ∧ m.endsAt ≤ now
  | _ => False

instance (wid : ℤ) (u : Upkeep) : (op : MaintenanceOp) → Decidable (FindsOver wid u op)
  | .tick _ _ => inferInstanceAs (Decidable (∃ m ∈ u.windows.rows, _ ∧ _))
  | .start .. | .finish .. | .restart => isFalse id

/-! ### The invariant -/

/-- What has been told about a window in its present state. -/
def Voiced (m : Maintenance) (l : List MaintenanceChange) : Prop :=
  ∃ rest, l = (if m.scheduledSent = true then [.scheduled] else []) ++ rest ∧
    match m.startedSent, m.completedSent with
    | false, false => rest = []
    | true, false => rest = [.started] ∧ m.startsAt < m.endsAt
    | false, true => False
    | true, true => rest = [.started, .completed] ∨ rest = [.completed] ∨
        rest = if m.scheduledSent = true then [.cancelled] else []

theorem Voiced.nodup {m : Maintenance} {l : List MaintenanceChange} (h : Voiced m l) :
    l.Nodup := by
  obtain ⟨rest, rfl, hrest⟩ := h
  split at hrest
  · subst hrest
    split <;> decide
  · obtain ⟨rfl, -⟩ := hrest
    split <;> decide
  · exact hrest.elim
  · rcases hrest with rfl | rfl | rfl <;> split <;> decide

theorem Voiced.cancelled {m : Maintenance} {l : List MaintenanceChange} (h : Voiced m l)
    (hc : .cancelled ∈ l) : .scheduled ∈ l ∧ .started ∉ l ∧ .completed ∉ l := by
  obtain ⟨rest, rfl, hrest⟩ := h
  have hmem : MaintenanceChange.cancelled ∈ rest := by
    rcases List.mem_append.mp hc with hc | hc
    · split at hc <;> simp at hc
    · exact hc
  split at hrest
  · simp [hrest] at hmem
  · simp [hrest.1] at hmem
  · exact hrest.elim
  · rcases hrest with rfl | rfl | rfl
    · simp at hmem
    · simp at hmem
    · split at hmem
      · rename_i hs
        simp [hs]
      · simp at hmem

/-- A tick adds what is due. -/
theorem Voiced.ticked {m : Maintenance} {l : List MaintenanceChange} (h : Voiced m l) (now : ℤ) :
    Voiced (m.ticked now) (l ++ m.due now) := by
  obtain ⟨rest, rfl, hrest⟩ := h
  refine ⟨rest ++ m.due now, by rw [List.append_assoc]; rfl, ?_⟩
  obtain ⟨id, component, note, startsAt, endsAt, createdAt, scheduled, started, completed⟩ := m
  cases completed with
  | true =>
    cases started with
    | false => exact hrest.elim
    | true => simpa [Maintenance.due, Maintenance.ticked] using hrest
  | false =>
    by_cases hend : endsAt ≤ now
    · have hnot : ¬now < endsAt := by omega
      cases started with
      | false =>
        obtain rfl : rest = [] := hrest
        by_cases hlt : startsAt < endsAt <;> cases scheduled <;>
          simp [Maintenance.due, Maintenance.ticked, hend, hnot, hlt]
      | true =>
        obtain ⟨rfl, hlt⟩ : rest = [.started] ∧ startsAt < endsAt := hrest
        simp [Maintenance.due, Maintenance.ticked, hend, hlt]
    · cases started with
      | false =>
        obtain rfl : rest = [] := hrest
        by_cases hstart : startsAt ≤ now
        · have hlt : startsAt < endsAt := by omega
          simp [Maintenance.due, Maintenance.ticked, hend, hstart, hlt, Int.not_le.mp hend]
        · simp [Maintenance.due, Maintenance.ticked, hend, hstart]
      | true =>
        obtain ⟨rfl, hlt⟩ : rest = [.started] ∧ startsAt < endsAt := hrest
        simp [Maintenance.due, Maintenance.ticked, hend, hlt]

/-- A window whose start was told is completed by a tick that finds it over. -/
theorem Voiced.due_of_started {m : Maintenance} {l : List MaintenanceChange} {now : ℤ}
    (h : Voiced m l) (hstarted : .started ∈ l) (hopen : m.completedSent = false)
    (hend : m.endsAt ≤ now) : m.due now = [.completed] := by
  obtain ⟨rest, rfl, hrest⟩ := h
  rw [hopen] at hrest
  cases hs : m.startedSent with
  | false =>
    obtain rfl : rest = [] := by simpa [hs] using hrest
    split at hstarted <;> simp at hstarted
  | true =>
    obtain ⟨-, hlt⟩ : rest = [.started] ∧ m.startsAt < m.endsAt := by simpa [hs] using hrest
    simp [Maintenance.due, hs, hopen, hend, hlt]

/-- A window that is not over may be ended, after its start if that was announced. -/
theorem Voiced.ended {m : Maintenance} {l : List MaintenanceChange} {now : ℤ} (h : Voiced m l)
    (hopen : m.completedSent = false) (hlt : m.startedSent = true → m.startsAt < now) :
    Voiced { m with endsAt := now } l := by
  obtain ⟨rest, rfl, hrest⟩ := h
  refine ⟨rest, rfl, ?_⟩
  rw [hopen] at hrest ⊢
  cases hs : m.startedSent with
  | false => simpa [hs] using hrest
  | true =>
    rw [hs] at hrest
    exact ⟨hrest.1, hlt hs⟩

/-- When operations happened. -/
def times (past : List MaintenanceOp) : List ℤ := past.filterMap MaintenanceOp.time

/-- What the subscriber `r` has been told about the window `wid` agrees with its row, and the flags
were set by ticks of the past. -/
structure Voices (r : Subscriber) (wid : ℤ) (past : List MaintenanceOp) (u : Upkeep) : Prop where
  mem : r ∈ u.subs.subscribers.rows
  /-- Nobody has been told about a window that does not exist yet. -/
  unheard : (∀ m ∈ u.windows.rows, m.id ≠ wid) → told u.subs r.id wid = []
  spoken : ∀ m ∈ u.windows.rows, m.id = wid → if u.subs.wants r m.component then
    Voiced m (told u.subs r.id wid) else told u.subs r.id wid = []
  began : ∀ m ∈ u.windows.rows, m.id = wid → m.startedSent = true → m.completedSent = false →
    ∃ t ∈ times past, m.startsAt ≤ t
  ended : ∀ m ∈ u.windows.rows, m.id = wid → m.completedSent = true → ∃ t ∈ times past, m.endsAt ≤ t

theorem mem_times_append {past : List MaintenanceOp} {op : MaintenanceOp} {t : ℤ} :
    t ∈ times (past ++ [op]) ↔ t ∈ times past ∨ op.time = some t := by
  simp [times]

namespace Voices

variable {wo : WindowOrder} {r : Subscriber} {wid now : ℤ} {past : List MaintenanceOp} {u : Upkeep}

/-- Operations that change nothing. -/
theorem stay (h : Voices r wid past u) (op : MaintenanceOp) : Voices r wid (past ++ [op]) u where
  mem := h.mem
  unheard := h.unheard
  spoken := h.spoken
  began m hm hid hs hc := by
    obtain ⟨t, ht, hle⟩ := h.began m hm hid hs hc
    exact ⟨t, mem_times_append.mpr (.inl ht), hle⟩
  ended m hm hid hc := by
    obtain ⟨t, ht, hle⟩ := h.ended m hm hid hc
    exact ⟨t, mem_times_append.mpr (.inl ht), hle⟩

theorem start (h : Voices r wid past u) {cfg : Config} (he : cfg.subscriptions.enabled = true)
    (parse : String → Option ℤ) (form : MaintenanceForm) :
    Voices r wid (past ++ [.start cfg parse form now]) (u.startMaintenance cfg parse form now) := by
  have hstay := h.stay (.start cfg parse form now)
  rcases u.startMaintenance_cases he parse form with ⟨-, hu⟩ | ⟨starts, -, hplans⟩
  · rwa [hu]
  generalize u.startMaintenance cfg parse form now = u' at hplans
  have hold : ∀ m ∈ u.windows.rows, m.id < u.windows.next := u.windows.lt_next
  have htold : told u'.subs r.id wid = _ ++ _ := hplans.tells.told h.mem
  refine ⟨hplans.tells.subscribers ▸ h.mem, fun hnone => ?_, fun m hm hid => ?_,
    fun m hm hid hs hc => ?_, fun m hm hid hc => ?_⟩
  · rw [hplans.rows] at hnone
    have hne : u.windows.next ≠ wid := hnone _ (List.mem_append_right _ List.mem_cons_self)
    rw [htold, h.unheard fun m hm => hnone m (List.mem_append_left _ hm),
      if_neg fun hc => hne hc.1, List.append_nil]
  all_goals
    rw [hplans.rows, List.mem_append, List.mem_singleton] at hm
  · rw [hplans.tells.wants]
    rcases hm with hm | rfl
    · have hne : u.windows.next ≠ wid := by
        have hlt := hold m hm
        omega
      have hsame : told u'.subs r.id wid = told u.subs r.id wid := by
        rw [htold, if_neg fun hc => hne hc.1, List.append_nil]
      rw [hsame]
      exact h.spoken m hm hid
    · obtain rfl : u.windows.next = wid := hid
      rw [htold, h.unheard fun m hm => Int.ne_of_lt (hold m hm), List.nil_append]
      by_cases hw : u.subs.wants r form.component = true
      · rw [if_pos (by exact hw)]
        refine ⟨[], ?_, rfl⟩
        simp [MaintenanceForm.window, hw]
      · rw [if_neg (by exact hw), if_neg fun hc => hw hc.2.2]
  · rcases hm with hm | rfl
    · exact hstay.began m hm hid hs hc
    · exact absurd hs Bool.false_ne_true
  · rcases hm with hm | rfl
    · exact hstay.ended m hm hid hc
    · exact absurd hc Bool.false_ne_true

theorem finish (h : Voices r wid past u) (id : ℤ) (hnow : ∀ t ∈ times past, t ≤ now)
    (hapart : EndsApart u (.finish id now)) :
    Voices r wid (past ++ [.finish id now]) (u.endMaintenance id now) := by
  have hstay := h.stay (.finish id now)
  refine ⟨h.mem, fun hnone => h.unheard fun m hm => ?_, fun m' hm' hid' => ?_,
    fun m' hm' hid' hs hc => ?_, fun m' hm' hid' hc => ?_⟩
  · have hne := hnone _ (Upkeep.rows_endMaintenance id ▸ List.mem_map_of_mem hm)
    split at hne <;> exact hne
  all_goals
    rw [Upkeep.rows_endMaintenance, List.mem_map] at hm'
    obtain ⟨m, hm, rfl⟩ := hm'
  · by_cases hcond : m.id = id ∧ now < m.endsAt
    · rw [if_pos hcond] at hid' ⊢
      have hspoken := h.spoken m hm hid'
      show if u.subs.wants r m.component then Voiced { m with endsAt := now } (told u.subs r.id wid)
        else told u.subs r.id wid = []
      by_cases hw : u.subs.wants r m.component = true
      · rw [if_pos hw] at hspoken ⊢
        have hopen : m.completedSent = false := by
          by_contra hc
          obtain ⟨t, ht, hle⟩ := h.ended m hm hid' (Bool.not_eq_false _ ▸ hc)
          have := hnow t ht
          omega
        refine hspoken.ended hopen fun hs => ?_
        obtain ⟨t, ht, hle⟩ := h.began m hm hid' hs hopen
        have hle' := hnow t ht
        have hne : m.startsAt ≠ now := fun heq => by
          have hfalse := hapart m hm hcond.1 heq hcond.2
          rw [hs] at hfalse
          exact Bool.noConfusion hfalse
        omega
      · rw [if_neg hw] at hspoken ⊢
        exact hspoken
    · rw [if_neg hcond] at hid' ⊢
      exact h.spoken m hm hid'
  · by_cases hcond : m.id = id ∧ now < m.endsAt
    · rw [if_pos hcond] at hid' hs hc ⊢
      exact hstay.began m hm hid' hs hc
    · rw [if_neg hcond] at hid' hs hc ⊢
      exact hstay.began m hm hid' hs hc
  · by_cases hcond : m.id = id ∧ now < m.endsAt
    · rw [if_pos hcond]
      exact ⟨now, mem_times_append.mpr (.inr rfl), Int.le_refl _⟩
    · rw [if_neg hcond] at hid' hc ⊢
      exact hstay.ended m hm hid' hc

theorem tick (h : Voices r wid past u) {cfg : Config} (he : cfg.subscriptions.enabled = true) :
    Voices r wid (past ++ [.tick cfg now]) (u.maintenanceTick wo cfg now) := by
  have hstay := h.stay (.tick cfg now)
  have htells : u.subs.Tells (u.maintenanceTick wo cfg now).subs _ := Upkeep.tells_tick he
  have hrows : ∀ m' ∈ (u.maintenanceTick wo cfg now).windows.rows,
      ∃ m ∈ u.windows.rows, m.ticked now = m' := fun m' hm' => by
    rwa [Upkeep.rows_tick he, List.mem_map] at hm'
  have hnow : now ∈ times (past ++ [.tick cfg now]) := mem_times_append.mpr (.inr rfl)
  refine ⟨htells.subscribers ▸ h.mem, fun hnone => ?_, fun m' hm' hid' => ?_,
    fun m' hm' hid' hs hc => ?_, fun m' hm' hid' hc => ?_⟩
  · have hold : ∀ m ∈ u.windows.rows, m.id ≠ wid := fun m hm =>
      hnone (m.ticked now) (Upkeep.rows_tick he ▸ List.mem_map_of_mem hm)
    rw [htells.told h.mem, Table.find?_eq_none_iff.mpr hold, h.unheard hold]
    rfl
  all_goals
    obtain ⟨m, hm, rfl⟩ := hrows m' hm'
    have hid : m.id = wid := hid'
  · have hspoken := h.spoken m hm hid
    rw [htells.wants, ← hid, Upkeep.told_tick he h.mem hm, hid]
    show if u.subs.wants r m.component then Voiced (m.ticked now) _ else _
    by_cases hw : u.subs.wants r m.component = true
    · rw [if_pos hw] at hspoken ⊢
      simp only [hw, if_true]
      exact hspoken.ticked now
    · rw [if_neg hw] at hspoken ⊢
      simp only [hw]
      simpa using hspoken
  · by_cases hstarted : m.startedSent = true
    · refine hstay.began m hm hid hstarted ?_
      simp only [Maintenance.ticked, Bool.or_eq_false_iff] at hc
      exact hc.1
    · refine ⟨now, hnow, ?_⟩
      simp only [Maintenance.ticked, Bool.or_eq_false_iff, decide_eq_false_iff_not] at hc
      simpa [Maintenance.ticked, hstarted, hc] using hs
  · by_cases hcompleted : m.completedSent = true
    · exact hstay.ended m hm hid hcompleted
    · refine ⟨now, hnow, ?_⟩
      simpa [Maintenance.ticked, hcompleted] using hc

/-- The first tick that finds a started window over completes it. -/
theorem completes (h : Voices r wid past u) {cfg : Config} (he : cfg.subscriptions.enabled = true)
    {m : Maintenance} (hm : m ∈ u.windows.rows) (hid : m.id = wid) (hend : m.endsAt ≤ now)
    (hopen : m.completedSent = false) (hstarted : .started ∈ told u.subs r.id wid) :
    told (u.maintenanceTick wo cfg now).subs r.id wid = told u.subs r.id wid ++ [.completed] := by
  have hspoken := h.spoken m hm hid
  split at hspoken
  · rename_i hw
    rw [← hid, Upkeep.told_tick he h.mem hm, if_pos hw, hid,
      hspoken.due_of_started hstarted hopen hend]
  · rw [hspoken] at hstarted
    exact absurd hstarted List.not_mem_nil

/-- What follows when a window is ended in the second its start was announced in: the next tick
tells that it was cancelled, or nothing when the window had not been announced beforehand. -/
theorem ended_at_once (h : Voices r wid past u) {cfg : Config}
    (he : cfg.subscriptions.enabled = true) (hnow : ∀ t ∈ times past, t ≤ now) {m : Maintenance}
    (hm : m ∈ u.windows.rows) (hid : m.id = wid) (hw : u.subs.wants r m.component = true)
    (hstart : m.startsAt = now) (hend : now < m.endsAt) (hs : m.startedSent = true) {now' : ℤ}
    (hle : now ≤ now') :
    .started ∈ told u.subs r.id wid ∧
      told ((u.endMaintenance wid now).maintenanceTick wo cfg now').subs r.id wid =
        told u.subs r.id wid ++ if m.scheduledSent = true then [.cancelled] else [] := by
  have hopen : m.completedSent = false := by
    by_contra hc
    obtain ⟨t, ht, hle⟩ := h.ended m hm hid (Bool.not_eq_false _ ▸ hc)
    have := hnow t ht
    omega
  constructor
  · have hspoken := h.spoken m hm hid
    rw [if_pos hw] at hspoken
    obtain ⟨rest, hl, hrest⟩ := hspoken
    rw [hs, hopen] at hrest
    rw [hl, hrest.1]
    exact List.mem_append_right _ List.mem_cons_self
  · subst hid
    have hm' : { m with endsAt := now } ∈ (u.endMaintenance m.id now).windows.rows := by
      rw [Upkeep.rows_endMaintenance, List.mem_map]
      exact ⟨m, hm, if_pos ⟨rfl, hend⟩⟩
    have hmem : r ∈ (u.endMaintenance m.id now).subs.subscribers.rows := h.mem
    have htold : told ((u.endMaintenance m.id now).maintenanceTick wo cfg now').subs r.id m.id =
        told u.subs r.id m.id ++
          if u.subs.wants r m.component then ({ m with endsAt := now } : Maintenance).due now'
          else [] := Upkeep.told_tick he hmem hm'
    rw [htold, if_pos hw]
    simp [Maintenance.due, hs, hopen, hstart, hle]

/-- **One operation** keeps the messages in line with the row. -/
theorem step (h : Voices r wid past u) {op : MaintenanceOp} (he : op.Announces)
    (htime : ∀ t ∈ times past, ∀ t' ∈ op.time, t ≤ t') (hapart : EndsApart u op) :
    Voices r wid (past ++ [op]) (op.step wo u) := by
  cases op with
  | start cfg parse form now => exact h.start he parse form
  | finish id now => exact h.finish id (fun t ht => htime t ht now rfl) hapart
  | tick cfg now => exact h.tick he
  | restart => exact h.stay .restart

end Voices

/-! ### Runs -/

section Runs

variable {wo : WindowOrder} {u₀ : Upkeep} {r : Subscriber} {wid : ℤ}

/-- A window made in the run, seen from the run's start: nobody has heard of it. -/
structure Unheard (r : Subscriber) (wid : ℤ) (u₀ : Upkeep) : Prop where
  mem : r ∈ u₀.subs.subscribers.rows
  new : u₀.windows.next ≤ wid
  told : told u₀.subs r.id wid = []

instance (r : Subscriber) (wid : ℤ) (u₀ : Upkeep) : Decidable (Unheard r wid u₀) :=
  decidable_of_iff (r ∈ u₀.subs.subscribers.rows ∧ u₀.windows.next ≤ wid ∧
    told u₀.subs r.id wid = []) ⟨fun h => ⟨h.1, h.2.1, h.2.2⟩, fun h => ⟨h.1, h.2, h.3⟩⟩

theorem Unheard.row_ne (h : Unheard r wid u₀) : ∀ m ∈ u₀.windows.rows, m.id ≠ wid :=
  fun m hm hid => by
    have hlt := u₀.windows.lt_next m hm
    have hnew := h.new
    simp only [id_maintenance] at hlt
    omega

theorem Unheard.voices (h : Unheard r wid u₀) : Voices r wid [] u₀ where
  mem := h.mem
  unheard _ := h.told
  spoken m hm hid := absurd hid (h.row_ne m hm)
  began m hm hid := absurd hid (h.row_ne m hm)
  ended m hm hid := absurd hid (h.row_ne m hm)

/-- The messages agree with the row along the run. -/
theorem voices_run (h₀ : Unheard r wid u₀) (past : List MaintenanceOp)
    (htime : (times past).Pairwise (· ≤ ·)) (he : ∀ op ∈ past, op.Announces)
    (hapart : Always (MaintenanceOp.step wo) EndsApart u₀ past) :
    Voices r wid past (run (MaintenanceOp.step wo) u₀ past) := by
  induction past using List.reverseRecOn with
  | nil => exact h₀.voices
  | append_singleton past op ih =>
    rw [run_append]
    have htimes : times (past ++ [op]) = times past ++ op.time.toList := by
      rw [times, List.filterMap_append]
      cases h : op.time <;> simp [times, h]
    rw [htimes, List.pairwise_append] at htime
    obtain ⟨hpast, hop⟩ := always_append.mp hapart
    refine (ih htime.1 (fun a ha => he a (List.mem_append_left _ ha)) hpast).step
      (he op (List.mem_append_right _ List.mem_cons_self)) (fun t ht t' ht' => ?_) hop.1
    exact htime.2.2 t ht t' (Option.mem_toList.mpr ht')

/-- Without a tick that found the window over, it has not been completed. -/
theorem completedSent_run (h₀ : Unheard r wid u₀) (past : List MaintenanceOp)
    (he : ∀ op ∈ past, op.Announces)
    (hopen : Always (MaintenanceOp.step wo) (fun u op => ¬FindsOver wid u op) u₀ past) :
    ∀ m ∈ (run (MaintenanceOp.step wo) u₀ past).windows.rows, m.id = wid →
      m.completedSent = false := by
  have h : ∀ m ∈ u₀.windows.rows, m.id = wid → m.completedSent = false := fun m hm hid =>
    absurd hid (h₀.row_ne m hm)
  clear h₀
  induction past generalizing u₀ with
  | nil => exact h
  | cons op past ih =>
    refine ih (fun a ha => he a (List.mem_cons_of_mem _ ha)) hopen.2 fun m' hm' hid' => ?_
    have hann := he op List.mem_cons_self
    cases op with
    | start cfg parse form now =>
      rcases u₀.startMaintenance_cases hann parse form with ⟨-, hu⟩ | ⟨starts, -, hplans⟩
      · exact h m' (hu ▸ hm') hid'
      · rw [MaintenanceOp.step, hplans.rows, List.mem_append, List.mem_singleton] at hm'
        rcases hm' with hm' | rfl
        · exact h m' hm' hid'
        · rfl
    | finish id now =>
      rw [MaintenanceOp.step, Upkeep.rows_endMaintenance, List.mem_map] at hm'
      obtain ⟨m, hm, rfl⟩ := hm'
      by_cases hcond : m.id = id ∧ now < m.endsAt
      · rw [if_pos hcond] at hid' ⊢
        exact h m hm hid'
      · rw [if_neg hcond] at hid' ⊢
        exact h m hm hid'
    | tick cfg now =>
      rw [MaintenanceOp.step, Upkeep.rows_tick hann, List.mem_map] at hm'
      obtain ⟨m, hm, rfl⟩ := hm'
      have hend : ¬m.endsAt ≤ now := fun hle => hopen.1 ⟨m, hm, hid', hle⟩
      simp [Maintenance.ticked, h m hm hid', hend]
    | restart => exact h m' hm' hid'

/-- What a subscriber has been told about a window at the end of a run. -/
def toldAfter (wo : WindowOrder) (u₀ : Upkeep) (r : Subscriber) (wid : ℤ)
    (past : List MaintenanceOp) : List MaintenanceChange :=
  told (run (MaintenanceOp.step wo) u₀ past).subs r.id wid

/-- **The messages about a window.** Along a run of operations in the order of their times, with
subscriptions on, in which no window is ended in the second its start was announced in: nothing is
told twice; a cancellation only goes out for a window that was announced and has neither started nor
been completed; and once `started` was told, the first tick that finds the window over tells
`completed`. -/
theorem maintenance_messages (past : List MaintenanceOp) (h₀ : Unheard r wid u₀)
    (htime : (times past).Pairwise (· ≤ ·)) (he : ∀ op ∈ past, op.Announces)
    (hapart : Always (MaintenanceOp.step wo) EndsApart u₀ past) :
    (toldAfter wo u₀ r wid past).Nodup ∧
    (.cancelled ∈ toldAfter wo u₀ r wid past → .scheduled ∈ toldAfter wo u₀ r wid past ∧
      .started ∉ toldAfter wo u₀ r wid past ∧ .completed ∉ toldAfter wo u₀ r wid past) ∧
    ∀ before op, past = before ++ [op] →
      Always (MaintenanceOp.step wo) (fun u op => ¬FindsOver wid u op) u₀ before →
      FindsOver wid (run (MaintenanceOp.step wo) u₀ before) op →
      .started ∈ toldAfter wo u₀ r wid before →
      toldAfter wo u₀ r wid past = toldAfter wo u₀ r wid before ++ [.completed] := by
  have hvoices := voices_run h₀ past htime he hapart
  have hrow : toldAfter wo u₀ r wid past = [] ∨ ∃ m, Voiced m (toldAfter wo u₀ r wid past) := by
    by_cases hex : ∃ m ∈ (run (MaintenanceOp.step wo) u₀ past).windows.rows, m.id = wid
    · obtain ⟨m, hm, hid⟩ := hex
      have hspoken := hvoices.spoken m hm hid
      split at hspoken
      · exact .inr ⟨m, hspoken⟩
      · exact .inl hspoken
    · exact .inl (hvoices.unheard fun m hm hid => hex ⟨m, hm, hid⟩)
  refine ⟨?_, ?_, ?_⟩
  · rcases hrow with hnil | ⟨m, hm⟩
    · rw [hnil]
      exact List.nodup_nil
    · exact hm.nodup
  · intro hc
    rcases hrow with hnil | ⟨m, hm⟩
    · rw [hnil] at hc
      exact absurd hc List.not_mem_nil
    · exact hm.cancelled hc
  · rintro before op rfl hopen hover hstarted
    have hann : ∀ a ∈ before, a.Announces := fun a ha => he a (List.mem_append_left _ ha)
    have hbefore := voices_run h₀ before (List.pairwise_append.mp (by
      rwa [times, List.filterMap_append] at htime)).1 hann (always_append.mp hapart).1
    cases op with
    | start | finish | restart => exact hover.elim
    | tick cfg now =>
      obtain ⟨m, hm, hid, hend⟩ := hover
      rw [toldAfter, run_append]
      exact hbefore.completes (he _ (List.mem_append_right _ List.mem_cons_self)) hm hid hend
        (completedSent_run h₀ before hann hopen m hm hid) hstarted

end Runs

/-- A site with one subscriber and no windows yet. -/
def quietSite : Upkeep := ⟨.empty, listenerSubs⟩

/-- A window of an hour that starts in ten minutes. -/
def upgrade : MaintenanceForm where
  note := "upgrade"
  durationMinutes := 60
  startsInSeconds := some 600

/-- The window is announced, starts, is ended five minutes later and completed. -/
def endedEarly : List MaintenanceOp :=
  [.start sampleConfig (fun _ => none) upgrade 0, .tick sampleConfig 600, .finish 1 900,
    .tick sampleConfig 901]

theorem messages_endedEarly :
    (toldAfter .stable quietSite listener 1 endedEarly).Nodup ∧
    (.cancelled ∈ toldAfter .stable quietSite listener 1 endedEarly →
      .scheduled ∈ toldAfter .stable quietSite listener 1 endedEarly ∧
      .started ∉ toldAfter .stable quietSite listener 1 endedEarly ∧
      .completed ∉ toldAfter .stable quietSite listener 1 endedEarly) ∧
    ∀ before op, endedEarly = before ++ [op] →
      Always (MaintenanceOp.step .stable) (fun u op => ¬FindsOver 1 u op) quietSite before →
      FindsOver 1 (run (MaintenanceOp.step .stable) quietSite before) op →
      .started ∈ toldAfter .stable quietSite listener 1 before →
      toldAfter .stable quietSite listener 1 endedEarly =
        toldAfter .stable quietSite listener 1 before ++ [.completed] :=
  maintenance_messages endedEarly (by decide) (by decide) (by decide) (by decide)

/-- The operator ends the window in the second in which subscribers are told that it started. -/
def endedAtOnce : List MaintenanceOp :=
  [.start sampleConfig (fun _ => none) upgrade 0, .tick sampleConfig 600, .finish 1 600,
    .tick sampleConfig 601]

/-- **A window that has started is called off.** -/
theorem cancelled_after_start :
    (Unheard listener 1 quietSite ∧ (times endedAtOnce).Pairwise (· ≤ ·) ∧
      ∀ op ∈ endedAtOnce, op.Announces) ∧
    toldAfter .stable quietSite listener 1 endedAtOnce = [.scheduled, .started, .cancelled] := by
  decide

end Dunlin

import Dunlin.MaintenanceMessages
import Dunlin.QuietIncidents

/-!
# Who hears of a cancellation

A cancellation is meant for whoever was told that the window was scheduled. The row only remembers
that it was announced, not to whom: the cancellation goes to those who want to hear of the window
now. Between the two, readers confirm, leave and change what they follow.

`cancelled_iff` says exactly when the difference shows: a tick tells the right readers if and only
if the active readers who want to hear of the window are those among them who wanted to when it was
announced (`PlannedFor`).

## Main results

* `queuesTo_scheduled_iff`, `queuesTo_cancelled_iff` — who is told, at planning and at the tick
* `cancelled_iff` — when the two agree on whoever is told, at the end of any run
* `cancelled_unannounced` — a reader who signed up in between hears of it all the same
-/

namespace Dunlin

open Lib

variable (pf : Platform) (cr : Crypto) (wo : WindowOrder)

/-- The operation queues the news `c` about the window `wid` to the subscriber `sid`. -/
def QueuesTo (sid wid : ℤ) (c : MaintenanceChange) (s : Site) (op : SiteOp) : Prop :=
  ∃ o ∈ (op.step pf cr wo s).subs.outbox.rows, s.subs.outbox.next ≤ o.id ∧ o.tells sid wid = some c

instance (sid wid : ℤ) (c : MaintenanceChange) (s : Site) (op : SiteOp) :
    Decidable (QueuesTo pf cr wo sid wid c s op) :=
  inferInstanceAs (Decidable (∃ o ∈ _, _ ∧ _))

/-- The operation plans the window `wid` for later while the subscriber `sid` wants to hear of
it. -/
def PlannedFor (sid wid : ℤ) (s : Site) : SiteOp → Prop
  | .maintenance (.start _ parse form now) => s.windows.next = wid ∧
      (∃ starts, form.starts parse now = some starts ∧ now < starts) ∧
      ∃ r ∈ s.subs.subscribers.rows, r.id = sid ∧ s.subs.wants r form.component = true
  | _ => False

/-- Subscriptions are on when maintenance reads the config. -/
def SiteOp.Announces : SiteOp → Prop
  | .maintenance op => op.Announces
  | _ => True

instance : DecidablePred SiteOp.Announces
  | .maintenance op => inferInstanceAs (Decidable op.Announces)
  | .incidents _ | .subscriptions _ _ => isTrue trivial

/-- A tick finds the window called off: announced, and over before it began. -/
structure Maintenance.CalledOff (now : ℤ) (m : Maintenance) : Prop where
  uncompleted : m.completedSent = false
  ended : m.endsAt ≤ now
  early : m.endsAt ≤ m.startsAt
  scheduled : m.scheduledSent = true

theorem mem_due_cancelled {now : ℤ} {m : Maintenance} (h : m.CalledOff now) :
    .cancelled ∈ m.due now := by
  have hlt : ¬m.startsAt < m.endsAt := Int.not_lt.mpr h.early
  simp [Maintenance.due, h.uncompleted, h.ended, h.scheduled, hlt]

/-- No tick announces a window. -/
theorem scheduled_notMem_due (now : ℤ) (m : Maintenance) : .scheduled ∉ m.due now := by
  rw [Maintenance.due]
  intro hmem
  rcases List.mem_append.mp hmem with hmem | hmem
  · split at hmem <;> simp at hmem
  · split at hmem
    · split at hmem
      · simp at hmem
      · split at hmem <;> simp at hmem
    · simp at hmem

/-- A message about an incident tells nothing about windows. -/
theorem tells_of_change {o : OutboxRow} {x : ℤ × IncidentChange} (h : o.change = some x)
    (sid wid : ℤ) : o.tells sid wid = none := by
  unfold OutboxRow.tells
  unfold OutboxRow.change at h
  cases hp : o.payload with
  | braces => simp [hp] at h
  | json event =>
    rw [hp] at h
    cases event <;>
      simp [SubscriberEvent.change, SubscriberEvent.announces,
        SubscriberEvent.maintenanceChange] at h ⊢

section Queues

variable {pf cr wo} {s : Site} {sid wid now : ℤ} {c : MaintenanceChange}

/-- An operation whose messages are old ones, or none about windows. -/
theorem not_queuesTo {op : SiteOp}
    (h : ∀ o ∈ (op.step pf cr wo s).subs.outbox.rows,
      o.id < s.subs.outbox.next ∨ o.tells sid wid = none) : ¬QueuesTo pf cr wo sid wid c s op := by
  rintro ⟨o, ho, hid, htells⟩
  rcases h o ho with hold | hnone
  · omega
  · rw [hnone] at htells
    cases htells

theorem not_queuesTo_incidents (op : Op) : ¬QueuesTo pf cr wo sid wid c s (.incidents op) := by
  refine not_queuesTo fun o ho => ?_
  rcases speaks_step pf s.world op o ho with hold | ⟨id, change, hchange, -⟩
  · exact .inl (s.subs.outbox.lt_next o hold)
  · exact .inr (tells_of_change hchange sid wid)

theorem not_queuesTo_subscriptions (op : SubsOp) (hop : op.publishes = false) :
    ¬QueuesTo pf cr wo sid wid c s (.subscriptions op hop) := by
  refine not_queuesTo fun o ho => ?_
  by_cases hround : ∃ ρ, op = .dispatch ρ
  · obtain ⟨ρ, rfl⟩ := hround
    obtain ⟨o₀, ho₀, hmoves⟩ := SubsOp.roundMoves_run ho
    exact .inl (hmoves.id ▸ s.subs.outbox.lt_next o₀ ho₀)
  · rcases SubsOp.outbox_step (fun ρ hρ => hround ⟨ρ, hρ⟩) ho with hold | ⟨-, hfresh⟩
    · exact .inl (s.subs.outbox.lt_next o hold)
    · rcases hfresh with ⟨-, -, now, sid', -, hq⟩ | ⟨r, -, -, cfg, event, now, rfl, -⟩
      · refine .inr ?_
        rw [hq, OutboxRow.tells]
        split <;> rfl
      · exact Bool.noConfusion hop

/-- What an operation on the windows queues is read off from whom it tells what. -/
theorem queuesTo_maintenance_iff (op : MaintenanceOp) {f : Subscriber → ℤ → List MaintenanceChange}
    (h : s.upkeep.subs.Tells (op.step wo s.upkeep).subs f) :
    QueuesTo pf cr wo sid wid c s (.maintenance op) ↔
      ∃ r ∈ s.upkeep.subs.subscribers.rows, r.id = sid ∧ c ∈ f r wid :=
  h.exists_added_iff

/-- **Who is told that a window is scheduled**: who wants to hear of it when it is planned. -/
theorem queuesTo_scheduled_iff {op : SiteOp} (he : op.Announces) :
    QueuesTo pf cr wo sid wid .scheduled s op ↔ PlannedFor sid wid s op := by
  cases op with
  | incidents op => exact iff_of_false (not_queuesTo_incidents op) id
  | subscriptions op hop => exact iff_of_false (not_queuesTo_subscriptions op hop) id
  | maintenance op =>
    cases op with
    | start cfg parse form now =>
      rcases s.upkeep.startMaintenance_cases he parse form with ⟨hnone, hu⟩ | ⟨starts, hs, hplans⟩
      · refine iff_of_false (not_queuesTo fun o ho => .inl ?_) fun h => ?_
        · have hsame : (SiteOp.step pf cr wo s (.maintenance (.start cfg parse form now))).subs =
            s.subs := congrArg Upkeep.subs hu
          rw [hsame] at ho
          exact s.subs.outbox.lt_next o ho
        · obtain ⟨-, ⟨starts, hs, -⟩, -⟩ := h
          rw [hnone] at hs
          cases hs
      · refine (queuesTo_maintenance_iff (.start cfg parse form now) hplans.tells).trans ?_
        have hif : ∀ {r : Subscriber}, MaintenanceChange.scheduled ∈
            (if s.upkeep.windows.next = wid ∧ now < starts ∧
              s.upkeep.subs.wants r form.component = true then [MaintenanceChange.scheduled]
            else []) ↔ s.windows.next = wid ∧ now < starts ∧
              s.subs.wants r form.component = true := by
          intro r
          split
          · exact iff_of_true List.mem_cons_self ‹_›
          · exact iff_of_false List.not_mem_nil ‹_›
        constructor
        · rintro ⟨r, hr, hrid, hmem⟩
          obtain ⟨hnext, hlater, hw⟩ := hif.mp hmem
          exact ⟨hnext, ⟨starts, hs, hlater⟩, r, hr, hrid, hw⟩
        · rintro ⟨hnext, ⟨starts', hs', hlater⟩, r, hr, hrid, hw⟩
          obtain rfl : starts = starts' := Option.some.inj (hs.symm.trans hs')
          exact ⟨r, hr, hrid, hif.mpr ⟨hnext, hlater, hw⟩⟩
    | finish id now =>
      exact iff_of_false (not_queuesTo fun o ho => .inl (s.subs.outbox.lt_next o ho)) fun h => h
    | tick cfg now =>
      refine iff_of_false (fun h => ?_) id
      obtain ⟨r, hr, hrid, hmem⟩ :=
        (queuesTo_maintenance_iff (.tick cfg now) (Upkeep.tells_tick he)).mp h
      split at hmem
      · split at hmem
        · exact scheduled_notMem_due now _ hmem
        · exact List.not_mem_nil hmem
      · exact List.not_mem_nil hmem
    | restart =>
      exact iff_of_false (not_queuesTo fun o ho => .inl (s.subs.outbox.lt_next o ho)) fun h => h

/-- **Who is told that a window is cancelled**: who wants to hear of it when a tick finds it called
off. -/
theorem queuesTo_cancelled_iff {cfg : Config} (he : cfg.subscriptions.enabled = true)
    {m : Maintenance} (hm : m ∈ s.windows.rows) (hoff : m.CalledOff now) {r : Subscriber}
    (hr : r ∈ s.subs.subscribers.rows) :
    QueuesTo pf cr wo r.id m.id .cancelled s (.maintenance (.tick cfg now)) ↔
      s.subs.wants r m.component = true := by
  have hfind : s.upkeep.windows.find? m.id = some m := Table.find?_eq_some_iff.mpr ⟨hm, rfl⟩
  refine (queuesTo_maintenance_iff (.tick cfg now) (Upkeep.tells_tick he)).trans ?_
  rw [hfind]
  constructor
  · rintro ⟨r', hr', hid, hmem⟩
    obtain rfl : r' = r := Table.eq_of_id hr' hr hid
    dsimp only at hmem
    split at hmem
    · assumption
    · exact absurd hmem List.not_mem_nil
  · intro hw
    refine ⟨r, hr, rfl, ?_⟩
    have hw' : s.upkeep.subs.wants r m.component = true := hw
    dsimp only
    rw [if_pos hw']
    exact mem_due_cancelled hoff

variable (pf cr wo)

/-- The subscriber `sid` has been queued the announcement of the window `wid`. -/
def ToldScheduled (sid wid : ℤ) (s : Site) (past : List SiteOp) : Prop :=
  Since (SiteOp.step pf cr wo) (QueuesTo pf cr wo sid wid .scheduled) (fun _ _ => False) s past

instance (sid wid : ℤ) (s : Site) (past : List SiteOp) :
    Decidable (ToldScheduled pf cr wo sid wid s past) :=
  inferInstanceAs (Decidable (Since ..))

/-- The subscriber `sid` wanted to hear of the window `wid` when it was planned for later. -/
def WantedScheduled (sid wid : ℤ) (s : Site) (past : List SiteOp) : Prop :=
  Since (SiteOp.step pf cr wo) (PlannedFor sid wid) (fun _ _ => False) s past

/-- **Who hears of a cancellation.** When a tick finds a window called off, at the end of any run
with subscriptions on, it tells exactly those active subscribers who were told that the window was
scheduled if and only if the active subscribers who want to hear of the window now are those who
wanted to when it was announced. -/
theorem cancelled_iff (s₀ : Site) (past : List SiteOp)
    (he : Always (SiteOp.step pf cr wo) (fun _ op => op.Announces) s₀ past) {cfg : Config}
    (hcfg : cfg.subscriptions.enabled = true) {m : Maintenance}
    (hm : m ∈ (run (SiteOp.step pf cr wo) s₀ past).windows.rows) (hoff : m.CalledOff now) :
    (∀ r ∈ (run (SiteOp.step pf cr wo) s₀ past).subs.subscribers.rows, r.status = .active →
      (QueuesTo pf cr wo r.id m.id .cancelled (run (SiteOp.step pf cr wo) s₀ past)
          (.maintenance (.tick cfg now)) ↔
        ToldScheduled pf cr wo r.id m.id s₀ past)) ↔
    ∀ r ∈ (run (SiteOp.step pf cr wo) s₀ past).subs.subscribers.rows, r.status = .active →
      ((run (SiteOp.step pf cr wo) s₀ past).subs.wants r m.component = true ↔
        WantedScheduled pf cr wo r.id m.id s₀ past) := by
  refine forall_congr' fun r => forall_congr' fun hr => forall_congr' fun _ => ?_
  rw [queuesTo_cancelled_iff hcfg hm hoff hr]
  refine iff_congr Iff.rfl ?_
  exact Since.congr he fun s op hop => queuesTo_scheduled_iff hop

end Queues

/-- The window is called off before its time. -/
def calledOff : List SiteOp := [.maintenance (.finish 1 20)]

/-- The window is planned in front of a reader. -/
def plannedLast : List SiteOp :=
  joined ++ [.maintenance (.start quickConfig (fun _ => none) upgrade 15)] ++ calledOff

/-- The reader joins when the window has been announced. -/
def plannedFirst : List SiteOp :=
  [.maintenance (.start quickConfig (fun _ => none) upgrade 0)] ++ joined ++ calledOff

theorem cancelled_plannedLast :
    Maintenance.CalledOff 30 { Upkeep.newWindow "" "upgrade" 615 20 15 1 with
      scheduledSent := true } ∧
    ∀ r ∈ (run (SiteOp.step .ascii sampleCrypto .stable) (.initial quickConfig)
        plannedLast).subs.subscribers.rows, r.status = .active →
      ((run (SiteOp.step .ascii sampleCrypto .stable) (.initial quickConfig)
          plannedLast).subs.wants r "" = true ↔
        WantedScheduled .ascii sampleCrypto .stable r.id 1 (.initial quickConfig) plannedLast) :=
  have hoff : Maintenance.CalledOff 30
      { Upkeep.newWindow "" "upgrade" 615 20 15 1 with scheduledSent := true } :=
    ⟨rfl, by decide, by decide, rfl⟩
  have hcfg : quickConfig.subscriptions.enabled = true := rfl
  ⟨hoff, (cancelled_iff .ascii sampleCrypto .stable (.initial quickConfig) plannedLast (by decide)
    hcfg (by decide) hoff).mp (by decide)⟩

/-- **A reader who was never told of the window hears that it is cancelled.** -/
theorem cancelled_unannounced :
    Always (SiteOp.step .ascii sampleCrypto .stable) (fun _ op => op.Announces)
      (.initial quickConfig) plannedFirst ∧
    (∃ r ∈ (run (SiteOp.step .ascii sampleCrypto .stable) (.initial quickConfig)
        plannedFirst).subs.subscribers.rows, r.id = 1 ∧ r.status = .active) ∧
    QueuesTo .ascii sampleCrypto .stable 1 1 .cancelled
      (run (SiteOp.step .ascii sampleCrypto .stable) (.initial quickConfig) plannedFirst)
      (.maintenance (.tick quickConfig 30)) ∧
    ¬ToldScheduled .ascii sampleCrypto .stable 1 1 (.initial quickConfig) plannedFirst := by
  decide

end Dunlin

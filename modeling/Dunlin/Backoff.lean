import Dunlin.SubscriptionRun
import Dunlin.TimedRounds

/-!
# Retries and the clock

A send that fails is put off, and how long is worked out from the clock as it was when the round
began, not when the send failed. A round of slow sends lasts longer than the shortest delay, so a
message may be tried again long before its delay has passed since it failed, even at once. And a
send whose outcome cannot be written down is not put off at all: the statement that fails ends the
round, and the next one finds the message due.

What the dispatcher keeps to in every run is the delay after that reading, for the failures it has
recorded (`waits_readingOver`). The delay after the failure (`Sent.backoffOver`) is kept in runs
whose turns are `Punctual`.

## When a turn is punctual

Take the last send of a message, which failed at `t` in a round that had read the clock as `n`, and
the delay it is to wait for. A turn that begins before `n` and the delay have passed does not find
the message due; one that begins when `t` and the delay have passed may send it. `Sent.Spares` says
that the turn begins at one of these times, and not in the stretch between them. A failure that was
not recorded has no first part: a turn spares it only by beginning late enough. The condition is
about when sends ended, what the clock read and when turns begin, and about which statements failed.
It does not look at what the dispatcher has stored.

## The invariant

Both results come from one invariant, over any instant that a send may ask its retry to wait for
(`Backing`). A message's stored `next_attempt_at` says what the last send of it asked for, if that
was recorded, and only a round's own row changes it.

## Main results

* `Backing.turn` — a turn keeps the invariant if its messages waited for what they asked for
* `waits_readingOver` — the delay after the reading of the clock, in every run
* `backoff_honoured` — the delay after the failure, in every run of punctual turns
* `backoff_cut_short` — a run with a turn that is not punctual
-/

namespace Dunlin

open Lib

/-- How often the dispatcher looks for due messages. -/
def poll : Duration := .fromSecs 5

/-- One turn of `dispatcher_loop`. -/
structure Turn where
  cfg : Config
  names : List Channel
  candidate : String
  times : ℤ → RowTimes
  /-- The statements in front of the rows that fail. -/
  opening : List Bool := []
  /-- The time since the last turn ended. -/
  pause : ℕ
  poll_le : poll.nanos ≤ pause := by decide
  /-- How long the maintenance check takes that comes before the messages. -/
  tick : ℕ := 0

/-- `now_ts`. -/
def nowTs (clock : ℕ) : ℤ := clock / 1000000000

/-- When a turn reads the clock. -/
def Turn.begun (x : Timed) (ρ : Turn) : ℕ := x.clock + ρ.pause

/-- What it reads. -/
def Turn.now (x : Timed) (ρ : Turn) : ℤ := nowTs (ρ.begun x)

/-- What happens to the outbox: turns of the loop and, between them, everything but rounds. -/
inductive LoopOp
  | turn (ρ : Turn)
  | other (op : SubsOp) (h : ∀ ρ, op ≠ .dispatch ρ)

/-- One operation. -/
def LoopOp.step (cr : Crypto) (pacing : Channel → Pacing) (x : Timed) : LoopOp → Timed
  | .turn ρ =>
    timedDue cr pacing ρ.cfg ρ.names ρ.candidate (ρ.now x) ρ.times ρ.opening
      { x with clock := ρ.begun x + ρ.tick }
  | .other op _ => { x with d := op.step cr x.d }

/-! ### What a send asks for -/

/-- How long a failed send puts its message off, if it is to be tried again. -/
def Sent.backoff (e : Sent) : Option ℤ :=
  e.result.error.bind fun (failure, _) =>
    if failure = .gone ∨ failure = .permanent ∨ maxAttempts ≤ e.attempt then none
    else some (max (retryDelay e.attempt) failure.wait)

/-- The end of the delay after the failure. -/
def Sent.backoffOver (e : Sent) : Option ℤ :=
  e.backoff.map fun delay => e.endAt + delay * 1000000000

/-- The end of the delay after the round's reading of the clock, if the failure was recorded. -/
def Sent.readingOver (e : Sent) : Option ℤ :=
  if e.recorded then e.backoff.map fun delay => (e.readAt + delay) * 1000000000 else none

/-- A later send of the same message waits for what an earlier one asked for. -/
def Sent.Waits (ends : Sent → Option ℤ) (a b : Sent) : Prop :=
  b.outboxId = a.outboxId → ∀ t ∈ ends a, t ≤ b.startAt

/-- The last send of a message. -/
def lastSent (sends : List Sent) (id : ℤ) : Option Sent := sends.reverse.find? (·.outboxId == id)

/-- A turn that begins at `begun` does not cut the delay after the failure short: it begins before
the delay is over even counted from the reading of the clock, which only a recorded failure has, or
when it is over counted from the failure. -/
def Sent.Spares (e : Sent) (begun : ℕ) : Prop :=
  ∀ delay ∈ e.backoff, e.recorded = true ∧ nowTs begun < e.readAt + delay ∨
    e.endAt + delay * 1000000000 ≤ begun

/-- The turn spares the last send of each message that it could take up. -/
def Turn.Punctual (x : Timed) (ρ : Turn) : Prop :=
  ∀ o ∈ x.d.subs.outbox.rows, o.waiting = true →
    ∀ r ∈ x.d.subs.subscribers.rows, r.id = o.subscriberId →
      (r.status = .pending ∨ r.status = .active) → ρ.names.contains r.channel = true →
        ∀ e ∈ lastSent x.sends o.id, e.Spares (ρ.begun x)

/-- The turns of a run are punctual. -/
def LoopOp.Punctual (x : Timed) : LoopOp → Prop
  | .turn ρ => ρ.Punctual x
  | .other _ _ => True

/-! ### The invariant -/

/-- Sends wait for one another, and the outbox knows what the last send of a message asked for. -/
structure Backing (ends : Sent → Option ℤ) (x : Timed) : Prop where
  waits : x.sends.Pairwise (Sent.Waits ends)
  times : ∀ e ∈ x.sends, e.startAt ≤ e.endAt ∧ e.endAt ≤ x.clock
  known : ∀ e ∈ x.sends, e.outboxId < x.d.subs.outbox.next
  stored : ∀ o ∈ x.d.subs.outbox.rows, ∀ e ∈ lastSent x.sends o.id, e.recorded = true →
    ∀ delay ∈ e.backoff, o.nextAttemptAt = e.readAt + delay

/-- The invariant within a round that began at `begun`: what the rows to come have asked for is
over. -/
structure InTurn (ends : Sent → Option ℤ) (begun : ℕ) (rows : List DueRow) (x : Timed) : Prop
    extends Backing ends x where
  begun_le : begun ≤ x.clock
  sorted : rows.Pairwise fun a b => a.id < b.id
  queued : ∀ row ∈ rows, row.id < x.d.subs.outbox.next
  rested : ∀ row ∈ rows, ∀ a ∈ x.sends, a.outboxId = row.id → ∀ t ∈ ends a, t ≤ begun

section Invariant

variable {cr : Crypto} {pacing : Channel → Pacing} {cfg : Config} {key : String} {now : ℤ}
  {times : ℤ → RowTimes} {row : DueRow} {rows : List DueRow} {τ : RowTimes} {x : Timed}
  {ends : Sent → Option ℤ} {begun : ℕ} {sends : List Sent} {e : Sent} {id : ℤ} {m : Message}

theorem lastSent_append (sends : List Sent) (e : Sent) (id : ℤ) :
    lastSent (sends ++ [e]) id = if e.outboxId = id then some e else lastSent sends id := by
  unfold lastSent
  rw [List.reverse_append, List.reverse_singleton, List.singleton_append, List.find?_cons]
  by_cases h : e.outboxId = id
  · rw [if_pos h, beq_iff_eq.mpr h]
  · rw [if_neg h, beq_eq_false_iff_ne.mpr h]

theorem mem_of_lastSent (h : e ∈ lastSent sends id) : e ∈ sends ∧ e.outboxId = id :=
  ⟨List.mem_reverse.mp (List.mem_of_find?_eq_some h), by simpa using List.find?_some h⟩

/-- A message that was sent has a last send, and the others came before it. -/
theorem exists_lastSent {R : Sent → Sent → Prop} (hR : sends.Pairwise R) {a : Sent}
    (ha : a ∈ sends) : ∃ e ∈ lastSent sends a.outboxId, a = e ∨ R a e := by
  induction sends using List.reverseRecOn with
  | nil => exact absurd ha List.not_mem_nil
  | append_singleton sends b ih =>
    obtain ⟨hsends, -, hb⟩ := List.pairwise_append.mp hR
    rw [lastSent_append]
    by_cases hid : b.outboxId = a.outboxId
    · rw [if_pos hid]
      refine ⟨b, rfl, ?_⟩
      rcases List.mem_append.mp ha with ha | ha
      · exact .inr (hb a ha b List.mem_cons_self)
      · exact .inl (List.mem_singleton.mp ha)
    · rw [if_neg hid]
      rcases List.mem_append.mp ha with ha | ha
      · exact ih hsends ha
      · exact absurd (congrArg Sent.outboxId (List.mem_singleton.mp ha)).symm hid

/-- What leaves the sends and the stored times alone keeps the invariant. -/
theorem Backing.later {x' : Timed} (h : Backing ends x) (hsends : x'.sends = x.sends)
    (hclock : x.clock ≤ x'.clock) (hnext : x.d.subs.outbox.next ≤ x'.d.subs.outbox.next)
    (hrows : ∀ o' ∈ x'.d.subs.outbox.rows, x.d.subs.outbox.next ≤ o'.id ∨
      ∃ o ∈ x.d.subs.outbox.rows, o.id = o'.id ∧ o.nextAttemptAt = o'.nextAttemptAt) :
    Backing ends x' := by
  refine ⟨?_, fun e he => ?_, fun e he => ?_, fun o' ho' e he hrec delay hdelay => ?_⟩
  · rw [hsends]
    exact h.waits
  · rw [hsends] at he
    exact ⟨(h.times e he).1, Nat.le_trans (h.times e he).2 hclock⟩
  · rw [hsends] at he
    exact Int.lt_of_lt_of_le (h.known e he) hnext
  · rw [hsends] at he
    rcases hrows o' ho' with hfresh | ⟨o, ho, hid, hstored⟩
    · obtain ⟨hmem, hid⟩ := mem_of_lastSent he
      exact absurd (h.known e hmem) (Int.not_lt.mpr (hid ▸ hfresh))
    · rw [← hstored]
      exact h.stored o ho e (hid ▸ he) hrec delay hdelay

/-- The time stored for a message when its send failed. -/
theorem nextAttemptAt_attempted {attempts delay : ℤ} {result : SendResult} {o : OutboxRow}
    (he : e.attempt = attempts) (hresult : e.result = result) (h : delay ∈ e.backoff) :
    (o.attempted now attempts result).nextAttemptAt = now + delay := by
  subst he hresult
  unfold Sent.backoff at h
  unfold OutboxRow.attempted
  cases herr : e.result.error with
  | none => simp [herr] at h
  | some error =>
    obtain ⟨failure, text⟩ := error
    simp only [herr, Option.bind_some, Option.mem_def] at h
    split at h
    · cases h
    · rename_i hretry
      obtain ⟨-, hpermanent, hattempts⟩ : failure ≠ .gone ∧ failure ≠ .permanent ∧
        ¬maxAttempts ≤ e.attempt := by simpa [not_or] using hretry
      have hnot : ¬(failure = .permanent ∨ e.attempt ≥ maxAttempts) :=
        fun h => h.elim hpermanent hattempts
      dsimp only
      rw [if_neg hnot, ← Option.some.inj h]

/-- A send that fails for good asks for nothing. -/
theorem isGone_eq_false {delay : ℤ} (h : delay ∈ e.backoff) : e.result.isGone = false := by
  unfold Sent.backoff at h
  unfold SendResult.isGone
  cases herr : e.result.error with
  | none => rfl
  | some error =>
    obtain ⟨failure, text⟩ := error
    simp only [herr, Option.bind_some, Option.mem_def] at h
    split at h
    · cases h
    · rename_i hretry
      simpa using fun hgone => hretry (.inl hgone)

/-- What the outbox stores of the send of a row that is handed over, if it was recorded. -/
theorem Backing.stored_sentOf (h : Backing ends x) {o' : OutboxRow}
    (ho' : o' ∈ (τ.recordingOf pacing cfg now row m x).state.subs.outbox.rows) {a : Sent}
    (ha : a ∈ lastSent (x.sends ++ [τ.sentOf pacing cfg now row m x]) o'.id)
    (hrec : a.recorded = true) {delay : ℤ} (hdelay : delay ∈ a.backoff) :
    o'.nextAttemptAt = a.readAt + delay := by
  have hrecorded : Recorded now row τ.result
      (x.d.handed cfg row m (τ.env pacing row x.d.pacer (x.clock + τ.lead))) _ _ :=
    recorded_recordingOf
  rw [lastSent_append] at ha
  by_cases hid : o'.id = row.id
  · rw [if_pos (show (τ.sentOf pacing cfg now row m x).outboxId = _ from hid.symm)] at ha
    obtain rfl := Option.some.inj ha
    obtain ⟨u, hok⟩ := Option.isSome_iff_exists.mp hrec
    rcases hrecorded.attempted hok o' ho' hid with hgone | ⟨o, -, rfl⟩
    · have hnot : τ.result.isGone = false := isGone_eq_false hdelay
      exact absurd (hgone.symm.trans hnot) (by decide)
    · exact nextAttemptAt_attempted rfl rfl hdelay
  · rw [if_neg (show ¬(τ.sentOf pacing cfg now row m x).outboxId = _ from Ne.symm hid)] at ha
    obtain ⟨o, ho, hmoves, rfl | hown⟩ := hrecorded.moves.outbox o' ho'
    · exact h.stored o ho a ha hrec delay hdelay
    · exact absurd (hmoves.id.trans hown) hid

/-- A row that is handed over waits for what its message asked for, and the outbox stores what it
asks for now. -/
theorem InTurn.handed (h : InTurn ends begun (row :: rows) x)
    (hm : timedHanding cr pacing cfg key now row τ x = some m) :
    InTurn ends begun rows (timedRow cr pacing cfg key now row τ x).1 := by
  obtain ⟨hrow, hsorted⟩ := List.pairwise_cons.mp h.sorted
  have hstart : x.clock + τ.lead ≤ (τ.sentOf pacing cfg now row m x).startAt := le_startAt_sentOf
  have hend : (τ.sentOf pacing cfg now row m x).endAt =
    (τ.sentOf pacing cfg now row m x).startAt + τ.send := endAt_sentOf
  have hnext : (τ.recordingOf pacing cfg now row m x).state.subs.outbox.next =
    x.d.subs.outbox.next := recorded_recordingOf.moves.next
  have hbegun := h.begun_le
  have hmem : ∀ a, a ∈ x.sends ++ [τ.sentOf pacing cfg now row m x] ↔
      a ∈ x.sends ∨ a = τ.sentOf pacing cfg now row m x := fun a => by
    rw [List.mem_append, List.mem_singleton]
  rw [timedRow_of_handing hm]
  refine ⟨⟨?_, fun a ha => ?_, fun a ha => ?_, fun o' ho' a ha hrec delay hdelay =>
    h.stored_sentOf ho' ha hrec hdelay⟩, ?_, hsorted, fun row' hrow' => ?_,
    fun row' hrow' a ha hid => ?_⟩
  · refine List.pairwise_append.mpr ⟨h.waits, List.pairwise_singleton _ _, fun a ha b hb => ?_⟩
    rw [List.mem_singleton.mp hb]
    intro hid t ht
    have hrested := h.rested row List.mem_cons_self a ha hid.symm t ht
    omega
  · rcases (hmem a).mp ha with ha | rfl
    · have htimes := h.times a ha
      dsimp only
      omega
    · dsimp only
      omega
  · dsimp only
    rw [hnext]
    rcases (hmem a).mp ha with ha | rfl
    · exact h.known a ha
    · exact h.queued row List.mem_cons_self
  · dsimp only
    omega
  · dsimp only
    rw [hnext]
    exact h.queued row' (List.mem_cons_of_mem _ hrow')
  · rcases (hmem a).mp ha with ha | rfl
    · exact h.rested row' (List.mem_cons_of_mem _ hrow') a ha hid
    · exact absurd hid (Int.ne_of_lt (hrow row' hrow'))

/-- **One row of a turn** waits for what its message asked for. -/
theorem InTurn.timedRow (h : InTurn ends begun (row :: rows) x) :
    InTurn ends begun rows (timedRow cr pacing cfg key now row τ x).1 := by
  have hsorted := (List.pairwise_cons.mp h.sorted).2
  have htail : ∀ row' ∈ rows, row' ∈ row :: rows := fun _ => List.mem_cons_of_mem _
  cases hm : timedHanding cr pacing cfg key now row τ x with
  | none =>
    obtain ⟨d, hx, -, hsubs⟩ := exists_timedRow hm
    have hnext : d.subs.outbox.next = x.d.subs.outbox.next := by
      rcases hsubs with hsubs | ⟨error, hsubs⟩ <;> rw [hsubs]
      rfl
    rw [hx]
    refine ⟨h.later rfl (Nat.le_add_right _ _) (Int.le_of_eq hnext.symm) fun o' ho' => .inr ?_,
      Nat.le_trans h.begun_le (Nat.le_add_right _ _), hsorted,
      fun row' hrow' => hnext ▸ h.queued row' (htail row' hrow'),
      fun row' hrow' => h.rested row' (htail row' hrow')⟩
    rcases hsubs with hsubs | ⟨error, hsubs⟩ <;> dsimp only at ho' <;> rw [hsubs] at ho'
    · exact ⟨o', ho', rfl, rfl⟩
    · obtain ⟨o, ho, rfl⟩ := Subs.mem_updateOutbox.mp ho'
      refine ⟨o, ho, ?_⟩
      split <;> exact ⟨rfl, rfl⟩
  | some m => exact h.handed hm

/-- What a message asked for is over when its last send's is. -/
theorem Backing.rested (h : Backing ends x) (hclock : x.clock ≤ begun)
    (hlast : ∀ e ∈ lastSent x.sends id, ∀ t ∈ ends e, t ≤ begun) :
    ∀ a ∈ x.sends, a.outboxId = id → ∀ t ∈ ends a, t ≤ begun := by
  rintro a ha rfl t ht
  obtain ⟨e, he, hae⟩ := exists_lastSent h.waits ha
  rcases hae with rfl | hwaits
  · exact hlast a he t ht
  · obtain ⟨hmem, hid⟩ := mem_of_lastSent he
    have hbefore := hwaits hid t ht
    have htimes := h.times e hmem
    omega

/-- **A turn keeps the invariant**, if what the messages it finds due asked for last is over. -/
theorem Backing.turn (h : Backing ends x) {ρ : Turn}
    (hclear : ∀ row ∈ x.d.subs.dueRows ρ.names (ρ.now x), ∀ e ∈ lastSent x.sends row.id,
      ∀ t ∈ ends e, t ≤ ρ.begun x) :
    Backing ends (LoopOp.step cr pacing x (.turn ρ)) := by
  have hbegun : x.clock ≤ ρ.begun x := Nat.le_add_right _ _
  have hstart : ∀ d : Dispatcher, d.subs.outbox = x.d.subs.outbox →
      Backing ends { x with d := d, clock := ρ.begun x + ρ.tick } := fun d hd =>
    h.later rfl (Nat.le_trans hbegun (Nat.le_add_right _ _)) (by rw [hd]) fun o ho =>
      .inr ⟨o, hd ▸ ho, rfl, rfl⟩
  unfold LoopOp.step
  dsimp only
  obtain ⟨d, -, -, hout, hx | ⟨key, hx⟩⟩ :=
      timedDue_cases cr pacing ρ.cfg ρ.names ρ.candidate (ρ.now x) ρ.times ρ.opening
        { x with clock := ρ.begun x + ρ.tick } <;> rw [hx]
  · exact hstart d hout
  · have hin : InTurn ends (ρ.begun x) (x.d.subs.dueRows ρ.names (ρ.now x))
        { x with d := d, clock := ρ.begun x + ρ.tick } := by
      refine ⟨hstart d hout, Nat.le_add_right _ _, sorted_dueRows, fun row hrow => ?_,
        fun row hrow => h.rested hbegun (hclear row hrow)⟩
      obtain ⟨o, ho, r, -, -, rfl, -⟩ := mem_dueRows hrow
      show o.id < d.subs.outbox.next
      rw [hout]
      exact x.d.subs.outbox.lt_next o ho
    obtain ⟨rows', hrun⟩ := timedRows_inv (fun _ _ _ hrow => hrow.timedRow) hin
    exact hrun.toBacking

/-- Nothing but a turn sends anything or changes a message. -/
theorem Backing.other (h : Backing ends x) {op : SubsOp} (hop : ∀ ρ, op ≠ .dispatch ρ) :
    Backing ends (LoopOp.step cr pacing x (.other op hop)) := by
  refine h.later rfl (Nat.le_refl _) SubsOp.next_le_step fun o ho => ?_
  rcases SubsOp.outbox_step hop ho with ho | hfresh
  · exact .inr ⟨o, ho, rfl, rfl⟩
  · exact .inl hfresh.1

/-- When a message is due, the delay after the reading of the clock is over. -/
theorem Backing.readingOver_le (h : Backing ends x) {ρ : Turn}
    (hrow : row ∈ x.d.subs.dueRows ρ.names (ρ.now x)) (he : e ∈ lastSent x.sends row.id) :
    ∀ t ∈ e.readingOver, t ≤ ρ.begun x := by
  intro t ht
  unfold Sent.readingOver at ht
  split at ht
  · rename_i hrec
    obtain ⟨delay, hdelay, rfl⟩ := Option.map_eq_some_iff.mp ht
    obtain ⟨o, ho, r, -, -, rfl, hdue⟩ := due_of_mem_dueRows hrow
    have hstored := h.stored o ho e he hrec delay hdelay
    simp only [DueRow.due, Bool.and_eq_true, decide_eq_true_eq] at hdue
    have hread : ρ.now x = (ρ.begun x : ℤ) / 1000000000 := rfl
    have hnext := hdue.1.1.2
    omega
  · cases ht

/-- In a punctual turn the delay after the failure is over as well. -/
theorem Backing.backoffOver_le (h : Backing ends x) {ρ : Turn} (hpunctual : ρ.Punctual x)
    (hrow : row ∈ x.d.subs.dueRows ρ.names (ρ.now x)) (he : e ∈ lastSent x.sends row.id) :
    ∀ t ∈ e.backoffOver, t ≤ ρ.begun x := by
  intro t ht
  obtain ⟨delay, hdelay, rfl⟩ := Option.map_eq_some_iff.mp ht
  obtain ⟨o, ho, r, hr, hsub, rfl, hdue⟩ := due_of_mem_dueRows hrow
  simp only [DueRow.due, Bool.and_eq_true, Bool.or_eq_true, beq_iff_eq,
    decide_eq_true_eq] at hdue
  obtain ⟨⟨⟨hwaiting, hnext⟩, hstatus⟩, hnames⟩ := hdue
  rcases hpunctual o ho hwaiting r hr hsub hstatus hnames e he delay hdelay with
    ⟨hrec, hearly⟩ | hlate
  · -- too early, so the message is not due
    have hstored := h.stored o ho e he hrec delay hdelay
    have hread : ρ.now x = nowTs (ρ.begun x) := rfl
    omega
  · exact hlate

end Invariant

/-! ### Runs -/

section Runs

variable (cr : Crypto) (pacing : Channel → Pacing) (subs : Subs) (clock : ℕ) (ops : List LoopOp)

theorem backing_initial (ends : Sent → Option ℤ) : Backing ends (.initial subs clock) :=
  ⟨.nil, fun _ he => absurd he List.not_mem_nil, fun _ he => absurd he List.not_mem_nil,
    fun _ _ _ he => absurd he (by simp [lastSent, Timed.initial])⟩

/-- **The delay after the reading of the clock is kept**, in every run. -/
theorem waits_readingOver :
    (run (LoopOp.step cr pacing) (.initial subs clock) ops).sends.Pairwise
      (Sent.Waits Sent.readingOver) := by
  refine (run_invariant (backing_initial subs clock Sent.readingOver) (fun x op hx => ?_) ops).waits
  cases op with
  | turn ρ => exact hx.turn fun row hrow e he => hx.readingOver_le hrow he
  | other op hop => exact hx.other hop

/-- **The delay after the failure is kept** in every run of punctual turns. -/
theorem backoff_honoured
    (h : Always (LoopOp.step cr pacing) LoopOp.Punctual (.initial subs clock) ops) :
    (run (LoopOp.step cr pacing) (.initial subs clock) ops).sends.Pairwise
      (Sent.Waits Sent.backoffOver) := by
  refine (h.run_inv (backing_initial subs clock Sent.backoffOver) fun x op hx hpunctual => ?_).waits
  cases op with
  | turn ρ => exact hx.turn fun row hrow e he => hx.backoffOver_le hpunctual hrow he
  | other op hop => exact hx.other hop

end Runs

/-! ### A slow mail server -/

instance (e : Sent) (begun : ℕ) : Decidable (e.Spares begun) :=
  inferInstanceAs (Decidable (∀ _ ∈ _, _ ∧ _ ∨ _))

instance (x : Timed) (ρ : Turn) : Decidable (ρ.Punctual x) := by
  unfold Turn.Punctual
  infer_instance

instance (x : Timed) : ∀ op : LoopOp, Decidable (op.Punctual x)
  | .turn ρ => inferInstanceAs (Decidable (ρ.Punctual x))
  | .other _ _ => isTrue trivial

instance (ends : Sent → Option ℤ) (a b : Sent) : Decidable (a.Waits ends b) :=
  inferInstanceAs (Decidable (_ → ∀ _ ∈ _, _))

/-- A turn in which the mail server answers after `send`, `pause` after the last turn. -/
def mailTurn (pause send : ℕ) (hpause : poll.nanos ≤ pause) (hsend : send ≤ sendLimit.nanos)
    (result : SendResult) : Turn where
  cfg := sampleConfig
  names := [.email]
  candidate := sampleKey
  times _ := { result := result, send := send, send_le := hsend }
  pause := pause
  poll_le := hpause

/-- A message fails two seconds after the clock was read and is tried again two seconds after its
`next_attempt_at`. -/
theorem backoff_honoured_twoSeconds :
    ((run (LoopOp.step sampleCrypto Channel.pacing) (.initial (refusedSubs 1) 60000000000)
        [.turn (mailTurn 5000000000 2000000000 (by decide) (by decide) (.err .plain "421 busy")),
          .turn (mailTurn 30000000000 2000000000 (by decide) (by decide) .ok)]).sends.map fun e =>
            (e.startAt, e.endAt)) = [(65000000000, 67000000000), (97000000000, 99000000000)] ∧
      (run (LoopOp.step sampleCrypto Channel.pacing) (.initial (refusedSubs 1) 60000000000)
        [.turn (mailTurn 5000000000 2000000000 (by decide) (by decide) (.err .plain "421 busy")),
          .turn (mailTurn 30000000000 2000000000 (by decide) (by decide) .ok)]).sends.Pairwise
            (Sent.Waits Sent.backoffOver) :=
  ⟨by decide, backoff_honoured sampleCrypto Channel.pacing (refusedSubs 1) 60000000000 _
    (by decide)⟩

/-- **A message is tried again five seconds after its send timed out**, where it should wait for
thirty: the send took as long as the delay. -/
theorem backoff_cut_short :
    ¬(run (LoopOp.step sampleCrypto Channel.pacing) (.initial (refusedSubs 1) 60000000000)
      [.turn (mailTurn 5000000000 30000000000 (by decide) (by decide) .timeout),
        .turn (mailTurn 5000000000 30000000000 (by decide) (by decide) .timeout)]).sends.Pairwise
          (Sent.Waits Sent.backoffOver) := by
  decide

/-- Nor is a failure waited for that could not be recorded. -/
example : ¬(run (LoopOp.step sampleCrypto Channel.pacing) (.initial (refusedSubs 1) 60000000000)
    [.turn { mailTurn 5000000000 0 (by decide) (by decide) (.err .plain "421 busy") with
        times := fun _ => { result := .err .plain "421 busy", faults := [true] } },
      .turn (mailTurn 5000000000 0 (by decide) (by decide) .ok)]).sends.Pairwise
        (Sent.Waits Sent.backoffOver) := by
  decide

end Dunlin

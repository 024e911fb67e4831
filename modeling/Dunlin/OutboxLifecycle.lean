import Dunlin.SubscriptionRun

/-!
# The life of a message

A message is queued, handed to its channel up to `maxAttempts` times, and ends as delivered or given
up. `Accounted` relates its row to the log of what was handed over: the row counts its attempts, is
delivered only after the channel said so, and is never both delivered and given up. `Lawful` adds
what an operation may not do: hand over a finished message or touch its row, or lose one that waits.

The invariant needs one fact besides, that every message has a subscriber (`Owned`): a removed
subscriber's messages must not stay behind.

## Main results

* `lifecycle` — both hold of every operation of every run. Since a finished row stays as it is until
  it is removed, and ids are not used twice, a message that is finished once is finished for good.
-/

namespace Dunlin

open Lib

/-- The entry hands the message `id` to its channel. -/
def LogEntry.hands (id : ℤ) : LogEntry → Bool
  | .handed outboxId .. => outboxId == id
  | _ => false

/-- How often the message `id` was handed to its channel. -/
def handedCount (log : List LogEntry) (id : ℤ) : ℕ := log.countP (·.hands id)

/-- A message's row agrees with what was handed over. -/
structure OutboxRow.Accounted (log : List LogEntry) (o : OutboxRow) : Prop where
  /-- Not delivered and given up. -/
  once : o.sentAt = none ∨ o.failedAt = none
  attempts : o.attempts = handedCount log o.id
  bounded : o.attempts ≤ maxAttempts
  /-- A message that waits has attempts left. -/
  retriable : o.waiting = true → o.attempts < maxAttempts
  /-- Only the channel's word makes a message delivered. -/
  delivered : o.sentAt ≠ none → ∃ sid channel delivery, .handed o.id sid channel delivery .ok ∈ log

/-- Why a waiting message may be gone: its subscriber is, or a sign-up queued another confirmation
in its place or dropped what waited for a quarantined subscriber. -/
def Discarded (d d' : Dispatcher) (op : SubsOp) (o : OutboxRow) : Prop :=
  (∀ r ∈ d'.subs.subscribers.rows, r.id ≠ o.subscriberId) ∨
    ∃ req rnd now, op = .signUp req rnd now ∧
      ((o.kind = "confirm" ∧ ∃ o' ∈ d'.subs.outbox.rows, d.subs.outbox.next ≤ o'.id ∧
          o'.subscriberId = o.subscriberId ∧ o'.kind = "confirm") ∨
        ∃ r ∈ d.subs.subscribers.rows, r.id = o.subscriberId ∧ r.status = .quarantined)

/-- What an operation owes to the messages. -/
structure Lawful (cr : Crypto) (d : Dispatcher) (op : SubsOp) : Prop where
  accounted : ∀ o ∈ (op.step cr d).subs.outbox.rows, o.Accounted (op.step cr d).log
  /-- A finished message is not handed over again. -/
  finished : ∀ o ∈ d.subs.outbox.rows, o.waiting = false →
    handedCount (op.step cr d).log o.id = handedCount d.log o.id
  /-- The row of a finished message stays as it is while it is there. -/
  settled : ∀ o ∈ d.subs.outbox.rows, o.waiting = false →
    ∀ o' ∈ (op.step cr d).subs.outbox.rows, o'.id = o.id → o' = o
  /-- Nothing is handed over twice in one round. -/
  once : ∀ id, handedCount (op.step cr d).log id ≤ handedCount d.log id + 1
  /-- A waiting message is not lost. -/
  kept : ∀ o ∈ d.subs.outbox.rows, o.waiting = true →
    (∃ o' ∈ (op.step cr d).subs.outbox.rows, o'.id = o.id) ∨ Discarded d (op.step cr d) op o
  /-- Pruning removes finished messages past their time, and whole stale subscribers. -/
  pruned : ∀ now, op = .prune now → ∀ o ∈ d.subs.outbox.rows,
    o ∈ (op.step cr d).subs.outbox.rows ∨ Subs.outboxStale now o = true ∨
      ∃ r ∈ d.subs.subscribers.rows, r.id = o.subscriberId ∧ Subs.subscriberStale now r = true

/-- Every message agrees with the log, and only messages queued so far were handed over. -/
structure Ledger (d : Dispatcher) : Prop where
  owned : Owned d.subs
  rows : ∀ o ∈ d.subs.outbox.rows, o.Accounted d.log
  known : ∀ e ∈ d.log, ∀ id, e.hands id = true → id < d.subs.outbox.next

/-! ### A round -/

section Round

variable {cr : Crypto} {cfg : Config} {key : String} {now : ℤ} {envs : ℤ → SendEnv} {row : DueRow}
  {rows : List DueRow} {d : Dispatcher} {o : OutboxRow} {log l : List LogEntry} {id : ℤ}

theorem handedCount_append : handedCount (log ++ l) id = handedCount log id + handedCount l id :=
  List.countP_append

theorem handedCount_aftermath {sid : ℤ} {result : SendResult} {s : Subs} :
    handedCount (aftermath now sid result s) id = 0 := by
  rw [aftermath]
  split
  · rfl
  · split
    · rfl
    · split <;> rfl

/-- Handing a row over counts for its message alone. -/
theorem handedCount_entries :
    handedCount (entries cr cfg key now envs row d) id =
      if (handing cr cfg key now row (envs row.id) d.pacer).isSome ∧ row.id = id then 1 else 0 := by
  rw [entries]
  cases handing cr cfg key now row (envs row.id) d.pacer with
  | none => rfl
  | some m =>
    rw [handedCount, List.countP_cons, ← handedCount, handedCount_aftermath]
    simp [LogEntry.hands]

theorem OutboxRow.Accounted.append (h : o.Accounted log) (hl : handedCount l o.id = 0) :
    o.Accounted (log ++ l) := by
  refine ⟨h.once, ?_, h.bounded, h.retriable, fun hs => ?_⟩
  · rw [handedCount_append, hl, Nat.add_zero, h.attempts]
  · obtain ⟨sid, channel, delivery, hmem⟩ := h.delivered hs
    exact ⟨sid, channel, delivery, List.mem_append_left _ hmem⟩

/-- A waiting message is given up without having been handed over. -/
theorem OutboxRow.Accounted.givenUp (h : o.Accounted log) (hw : o.waiting = true)
    (error : String) : ({ o with failedAt := some now, lastError := some error } :
      OutboxRow).Accounted log := by
  have hsent : o.sentAt = none := by
    simp only [OutboxRow.waiting, Bool.and_eq_true, Option.isNone_iff_eq_none] at hw
    exact hw.1
  refine ⟨.inl hsent, h.attempts, h.bounded, fun hw' => ?_, fun hs => absurd hsent hs⟩
  simp [OutboxRow.waiting] at hw'

/-- A waiting message after it was handed over. -/
theorem OutboxRow.Accounted.attempted (h : o.Accounted log) (hw : o.waiting = true)
    {result : SendResult} (hone : handedCount l o.id = 1)
    (hmem : ∃ sid channel delivery, .handed o.id sid channel delivery result ∈ l) :
    (o.attempted now (o.attempts + 1) result).Accounted (log ++ l) := by
  have hnone : o.sentAt = none ∧ o.failedAt = none := by
    simpa [OutboxRow.waiting] using hw
  have hleft := h.retriable hw
  have hcount : o.attempts + 1 = handedCount (log ++ l) o.id := by
    rw [handedCount_append, hone, h.attempts]
    rfl
  rw [OutboxRow.attempted]
  split
  · rename_i herr
    have hok : result = .ok := by
      cases result with
      | ok => rfl
      | err | timeout => cases herr
    subst hok
    refine ⟨.inr hnone.2, hcount, hleft, fun hw' => by simp [OutboxRow.waiting] at hw', fun _ => ?_⟩
    obtain ⟨sid, channel, delivery, hmem⟩ := hmem
    exact ⟨sid, channel, delivery, List.mem_append_right _ hmem⟩
  · dsimp only
    split
    · refine ⟨.inl hnone.1, hcount, hleft, fun hw' => by simp [OutboxRow.waiting] at hw', ?_⟩
      exact fun hs => absurd hnone.1 hs
    · rename_i hmore
      exact ⟨.inl hnone.1, hcount, hleft, fun _ => Int.not_le.mp fun hle => hmore (.inr hle),
        fun hs => absurd hnone.1 hs⟩

/-- What a row hands over is its own message. -/
theorem Ledger.known_handled (h : Ledger d) (hid : row.id < d.subs.outbox.next) :
    ∀ e ∈ (dispatchRow cr cfg key now row (envs row.id) d).log, ∀ id, e.hands id = true →
      id < (dispatchRow cr cfg key now row (envs row.id) d).subs.outbox.next := by
  intro e he id hands
  have hlog : (dispatchRow cr cfg key now row (envs row.id) d).log =
      d.log ++ entries cr cfg key now envs row d := log_dispatchRow
  rw [next_dispatchRow]
  rw [hlog, List.mem_append] at he
  rcases he with he | he
  · exact h.known e he id hands
  · have hpos : 0 < handedCount (entries cr cfg key now envs row d) id :=
      List.countP_pos_iff.mpr ⟨e, he, hands⟩
    rw [handedCount_entries] at hpos
    split at hpos
    · rename_i heq
      rwa [← heq.2]
    · exact absurd hpos (Nat.lt_irrefl 0)

/-- **One row of a snapshot** keeps the ledger. -/
theorem Ledger.handled (h : Ledger d) (hfresh : row.Fresh d.subs)
    (hid : row.id < d.subs.outbox.next) :
    Ledger (dispatchRow cr cfg key now row (envs row.id) d) := by
  have hlog : (dispatchRow cr cfg key now row (envs row.id) d).log =
      d.log ++ entries cr cfg key now envs row d := log_dispatchRow
  have howned : Owned (dispatchRow cr cfg key now row (envs row.id) d).subs := h.owned.handled
  have hknown : ∀ e ∈ (dispatchRow cr cfg key now row (envs row.id) d).log, ∀ id,
      e.hands id = true →
        id < (dispatchRow cr cfg key now row (envs row.id) d).subs.outbox.next :=
    h.known_handled hid
  have hother : ∀ o ∈ d.subs.outbox.rows, o.id ≠ row.id →
      o.Accounted (d.log ++ entries cr cfg key now envs row d) := fun o ho hne => by
    refine (h.rows o ho).append ?_
    rw [handedCount_entries, if_neg fun heq => hne heq.2.symm]
  cases hm : handing cr cfg key now row (envs row.id) d.pacer with
  | none =>
    rcases dispatchRow_of_not_handing hm with hd | ⟨error, stats, -, -, hd⟩ <;>
      rw [hd] at howned hknown ⊢
    · exact h
    · refine ⟨howned, fun o ho => ?_, hknown⟩
      obtain ⟨o₀, ho₀, rfl⟩ := Subs.mem_updateOutbox.mp ho
      split
      · exact (h.rows o₀ ho₀).givenUp (hfresh.outbox o₀ ho₀ ‹_›).1 error
      · exact h.rows o₀ ho₀
  | some m =>
    have hsubs : (dispatchRow cr cfg key now row (envs row.id) d).subs =
        (handOver cfg now row m (envs row.id) d).subs := by rw [dispatchRow_of_handing hm]
    refine ⟨howned, fun o ho => ?_, hknown⟩
    rw [hlog]
    rw [hsubs] at ho
    cases hg : (envs row.id).result.isGone with
    | true =>
      rw [subs_handOver_of_gone hg] at ho
      obtain ⟨ho, hstays⟩ := Subs.mem_outbox_deleteSubscribers.mp ho
      refine hother o ho fun hoid => ?_
      -- its subscriber would have been removed, and it with it
      obtain ⟨r, hr, hrid⟩ := h.owned o ho
      have hsid := (hfresh.outbox o ho hoid).2.2.2
      simpa [hrid, hsid] using hstays r hr hrid
    | false =>
      rw [outbox_handOver hg] at ho
      obtain ⟨o₀, ho₀, rfl⟩ := List.mem_map.mp ho
      split
      · rename_i hoid
        obtain ⟨hw, -, hattempts, -⟩ := hfresh.outbox o₀ ho₀ hoid
        rw [← hattempts]
        refine (h.rows o₀ ho₀).attempted hw ?_ ⟨row.sid, row.channel, deliveryOf cfg row m, ?_⟩
        · rw [handedCount_entries, if_pos ⟨by rw [hm]; rfl, hoid.symm⟩]
        · rw [entries, hm, hoid]
          exact List.mem_cons_self
      · exact hother o₀ ho₀ ‹_›

/-- **A round** keeps the ledger. -/
theorem Ledger.run (h : Ledger d) (ρ : Round) : Ledger (ρ.run cr d) := by
  refine (dispatchDue_inv (I := fun d' => Ledger d' ∧ d'.subs.outbox.next = d.subs.outbox.next)
    ⟨h, rfl⟩ (fun d' hd' => ⟨⟨hd'.1.owned, hd'.1.rows, hd'.1.known⟩, hd'.2⟩) (fun d' hd' => ?_)
    fun d' key row hrow hd' _ hf => ⟨hd'.1.handled hf ?_, next_dispatchRow.trans hd'.2⟩).1
  · obtain ⟨-, -, hout⟩ := d'.subs.tables_signingKey ρ.candidate
    refine ⟨⟨owned_signingKey hd'.1.owned ρ.candidate, fun o ho => hd'.1.rows o (hout ▸ ho),
      fun e he id hands => ?_⟩, ?_⟩
    · rw [hout]
      exact hd'.1.known e he id hands
    · rw [hout, hd'.2]
  · obtain ⟨o, ho, r, -, -, rfl, -⟩ := mem_dueRows hrow
    rw [hd'.2]
    exact d.subs.outbox.lt_next o ho

/-- A message that is not in the snapshot is not handed over. -/
theorem handedCount_later_eq_zero (h : ∀ row ∈ rows, row.id ≠ id) :
    handedCount (later cr cfg key now envs rows d) id = 0 := by
  induction rows generalizing d with
  | nil => rfl
  | cons row rows ih =>
    rw [List.forall_mem_cons] at h
    rw [later, handedCount_append, handedCount_entries, if_neg fun heq => h.1 heq.2, ih h.2]

/-- A snapshot hands each message over at most once. -/
theorem handedCount_later_le_one (hsorted : rows.Pairwise fun a b => a.id < b.id) :
    handedCount (later cr cfg key now envs rows d) id ≤ 1 := by
  induction rows generalizing d with
  | nil => exact Nat.zero_le 1
  | cons row rows ih =>
    rw [List.pairwise_cons] at hsorted
    rw [later, handedCount_append, handedCount_entries]
    split
    · rename_i heq
      rw [handedCount_later_eq_zero fun row' hrow' => ?_]
      rw [← heq.2]
      exact (Int.ne_of_lt (hsorted.1 row' hrow')).symm
    · rw [Nat.zero_add]
      exact ih hsorted.2

theorem handedCount_run_of_finished {ρ : Round} (ho : o ∈ d.subs.outbox.rows)
    (hw : o.waiting = false) : handedCount (ρ.run cr d).log o.id = handedCount d.log o.id := by
  rw [log_run, handedCount_append, handedCount_later_eq_zero, Nat.add_zero]
  intro row hrow hid
  obtain ⟨o', ho', r, -, -, rfl, hw', -⟩ := mem_dueRows hrow
  obtain rfl : o' = o := Table.eq_of_id ho' ho hid
  exact absurd (hw'.symm.trans hw) (by decide)

/-- A row of the snapshot touches its own message only. -/
theorem mem_outbox_of_dispatchRow
    (ho : o ∈ (dispatchRow cr cfg key now row (envs row.id) d).subs.outbox.rows)
    (hne : o.id ≠ row.id) : o ∈ d.subs.outbox.rows := by
  cases hm : handing cr cfg key now row (envs row.id) d.pacer with
  | none =>
    rcases dispatchRow_of_not_handing hm with hd | ⟨error, stats, -, -, hd⟩ <;> rw [hd] at ho
    · exact ho
    · obtain ⟨o₀, ho₀, rfl⟩ := Subs.mem_updateOutbox.mp ho
      split at hne
      · rename_i hid
        exact absurd hid hne
      · rename_i hid
        rwa [if_neg hid]
  | some m =>
    rw [dispatchRow_of_handing hm] at ho
    cases hg : (envs row.id).result.isGone with
    | true =>
      rw [subs_handOver_of_gone hg] at ho
      exact (Subs.mem_outbox_deleteSubscribers.mp ho).1
    | false =>
      rw [outbox_handOver hg] at ho
      obtain ⟨o₀, ho₀, rfl⟩ := List.mem_map.mp ho
      split at hne
      · rename_i hid
        have hmoves := RoundMoves.attempted now (row.attempts + 1) (envs row.id).result o₀
        exact absurd (hmoves.id.trans hid) hne
      · rename_i hid
        rwa [if_neg hid]

/-- A round leaves the rows of finished messages alone. -/
theorem settled_run {ρ : Round} (ho : o ∈ d.subs.outbox.rows) (hw : o.waiting = false)
    {o' : OutboxRow} (ho' : o' ∈ (ρ.run cr d).subs.outbox.rows) (hid : o'.id = o.id) : o' = o := by
  refine dispatchDue_inv (I := fun d' => ∀ o' ∈ d'.subs.outbox.rows, o'.id = o.id → o' = o)
    (fun o' ho' hid => Table.eq_of_id ho' ho hid) (fun _ hd' => hd') (fun d' hd' => ?_)
    (fun d' key row hrow hd' _ _ => ?_) o' ho' hid
  · obtain ⟨-, -, hout⟩ := d'.subs.tables_signingKey ρ.candidate
    intro o' ho'
    exact hd' o' (hout ▸ ho')
  · intro o' ho' hid'
    refine hd' o' (mem_outbox_of_dispatchRow ho' fun hrid => ?_) hid'
    -- the row of the snapshot waits
    obtain ⟨o₁, ho₁, r, -, -, rfl, hw₁, -⟩ := mem_dueRows hrow
    obtain rfl : o₁ = o := Table.eq_of_id ho₁ ho (hrid.symm.trans hid')
    exact absurd (hw₁.symm.trans hw) (by decide)

theorem handedCount_run_le {ρ : Round} :
    handedCount (ρ.run cr d).log id ≤ handedCount d.log id + 1 := by
  rw [log_run, handedCount_append]
  exact Nat.add_le_add_left (handedCount_later_le_one sorted_dueRows) _

/-- The message is still there, or its subscriber is gone. -/
def OutboxRow.Stays (o : OutboxRow) (s : Subs) : Prop :=
  (∃ o' ∈ s.outbox.rows, o'.id = o.id ∧ o'.subscriberId = o.subscriberId) ∨
    ∀ r ∈ s.subscribers.rows, r.id ≠ o.subscriberId

/-- A row of the snapshot loses a message only with its subscriber. -/
theorem OutboxRow.Stays.handled (h : o.Stays d.subs) :
    o.Stays (dispatchRow cr cfg key now row (envs row.id) d).subs := by
  rcases h with ⟨o', ho', hid, hsid⟩ | hgone
  · cases hm : handing cr cfg key now row (envs row.id) d.pacer with
    | none =>
      rcases dispatchRow_of_not_handing hm with hd | ⟨error, stats, -, -, hd⟩ <;> rw [hd]
      · exact .inl ⟨o', ho', hid, hsid⟩
      · refine .inl ⟨_, Subs.mem_updateOutbox.mpr ⟨o', ho', rfl⟩, ?_⟩
        split <;> exact ⟨hid, hsid⟩
    | some m =>
      rw [dispatchRow_of_handing hm]
      cases hg : (envs row.id).result.isGone with
      | true =>
        rw [subs_handOver_of_gone hg]
        by_cases heq : row.sid = o.subscriberId
        · refine .inr fun r hr hrid => ?_
          have hne := (Subs.mem_deleteSubscribers.mp hr).2
          simp [hrid, heq] at hne
        · refine .inl ⟨o', Subs.mem_outbox_deleteSubscribers.mpr ⟨ho', fun r _ hrid => ?_⟩, hid,
            hsid⟩
          rw [hrid, hsid]
          exact beq_eq_false_iff_ne.mpr (Ne.symm heq)
      | false =>
        refine .inl ⟨_, (outbox_handOver hg).symm ▸ List.mem_map_of_mem ho', ?_⟩
        split
        · have hmoves := RoundMoves.attempted now (row.attempts + 1) (envs row.id).result o'
          exact ⟨hmoves.id.trans hid, hmoves.subscriberId.trans hsid⟩
        · exact ⟨hid, hsid⟩
  · refine .inr fun r' hr' => ?_
    obtain ⟨r, hr, hkeeps⟩ := roundKeeps_dispatchRow hr'
    rw [hkeeps.id]
    exact hgone r hr

theorem OutboxRow.Stays.signingKey {s : Subs} (h : o.Stays s) (candidate : String) :
    o.Stays (s.signingKey candidate).2 := by
  obtain ⟨hsubs, -, hout⟩ := s.tables_signingKey candidate
  rw [OutboxRow.Stays]
  rwa [hsubs, hout]

/-- A round loses a message only with its subscriber. -/
theorem stays_run {ρ : Round} (ho : o ∈ d.subs.outbox.rows) : o.Stays (ρ.run cr d).subs :=
  dispatchDue_inv (I := fun d' => o.Stays d'.subs) (.inl ⟨o, ho, rfl, rfl⟩) (fun _ hd' => hd')
    (fun _ hd' => hd'.signingKey ρ.candidate) fun _ _ _ _ hd' _ _ => hd'.handled

end Round

/-! ### Every operation -/

section Operations

variable {cr : Crypto} {s : Subs} {d : Dispatcher} {op : SubsOp} {o : OutboxRow}
  {p : Subscriber → Bool} {log : List LogEntry}

theorem handedCount_eq_zero {next id : ℤ} (hknown : ∀ e ∈ log, ∀ id, e.hands id = true → id < next)
    (hid : next ≤ id) : handedCount log id = 0 := by
  rw [handedCount, List.countP_eq_zero]
  exact fun e he hands => absurd (hknown e he id hands) (Int.not_lt.mpr hid)

/-- A message that was queued just now. -/
theorem accounted_queued {sid now id : ℤ} {kind : String} {payload : Payload}
    (h : handedCount log id = 0) : (OutboxRow.queued sid kind payload now id).Accounted log := by
  have hlt : (0 : ℤ) < maxAttempts := by decide
  refine ⟨.inl rfl, ?_, Int.le_of_lt hlt, fun _ => hlt, fun hs => absurd rfl hs⟩
  show (0 : ℤ) = handedCount log id
  rw [h]
  rfl

/-- **Every operation** keeps the ledger. -/
theorem Ledger.step (h : Ledger d) (op : SubsOp) : Ledger (op.step cr d) := by
  by_cases hop : ∃ ρ, op = .dispatch ρ
  · obtain ⟨ρ, rfl⟩ := hop
    exact h.run ρ
  · have hround : ∀ ρ, op ≠ .dispatch ρ := fun ρ hρ => hop ⟨ρ, hρ⟩
    refine ⟨h.owned.step op, fun o ho => ?_, fun e he id hands => ?_⟩
    · rw [SubsOp.log_step hround]
      rcases SubsOp.outbox_step hround ho with ho | ⟨hid, hnew⟩
      · exact h.rows o ho
      · have hzero := handedCount_eq_zero h.known hid
        rcases hnew with ⟨-, -, now, sid, -, hq⟩ | ⟨r, -, -, -, event, now, -, hq⟩ <;> rw [hq]
        · exact accounted_queued hzero
        · exact accounted_queued hzero
    · rw [SubsOp.log_step hround] at he
      exact Int.lt_of_lt_of_le (h.known e he id hands) SubsOp.next_le_step

/-- Removing subscribers takes along only their own messages. -/
theorem Subs.kept_deleteSubscribers (ho : o ∈ s.outbox.rows) :
    (∃ o' ∈ (s.deleteSubscribers p).outbox.rows, o'.id = o.id) ∨
      ∀ r ∈ (s.deleteSubscribers p).subscribers.rows, r.id ≠ o.subscriberId := by
  by_cases h : ∀ r ∈ s.subscribers.rows, r.id = o.subscriberId → p r = false
  · exact .inl ⟨o, mem_outbox_deleteSubscribers.mpr ⟨ho, h⟩, rfl⟩
  · push Not at h
    obtain ⟨r, hr, hid, hp⟩ := h
    refine .inr fun r' hr' hid' => hp ?_
    obtain ⟨hr', hp'⟩ := mem_deleteSubscribers.mp hr'
    rwa [Table.eq_of_id hr hr' (hid.trans hid'.symm)]

/-- A sign-up drops a waiting message only for a reason. -/
theorem kept_signUp {req : SignUp} {rnd : ℕ → String} {now : ℤ} (ho : o ∈ d.subs.outbox.rows) :
    (∃ o' ∈ (SubsOp.step cr d (.signUp req rnd now)).subs.outbox.rows, o'.id = o.id) ∨
      Discarded d (SubsOp.step cr d (.signUp req rnd now)) (.signUp req rnd now) o := by
  have hqueues : ∀ {sid quarantined},
      d.subs.Queues sid now quarantined (SubsOp.step cr d (.signUp req rnd now)).subs →
      (quarantined → ∃ r ∈ d.subs.subscribers.rows, r.id = sid ∧ r.status = .quarantined) →
      (∃ o' ∈ (SubsOp.step cr d (.signUp req rnd now)).subs.outbox.rows, o'.id = o.id) ∨
        Discarded d (SubsOp.step cr d (.signUp req rnd now)) (.signUp req rnd now) o := by
    intro sid quarantined hq hquar
    by_cases hrep : Replaced sid quarantined o
    · refine .inr (.inr ⟨req, rnd, now, rfl, ?_⟩)
      obtain ⟨rfl, ⟨hkind, -⟩ | ⟨hq', -⟩⟩ := hrep
      · exact .inl ⟨hkind, _, (hq.mem _).mpr (.inr rfl), Int.le_refl _, rfl, rfl⟩
      · exact .inr (hquar hq')
    · exact .inl ⟨o, (hq.mem o).mpr (.inl ⟨ho, hrep⟩), rfl⟩
  rcases Subs.subscribe_cases cr d.subs req rnd now with hs | ⟨-, key, -, hout⟩ | ⟨-, key, -, hq⟩ |
    ⟨-, key, r₀, hren, hq⟩
  · exact .inl ⟨o, (congrArg Subs.outbox hs).symm ▸ ho, rfl⟩
  · exact .inl ⟨o, hout.symm ▸ ho, rfl⟩
  · exact hqueues hq False.elim
  · exact hqueues hq fun hquar => ⟨r₀, hren.mem, rfl, hquar⟩

/-- **A waiting message is not lost** without a reason. -/
theorem kept_step (ho : o ∈ d.subs.outbox.rows) (hw : o.waiting = true) :
    (∃ o' ∈ (op.step cr d).subs.outbox.rows, o'.id = o.id) ∨
      Discarded d (op.step cr d) op o := by
  cases op with
  | signUp req rnd now => exact kept_signUp ho
  | confirm token now =>
    have hout : (SubsOp.step cr d (.confirm token now)).subs.outbox = d.subs.outbox :=
      Subs.outbox_confirm
    exact .inl ⟨o, hout.symm ▸ ho, rfl⟩
  | linkChat token chat now =>
    have hres : ((d.subs.linkChat cr token chat now).map (·.2)).getD d.subs =
      (SubsOp.step cr d (.linkChat token chat now)).subs := rfl
    rcases Subs.linkChat_cases hres with hs | ⟨p, hl⟩ | ⟨p, x, hm⟩
    · exact .inl ⟨o, hs.symm ▸ ho, rfl⟩
    · exact .inl ⟨o, hl.outbox.symm ▸ ho, rfl⟩
    · by_cases hsid : o.subscriberId = p.id
      · refine .inr (.inl fun r' hr' => ?_)
        obtain ⟨r, -, hne, rfl⟩ := (hm.rows r').mp hr'
        rw [hsid]
        split <;> exact hne
      · exact .inl ⟨o, (hm.outbox o).mpr ⟨ho, hsid⟩, rfl⟩
  | stopChat chat => exact (Subs.kept_deleteSubscribers ho).imp_right .inl
  | unsubscribe token => exact (Subs.kept_deleteSubscribers ho).imp_right .inl
  | delete id => exact (Subs.kept_deleteSubscribers ho).imp_right .inl
  | publish cfg event now => exact .inl ⟨o, Subs.mem_publish_of_mem ho, rfl⟩
  | dispatch ρ => exact (stays_run ho).imp (fun ⟨o', ho', hid, _⟩ => ⟨o', ho', hid⟩) .inl
  | prune now =>
    have hfresh : Subs.outboxStale now o = false := by
      obtain ⟨hsent, hfailed⟩ : o.sentAt = none ∧ o.failedAt = none := by
        simpa [OutboxRow.waiting] using hw
      rw [Subs.outboxStale, hsent, hfailed]
      rfl
    by_cases hstale : ∀ r ∈ d.subs.subscribers.rows, r.id = o.subscriberId →
        Subs.subscriberStale now r = false
    · exact .inl ⟨o, Subs.mem_outbox_prune.mpr ⟨ho, hfresh, hstale⟩, rfl⟩
    · push Not at hstale
      obtain ⟨r, hr, hid, hstale⟩ := hstale
      refine .inr (.inl fun r' hr' hid' => hstale ?_)
      obtain ⟨hr', hkeep⟩ := Subs.mem_prune.mp hr'
      rwa [Table.eq_of_id hr hr' (hid.trans hid'.symm)]
  | restart => exact .inl ⟨o, ho, rfl⟩

/-- Pruning removes what it should. -/
theorem pruned_step {now : ℤ} (ho : o ∈ d.subs.outbox.rows) :
    o ∈ (SubsOp.step cr d (.prune now)).subs.outbox.rows ∨ Subs.outboxStale now o = true ∨
      ∃ r ∈ d.subs.subscribers.rows, r.id = o.subscriberId ∧ Subs.subscriberStale now r = true := by
  cases hstale : Subs.outboxStale now o with
  | true => exact .inr (.inl rfl)
  | false =>
    by_cases hsub : ∀ r ∈ d.subs.subscribers.rows, r.id = o.subscriberId →
        Subs.subscriberStale now r = false
    · exact .inl (Subs.mem_outbox_prune.mpr ⟨ho, hstale, hsub⟩)
    · push Not at hsub
      obtain ⟨r, hr, hid, hst⟩ := hsub
      exact .inr (.inr ⟨r, hr, hid, eq_true_of_ne_false hst⟩)

theorem Ledger.lawful (h : Ledger d) (op : SubsOp) : Lawful cr d op := by
  refine ⟨(h.step op).rows, fun o ho hw => ?_, fun o ho hw o' ho' hid => ?_, fun id => ?_,
    fun o ho hw => kept_step ho hw, fun now hop o ho => ?_⟩
  · by_cases hop : ∃ ρ, op = .dispatch ρ
    · obtain ⟨ρ, rfl⟩ := hop
      exact handedCount_run_of_finished ho hw
    · rw [SubsOp.log_step fun ρ hρ => hop ⟨ρ, hρ⟩]
  · by_cases hop : ∃ ρ, op = .dispatch ρ
    · obtain ⟨ρ, rfl⟩ := hop
      exact settled_run ho hw ho' hid
    · rcases SubsOp.outbox_step (fun ρ hρ => hop ⟨ρ, hρ⟩) ho' with ho' | ⟨hnew, -⟩
      · exact Table.eq_of_id ho' ho hid
      · have hlt : o.id < d.subs.outbox.next := d.subs.outbox.lt_next o ho
        omega
  · by_cases hop : ∃ ρ, op = .dispatch ρ
    · obtain ⟨ρ, rfl⟩ := hop
      exact handedCount_run_le
    · rw [SubsOp.log_step fun ρ hρ => hop ⟨ρ, hρ⟩]
      exact Nat.le_succ _
  · subst hop
    exact pruned_step ho

end Operations

/-- **The life of a message.** In every run, after every operation, each message's row agrees with
what was handed over, no finished message was handed over again, and no waiting one was lost. -/
theorem lifecycle (cr : Crypto) (ops : List SubsOp) :
    Always (SubsOp.step cr) (fun d op => Lawful cr d op) Dispatcher.initial ops := by
  have h₀ : Ledger Dispatcher.initial := by
    refine ⟨fun o ho => ?_, fun o ho => ?_, fun e he => ?_⟩
    · exact absurd ho List.not_mem_nil
    · exact absurd ho List.not_mem_nil
    · exact absurd he List.not_mem_nil
  exact .of_invariant h₀ (fun d op h => h.step op) fun d op h => h.lawful op

end Dunlin

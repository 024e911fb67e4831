import Dunlin.Dispatch

/-!
# What a round does

The functions of `Dispatch`, read once. Each piece of a round gets one lemma that says what it does
to the rows of the tables and to the log, and `dispatchRows_inv` is the rule by which an invariant
of the tables survives a whole round. Later proofs use these and never unfold a piece.

A row of the snapshot is `Fresh` as long as the tables still say what the snapshot says, up to the
subscriber having been quarantined or removed meanwhile. Rows of one snapshot have different ids, so
a row stays fresh until its turn comes.

What a round does to a row has few parts: the message is attempted or gone, the subscriber's
failures are counted or cleared, and a subscriber that is gone takes its rows along. `RoundMoves`
and `RoundKeeps` are what all of them have in common, for messages and for subscribers.

## Main results

* `rows_countFailure` — the row of a subscriber after a counted failure
* `prepare_of_handing` — what is handed to a channel
* `roundMoves_dispatchRow`, `roundKeeps_dispatchRow` — what a turn may change
* `dispatchDue_inv` — the round rule
-/

namespace Dunlin

open Lib

/-! ### The quarantine counter -/

namespace Subscriber

/-- One more counted failure quarantines the subscriber. -/
def strikesOut (now : ℤ) (r : Subscriber) : Prop :=
  r.status ≠ .quarantined ∧ Subs.windowOver r now = false ∧
    quarantineFailures ≤ r.failuresInWindow + 1

instance (now : ℤ) (r : Subscriber) : Decidable (r.strikesOut now) :=
  inferInstanceAs (Decidable (_ ∧ _ ∧ _))

/-- The row after one more counted failure. -/
def struck (now : ℤ) (r : Subscriber) : Subscriber :=
  if r.strikesOut now then Subs.quarantineRow now (Subs.countFailureRow now r)
  else Subs.countFailureRow now r

/-- The row after a success. -/
def cleared (r : Subscriber) : Subscriber :=
  if r.failuresInWindow > 0 then { r with failuresInWindow := 0, failureWindowStart := none } else r

end Subscriber

namespace Subs

variable {s : Subs} {sid now : ℤ} {r : Subscriber}

theorem keeps_countFailureRow : Keeps (countFailureRow now) :=
  ⟨fun _ => rfl, fun _ => rfl, fun _ => rfl, fun _ => rfl, fun _ => rfl, fun _ => .inl ⟨rfl, rfl⟩⟩

theorem keeps_quarantineRow : Keeps (quarantineRow now) :=
  ⟨fun _ => rfl, fun _ => rfl, fun _ => rfl, fun _ => rfl, fun _ => rfl, fun _ => .inl ⟨rfl, rfl⟩⟩

/-- Counting reaches the limit only within a failure window. -/
theorem le_failures_countFailureRow :
    quarantineFailures ≤ (countFailureRow now r).failuresInWindow ↔
      windowOver r now = false ∧ quarantineFailures ≤ r.failuresInWindow + 1 := by
  rw [countFailureRow]
  cases windowOver r now <;> simp [quarantineFailures]

/-- The row `countFailure` finds after counting, if there is one. -/
theorem find?_counted :
    (s.updateSubscribers (·.id == sid) (countFailureRow now)
      keeps_countFailureRow).subscribers.find? sid =
        (s.subscribers.find? sid).map (countFailureRow now) := by
  cases h : s.subscribers.find? sid with
  | none =>
    rw [Option.map_none, Table.find?_eq_none_iff]
    intro r hr hid
    obtain ⟨r₀, hr₀, rfl⟩ := mem_updateSubscribers.mp hr
    refine Table.find?_eq_none_iff.mp h r₀ hr₀ ?_
    rw [← hid]
    split <;> rfl
  | some r =>
    obtain ⟨hr, hid⟩ := Table.find?_eq_some_iff.mp h
    rw [Option.map_some, Table.find?_eq_some_iff]
    refine ⟨mem_updateSubscribers.mpr ⟨r, hr, if_pos ?_⟩, hid⟩
    exact beq_iff_eq.mpr hid

/-- **What `countFailure` does to the rows.** -/
theorem rows_countFailure :
    (s.countFailure sid now).2.subscribers.rows =
      s.subscribers.rows.map fun r => if r.id = sid then r.struck now else r := by
  have hone : ∀ {r}, s.subscribers.find? sid = some r → ∀ r' ∈ s.subscribers.rows, r'.id = sid →
      r' = r := fun h r' hr' hid => by
    obtain ⟨hr, hid'⟩ := Table.find?_eq_some_iff.mp h
    exact Table.eq_of_id hr' hr (hid.trans hid'.symm)
  rw [countFailure]
  dsimp only
  rw [find?_counted]
  cases h : s.subscribers.find? sid with
  | none =>
    refine List.map_congr_left fun r hr => ?_
    have hne : r.id ≠ sid := Table.find?_eq_none_iff.mp h r hr
    rw [if_neg hne, if_neg (by simpa using hne)]
  | some r =>
    rw [Option.map_some]
    dsimp only
    by_cases hlim : (countFailureRow now r).failuresInWindow < quarantineFailures
    · rw [if_pos hlim]
      refine List.map_congr_left fun r' hr' => ?_
      by_cases hid : r'.id = sid
      · obtain rfl := hone h r' hr' hid
        have hno : ¬r'.strikesOut now := fun hs =>
          absurd (le_failures_countFailureRow.mpr hs.2) (Int.not_le.mpr hlim)
        rw [if_pos hid, if_pos (by simpa using hid), Subscriber.struck, if_neg hno]
      · rw [if_neg hid, if_neg (by simpa using hid)]
    · rw [if_neg hlim]
      have hfull := le_failures_countFailureRow.mp (Int.not_lt.mp hlim)
      show (s.subscribers.rows.map _).map _ = _
      rw [List.map_map]
      refine List.map_congr_left fun r' hr' => ?_
      by_cases hid : r'.id = sid
      · obtain rfl := hone h r' hr' hid
        by_cases hq : r'.status = .quarantined
        · simp [Subscriber.struck, Subscriber.strikesOut, hid, hq, countFailureRow]
        · have hs : r'.strikesOut now := ⟨hq, hfull⟩
          simp [Subscriber.struck, hs, hid, hq, countFailureRow]
      · simp [hid]

/-- Whether a failure is the one that quarantines. -/
theorem fst_countFailure :
    (s.countFailure sid now).1 = true ↔
      ∃ r ∈ s.subscribers.rows, r.id = sid ∧ r.strikesOut now := by
  rw [countFailure]
  dsimp only
  rw [find?_counted]
  cases h : s.subscribers.find? sid with
  | none =>
    refine iff_of_false (by simp) ?_
    rintro ⟨r, hr, hid, -⟩
    exact Table.find?_eq_none_iff.mp h r hr hid
  | some r =>
    obtain ⟨hr, hid⟩ := Table.find?_eq_some_iff.mp h
    have hiff : (∃ r' ∈ s.subscribers.rows, r'.id = sid ∧ r'.strikesOut now) ↔
        r.strikesOut now := by
      refine ⟨fun ⟨r', hr', hid', hs⟩ => ?_, fun hs => ⟨r, hr, hid, hs⟩⟩
      rwa [Table.eq_of_id hr' hr (hid'.trans hid.symm)] at hs
    rw [hiff, Option.map_some]
    dsimp only
    split
    · rename_i hlim
      exact iff_of_false (by simp) fun hs =>
        absurd (le_failures_countFailureRow.mpr hs.2) (Int.not_le.mpr hlim)
    · rename_i hlim
      have hfull := le_failures_countFailureRow.mp (Int.not_lt.mp hlim)
      simp [Subscriber.strikesOut, hfull, countFailureRow]

theorem tables_countFailure :
    (s.countFailure sid now).2.components = s.components ∧
      (s.countFailure sid now).2.outbox = s.outbox ∧ (s.countFailure sid now).2.key = s.key := by
  rw [countFailure]
  dsimp only
  split
  · exact ⟨rfl, rfl, rfl⟩
  · split <;> exact ⟨rfl, rfl, rfl⟩

theorem rows_clearFailures :
    (s.clearFailures sid).subscribers.rows =
      s.subscribers.rows.map fun r => if r.id = sid then r.cleared else r := by
  refine List.map_congr_left fun r _ => ?_
  rw [Subscriber.cleared]
  by_cases hid : r.id = sid <;> by_cases hf : r.failuresInWindow > 0 <;> simp [hid, hf]

end Subs

/-! ### Handing a message over -/

/-- The channel said that the address is gone for good. -/
def SendResult.isGone (result : SendResult) : Bool := result.error.any (·.1 == .gone)

/-- The outbox row after its message was handed over. -/
def OutboxRow.attempted (now attempts : ℤ) (result : SendResult) (o : OutboxRow) : OutboxRow :=
  match result.error with
  | none => { o with sentAt := some now, attempts := attempts, lastError := none }
  | some (failure, text) =>
    let error := String.ofList (text.toList.take 500)
    if failure = .permanent ∨ attempts ≥ maxAttempts then
      { o with failedAt := some now, attempts := attempts, lastError := some error }
    else
      { o with
        nextAttemptAt := now + max (retryDelay attempts) failure.wait
        attempts := attempts
        lastError := some error }

theorem attempts_attempted (now attempts : ℤ) (result : SendResult) (o : OutboxRow) :
    (o.attempted now attempts result).attempts = attempts := by
  rw [OutboxRow.attempted]
  split
  · rfl
  · dsimp only
    split <;> rfl

/-- What a round may do to a message: move it on. -/
structure RoundMoves (o o' : OutboxRow) : Prop where
  id : o'.id = o.id
  subscriberId : o'.subscriberId = o.subscriberId
  kind : o'.kind = o.kind
  payload : o'.payload = o.payload
  waiting : o'.waiting = true → o.waiting = true

theorem RoundMoves.refl (o : OutboxRow) : RoundMoves o o :=
  ⟨rfl, rfl, rfl, rfl, fun h => h⟩

theorem RoundMoves.trans {o₁ o₂ o₃ : OutboxRow} (h : RoundMoves o₁ o₂) (h' : RoundMoves o₂ o₃) :
    RoundMoves o₁ o₃ :=
  ⟨h'.id.trans h.id, h'.subscriberId.trans h.subscriberId, h'.kind.trans h.kind,
    h'.payload.trans h.payload, fun hw => h.waiting (h'.waiting hw)⟩

theorem RoundMoves.attempted (now attempts : ℤ) (result : SendResult) (o : OutboxRow) :
    RoundMoves o (o.attempted now attempts result) := by
  rw [OutboxRow.attempted]
  split
  · exact ⟨rfl, rfl, rfl, rfl, fun hw => by simp [OutboxRow.waiting] at hw⟩
  · dsimp only
    split
    · exact ⟨rfl, rfl, rfl, rfl, fun hw => by simp [OutboxRow.waiting] at hw⟩
    · exact ⟨rfl, rfl, rfl, rfl, fun hw => hw⟩

/-- The subscriber after an outcome that did not remove it. -/
def Subscriber.answered (now : ℤ) (result : SendResult) (r : Subscriber) : Subscriber :=
  match result.error with
  | none => r.cleared
  | some (failure, _) => if failure.counts then r.struck now else r

/-- What is logged after a message was handed over: its subscriber quarantined or removed. -/
def aftermath (now sid : ℤ) (result : SendResult) (s : Subs) : List LogEntry :=
  match result.error with
  | none => []
  | some (failure, _) =>
    if failure = .gone then [.removed sid]
    else if failure.counts ∧ ∃ r ∈ s.subscribers.rows, r.id = sid ∧ r.strikesOut now then
      [.quarantined sid]
    else []

section HandOver

variable {cfg : Config} {now : ℤ} {row : DueRow} {m : Message} {env : SendEnv} {d : Dispatcher}
  {failure : Failure} {text : String}

theorem subs_onCounted :
    (onCounted now row failure d).subs =
      if failure.counts then (d.subs.countFailure row.sid now).2 else d.subs := by
  rw [onCounted]
  cases failure.counts with
  | false => rfl
  | true =>
    rcases d.subs.countFailure row.sid now with ⟨_ | _, subs⟩ <;> rfl

theorem log_onCounted :
    (onCounted now row failure d).log =
      d.log ++ if failure.counts ∧ ∃ r ∈ d.subs.subscribers.rows, r.id = row.sid ∧ r.strikesOut now
        then [.quarantined row.sid] else [] := by
  rw [onCounted]
  by_cases hs : ∃ r ∈ d.subs.subscribers.rows, r.id = row.sid ∧ r.strikesOut now
  · have hfst := Subs.fst_countFailure.mpr hs
    cases failure.counts <;> simp [hs, hfst]
  · have hfst : (d.subs.countFailure row.sid now).1 = false :=
      Bool.eq_false_iff.mpr fun h => hs (Subs.fst_countFailure.mp h)
    cases failure.counts <;> simp [hs, hfst]

theorem log_onFailed (text : String) :
    (onFailed now row failure text d).log = d.log := by
  rw [onFailed]
  dsimp only
  split <;> rfl

/-- The address is gone: the subscriber is deleted, and its messages with it. -/
theorem subs_handOver_of_gone (h : env.result.isGone = true) :
    (handOver cfg now row m env d).subs = d.subs.delete row.sid := by
  unfold SendResult.isGone at h
  unfold handOver onError
  cases herr : env.result.error with
  | none => simp [herr] at h
  | some error =>
    obtain ⟨failure, text⟩ := error
    have hgone : failure = .gone := by simpa [herr] using h
    dsimp only
    rw [if_pos hgone]

variable (h : env.result.isGone = false)
include h

theorem rows_handOver :
    (handOver cfg now row m env d).subs.subscribers.rows =
      d.subs.subscribers.rows.map fun r =>
        if r.id = row.sid then r.answered now env.result else r := by
  unfold SendResult.isGone at h
  unfold handOver Subscriber.answered
  cases herr : env.result.error with
  | none => exact Subs.rows_clearFailures
  | some error =>
    obtain ⟨failure, text⟩ := error
    have hne : ¬failure = .gone := by simpa [herr] using h
    dsimp only
    unfold onError onFailed
    rw [if_neg hne]
    dsimp only
    split <;> cases hc : failure.counts <;>
      simp [Subs.updateOutbox, subs_onCounted, hc, Subs.rows_countFailure]

theorem outbox_handOver :
    (handOver cfg now row m env d).subs.outbox.rows =
      d.subs.outbox.rows.map fun o =>
        if o.id = row.id then o.attempted now (row.attempts + 1) env.result else o := by
  unfold SendResult.isGone at h
  unfold handOver OutboxRow.attempted
  cases herr : env.result.error with
  | none =>
    simp [onSent, Subs.clearFailures, Subs.updateSubscribers, Subs.updateOutbox, Table.update]
  | some error =>
    obtain ⟨failure, text⟩ := error
    have hne : ¬failure = .gone := by simpa [herr] using h
    dsimp only
    unfold onError onFailed
    rw [if_neg hne]
    dsimp only
    split <;> cases hc : failure.counts <;>
      simp [Subs.updateOutbox, subs_onCounted, hc, Subs.tables_countFailure, Table.update]

omit h

theorem log_handOver :
    (handOver cfg now row m env d).log =
      d.log ++ .handed row.id row.sid row.channel (deliveryOf cfg row m) env.result ::
        aftermath now row.sid env.result d.subs := by
  rw [handOver, aftermath]
  cases env.result.error with
  | none => simp [onSent]
  | some error =>
    obtain ⟨failure, text⟩ := error
    dsimp only
    rw [onError]
    dsimp only
    split
    · simp
    · simp [log_onFailed, log_onCounted]

theorem key_handOver : (handOver cfg now row m env d).subs.key = d.subs.key := by
  rw [handOver]
  cases env.result.error with
  | none => rfl
  | some error =>
    obtain ⟨failure, text⟩ := error
    dsimp only
    rw [onError]
    dsimp only
    split
    · rfl
    · rw [onFailed]
      dsimp only
      split <;> cases hc : failure.counts <;>
        simp [Subs.updateOutbox, subs_onCounted, hc, Subs.tables_countFailure]

theorem next_handOver :
    (handOver cfg now row m env d).subs.outbox.next = d.subs.outbox.next := by
  rw [handOver]
  cases env.result.error with
  | none => rfl
  | some error =>
    obtain ⟨failure, text⟩ := error
    dsimp only
    rw [onError]
    dsimp only
    split
    · rfl
    · rw [onFailed]
      dsimp only
      split <;> cases hc : failure.counts <;>
        simp [Subs.updateOutbox, subs_onCounted, hc, Subs.tables_countFailure]

end HandOver

/-! ### One row of the snapshot -/

/-- What a round may do to a subscriber's row: count failures and quarantine it. -/
structure RoundKeeps (r r' : Subscriber) : Prop where
  id : r'.id = r.id
  channel : r'.channel = r.channel
  address : r'.address = r.address
  unsubHash : r'.unsubHash = r.unsubHash
  createdAt : r'.createdAt = r.createdAt
  confirmHash : r'.confirmHash = r.confirmHash
  confirmExpires : r'.confirmExpires = r.confirmExpires
  status : r'.status = r.status ∨ r'.status = .quarantined

theorem RoundKeeps.refl (r : Subscriber) : RoundKeeps r r :=
  ⟨rfl, rfl, rfl, rfl, rfl, rfl, rfl, .inl rfl⟩

theorem RoundKeeps.trans {r₁ r₂ r₃ : Subscriber} (h : RoundKeeps r₁ r₂) (h' : RoundKeeps r₂ r₃) :
    RoundKeeps r₁ r₃ := by
  refine ⟨h'.id.trans h.id, h'.channel.trans h.channel, h'.address.trans h.address,
    h'.unsubHash.trans h.unsubHash, h'.createdAt.trans h.createdAt,
    h'.confirmHash.trans h.confirmHash, h'.confirmExpires.trans h.confirmExpires, ?_⟩
  rcases h'.status with hs | hs
  · rw [hs]
    exact h.status
  · exact .inr hs

theorem RoundKeeps.answered (now : ℤ) (result : SendResult) (r : Subscriber) :
    RoundKeeps r (r.answered now result) := by
  rw [Subscriber.answered]
  split
  · rw [Subscriber.cleared]
    split <;> exact ⟨rfl, rfl, rfl, rfl, rfl, rfl, rfl, .inl rfl⟩
  · split
    · rw [Subscriber.struck]
      split
      · exact ⟨rfl, rfl, rfl, rfl, rfl, rfl, rfl, .inr rfl⟩
      · exact ⟨rfl, rfl, rfl, rfl, rfl, rfl, rfl, .inl rfl⟩
    · exact .refl r

/-- The tables still say of a snapshot's row what the snapshot says. -/
structure DueRow.Fresh (s : Subs) (row : DueRow) : Prop where
  outbox : ∀ o ∈ s.outbox.rows, o.id = row.id → o.waiting = true ∧ o.kind = row.kind ∧
    o.attempts = row.attempts ∧ o.subscriberId = row.sid
  subscriber : ∀ r ∈ s.subscribers.rows, r.id = row.sid → r.createdAt = row.createdAt ∧
    r.confirmExpires = row.confirmExpires ∧ (r.status = row.status ∨ r.status = .quarantined)

section Row

variable (cr : Crypto) (cfg : Config) (key : String) (now : ℤ)

/-- The message a row is handed to its channel with, if it gets that far. -/
def handing (row : DueRow) (env : SendEnv) (p : Pacer) : Option Message :=
  match prepare cr cfg key now row with
  | .message m =>
    if env.enabled && p.addressReady row.channel row.address row.channel.pacing env.readyAt then
      some m
    else none
  | _ => none

variable {cr cfg key now} {row row' : DueRow} {env : SendEnv} {d : Dispatcher} {m : Message}

theorem dispatchRow_of_handing (h : handing cr cfg key now row env d.pacer = some m) :
    dispatchRow cr cfg key now row env d = handOver cfg now row m env d := by
  unfold handing at h
  unfold dispatchRow
  cases hp : prepare cr cfg key now row with
  | message m' =>
    simp only [hp] at h ⊢
    cases he : env.enabled with
    | false => simp [he] at h
    | true =>
      cases ha : d.pacer.addressReady row.channel row.address row.channel.pacing env.readyAt with
      | false => simp [ha] at h
      | true =>
        simp only [he, ha, Bool.and_self, if_true, Option.some.injEq] at h
        simp [h]
  | skip => simp [hp] at h
  | giveUp error counted => simp [hp] at h

/-- A row that is not handed over is left alone or given up. -/
theorem dispatchRow_of_not_handing (h : handing cr cfg key now row env d.pacer = none) :
    dispatchRow cr cfg key now row env d = d ∨
      ∃ error stats, stats.quarantined = d.stats.quarantined ∧ stats.removed = d.stats.removed ∧
        dispatchRow cr cfg key now row env d =
          { d with subs := d.subs.giveUp row.id now error, stats := stats } := by
  unfold handing at h
  unfold dispatchRow
  cases he : env.enabled with
  | false => exact .inl rfl
  | true =>
    cases hp : prepare cr cfg key now row with
    | message m' =>
      cases ha : d.pacer.addressReady row.channel row.address row.channel.pacing env.readyAt with
      | false => exact .inl (by simp)
      | true => simp [hp, he, ha] at h
    | skip => exact .inl (by simp)
    | giveUp error counted =>
      refine .inr ⟨error, if counted then { d.stats with givenUp := d.stats.givenUp + 1 }
        else d.stats, ?_, ?_, by simp⟩ <;> split <;> rfl

/-- News is for active subscribers. -/
theorem prepare_eq_event {event : SubscriberEvent} {url : String}
    (h : prepare cr cfg key now row = .message (.event event url)) :
    row.kind ≠ "confirm" ∧ row.status = .active := by
  unfold prepare at h
  dsimp only at h
  split at h
  · split at h
    · split at h <;> cases h
    · cases h
  · rename_i hkind
    split at h
    · cases h
    · rename_i hactive
      exact ⟨hkind, not_not.mp hactive⟩

/-- A confirmation is for a pending subscriber, and its link is in time. -/
theorem prepare_eq_confirm {confirm unsubscribe : String}
    (h : prepare cr cfg key now row = .message (.confirm confirm unsubscribe)) :
    row.status = .pending ∧ ∃ e, row.confirmExpires = some e ∧ now < e ∧
      confirm = confirmUrl cfg (confirmToken cr key row.sid e) := by
  unfold prepare at h
  dsimp only at h
  split at h
  · split at h
    · rename_i e he
      split at h
      · rename_i hlive
        cases h
        exact ⟨hlive.1, e, he, hlive.2, rfl⟩
      · cases h
    · cases h
  · split at h
    · cases h
    · split at h <;> cases h

/-- Every message carries the unsubscribe link of its subscriber. -/
theorem unsubscribeUrl_of_prepare (h : prepare cr cfg key now row = .message m) :
    m.unsubscribeUrl = unsubscribeUrl cfg (unsubscribeToken cr key row.sid row.createdAt) := by
  unfold prepare at h
  dsimp only at h
  split at h
  · split at h
    · split at h <;> cases h
      rfl
    · cases h
  · split at h
    · cases h
    · split at h <;> cases h
      rfl

theorem prepare_of_handing {p : Pacer} (h : handing cr cfg key now row env p = some m) :
    prepare cr cfg key now row = .message m := by
  unfold handing at h
  split at h
  · rename_i m' hm
    split at h
    · rw [hm, Option.some.inj h]
    · cases h
  · cases h

theorem roundKeeps_dispatchRow {r' : Subscriber}
    (h : r' ∈ (dispatchRow cr cfg key now row env d).subs.subscribers.rows) :
    ∃ r ∈ d.subs.subscribers.rows, RoundKeeps r r' := by
  cases hm : handing cr cfg key now row env d.pacer with
  | none =>
    rcases dispatchRow_of_not_handing hm with hd | ⟨error, stats, -, -, hd⟩ <;> rw [hd] at h
    · exact ⟨r', h, .refl r'⟩
    · exact ⟨r', h, .refl r'⟩
  | some m =>
    rw [dispatchRow_of_handing hm] at h
    cases hg : env.result.isGone with
    | true =>
      rw [subs_handOver_of_gone hg] at h
      exact ⟨r', (Subs.mem_deleteSubscribers.mp h).1, .refl r'⟩
    | false =>
      rw [rows_handOver hg] at h
      obtain ⟨r, hr, rfl⟩ := List.mem_map.mp h
      refine ⟨r, hr, ?_⟩
      split
      · exact .answered now env.result r
      · exact .refl r

/-- A round moves no message but the row's own. -/
theorem roundMoves_dispatchRow {o' : OutboxRow}
    (h : o' ∈ (dispatchRow cr cfg key now row env d).subs.outbox.rows) :
    ∃ o ∈ d.subs.outbox.rows, RoundMoves o o' ∧ (o = o' ∨ o.id = row.id) := by
  cases hm : handing cr cfg key now row env d.pacer with
  | none =>
    rcases dispatchRow_of_not_handing hm with hd | ⟨error, stats, -, -, hd⟩ <;> rw [hd] at h
    · exact ⟨o', h, .refl o', .inl rfl⟩
    · obtain ⟨o, ho, rfl⟩ := Subs.mem_updateOutbox.mp h
      refine ⟨o, ho, ?_⟩
      split
      · exact ⟨⟨rfl, rfl, rfl, rfl, fun hw => by simp [OutboxRow.waiting] at hw⟩, .inr ‹_›⟩
      · exact ⟨.refl o, .inl rfl⟩
  | some m =>
    rw [dispatchRow_of_handing hm] at h
    cases hg : env.result.isGone with
    | true =>
      rw [subs_handOver_of_gone hg] at h
      exact ⟨o', (Subs.mem_outbox_deleteSubscribers.mp h).1, .refl o', .inl rfl⟩
    | false =>
      rw [outbox_handOver hg] at h
      obtain ⟨o, ho, rfl⟩ := List.mem_map.mp h
      refine ⟨o, ho, ?_⟩
      split
      · exact ⟨.attempted now (row.attempts + 1) env.result o, .inr ‹_›⟩
      · exact ⟨.refl o, .inl rfl⟩

theorem key_dispatchRow :
    (dispatchRow cr cfg key now row env d).subs.key = d.subs.key := by
  cases hm : handing cr cfg key now row env d.pacer with
  | none =>
    rcases dispatchRow_of_not_handing hm with hd | ⟨error, stats, -, -, hd⟩ <;> rw [hd]
    rfl
  | some m => rw [dispatchRow_of_handing hm, key_handOver]

theorem next_dispatchRow :
    (dispatchRow cr cfg key now row env d).subs.outbox.next = d.subs.outbox.next := by
  cases hm : handing cr cfg key now row env d.pacer with
  | none =>
    rcases dispatchRow_of_not_handing hm with hd | ⟨error, stats, -, -, hd⟩ <;> rw [hd]
    rfl
  | some m => rw [dispatchRow_of_handing hm, next_handOver]

/-- Another row's turn does not make a row stale. -/
theorem DueRow.Fresh.dispatchRow (h : row.Fresh d.subs) (hne : row.id ≠ row'.id) :
    row.Fresh (dispatchRow cr cfg key now row' env d).subs := by
  refine ⟨fun o ho hid => ?_, fun r hr hid => ?_⟩
  · obtain ⟨o₀, ho₀, hmoves, rfl | hid₀⟩ := roundMoves_dispatchRow ho
    · exact h.outbox o₀ ho₀ hid
    · exact absurd (hid.symm.trans (hmoves.id.trans hid₀)) hne
  · obtain ⟨r₀, hr₀, hs⟩ := roundKeeps_dispatchRow hr
    obtain ⟨hcreated, hexpires, hstatus⟩ := h.subscriber r₀ hr₀ (hs.id.symm.trans hid)
    refine ⟨hs.createdAt.trans hcreated, hs.confirmExpires.trans hexpires, ?_⟩
    rcases hs.status with hst | hst
    · rw [hst]
      exact hstatus
    · exact .inr hst

end Row

/-! ### The snapshot -/

section Snapshot

variable {s : Subs} {names : List Channel} {now : ℤ} {row : DueRow}

/-- A row of the snapshot is a due message and its subscriber. -/
theorem due_of_mem_dueRows (h : row ∈ s.dueRows names now) :
    ∃ o ∈ s.outbox.rows, ∃ r ∈ s.subscribers.rows, r.id = o.subscriberId ∧ row = .of o r ∧
      DueRow.due names now o r = true := by
  obtain ⟨o, ho, hrow⟩ := List.mem_filterMap.mp (List.mem_of_mem_take h)
  obtain ⟨r, hr, hif⟩ := Option.bind_eq_some_iff.mp hrow
  obtain ⟨hmem, hid⟩ := Table.find?_eq_some_iff.mp hr
  split at hif
  · rename_i hdue
    exact ⟨o, ho, r, hmem, hid, (Option.some.inj hif).symm, hdue⟩
  · cases hif

/-- A row of the snapshot is a waiting message and its pending or active subscriber. -/
theorem mem_dueRows (h : row ∈ s.dueRows names now) :
    ∃ o ∈ s.outbox.rows, ∃ r ∈ s.subscribers.rows, r.id = o.subscriberId ∧ row = .of o r ∧
      o.waiting = true ∧ (r.status = .pending ∨ r.status = .active) := by
  obtain ⟨o, ho, r, hr, hid, hrow, hdue⟩ := due_of_mem_dueRows h
  simp only [DueRow.due, Bool.and_eq_true, Bool.or_eq_true, beq_iff_eq] at hdue
  exact ⟨o, ho, r, hr, hid, hrow, hdue.1.1.1, hdue.1.2⟩

theorem sorted_dueRows : (s.dueRows names now).Pairwise fun a b => a.id < b.id := by
  refine List.Pairwise.sublist (List.take_sublist _ _) ?_
  refine List.Pairwise.filterMap _ (fun o o' hlt row hrow row' hrow' => ?_) s.outbox.sorted
  have hid : ∀ {o : OutboxRow} {row : DueRow}, ((s.subscribers.find? o.subscriberId).bind fun r =>
      if DueRow.due names now o r then some (DueRow.of o r) else none) = some row →
        row.id = o.id := fun h => by
    obtain ⟨r, -, hif⟩ := Option.bind_eq_some_iff.mp h
    split at hif
    · rw [← Option.some.inj hif]
      rfl
    · cases hif
  rw [hid hrow, hid hrow']
  exact hlt

theorem fresh_of_mem_dueRows (h : row ∈ s.dueRows names now) : row.Fresh s := by
  obtain ⟨o, ho, r, hr, hid, rfl, hw, hst⟩ := mem_dueRows h
  refine ⟨fun o' ho' hid' => ?_, fun r' hr' hid' => ?_⟩
  · obtain rfl : o' = o := Table.eq_of_id ho' ho hid'
    exact ⟨hw, rfl, rfl, hid.symm⟩
  · obtain rfl : r' = r := Table.eq_of_id hr' hr hid'
    exact ⟨rfl, rfl, .inl rfl⟩

end Snapshot

/-! ### A whole round -/

section Round

variable {cr : Crypto} {cfg : Config} {key : String} {now : ℤ} {envs : ℤ → SendEnv}
  {names : List Channel} {candidate : String} {d : Dispatcher}

/-- An invariant that every fresh row keeps survives the rest of a snapshot. -/
theorem dispatchRows_inv {I : Dispatcher → Prop} {rows : List DueRow} (h : I d)
    (hsorted : rows.Pairwise fun a b => a.id < b.id) (hfresh : ∀ row ∈ rows, row.Fresh d.subs)
    (hstep : ∀ d, ∀ row ∈ rows, I d → row.Fresh d.subs →
      I (dispatchRow cr cfg key now row (envs row.id) d)) :
    I (dispatchRows cr cfg key now envs rows d) := by
  induction rows generalizing d with
  | nil => exact h
  | cons row rows ih =>
    rw [List.pairwise_cons] at hsorted
    have hrow := hstep d row List.mem_cons_self h (hfresh row List.mem_cons_self)
    refine ih hrow hsorted.2 (fun row' hrow' => ?_)
      fun d' row' hrow' => hstep d' row' (List.mem_cons_of_mem _ hrow')
    have hne : row'.id ≠ row.id := (Int.ne_of_lt (hsorted.1 row' hrow')).symm
    exact (hfresh row' (List.mem_cons_of_mem _ hrow')).dispatchRow hne

/-- A round either finds nothing to do or works through its snapshot. -/
theorem dispatchDue_cases :
    dispatchDue cr cfg names candidate now envs d = { d with stats := {} } ∨
      dispatchDue cr cfg names candidate now envs d =
        dispatchRows cr cfg (d.subs.signingKey candidate).1 now envs (d.subs.dueRows names now)
          { d with stats := {}, subs := (d.subs.signingKey candidate).2 } := by
  rw [dispatchDue]
  dsimp only
  split
  · exact .inl rfl
  · exact .inr rfl

/-- **The round rule.** An invariant that does not depend on the round's statistics and survives
making the signing key and each fresh row of the snapshot survives the round. -/
theorem dispatchDue_inv {I : Dispatcher → Prop} (h : I d)
    (hstats : ∀ d, I d → I { d with stats := {} })
    (hkey : ∀ d, I d → I { d with subs := (d.subs.signingKey candidate).2 })
    (hstep : ∀ d' key, ∀ row ∈ d.subs.dueRows names now, I d' → d'.subs.key = some key →
      row.Fresh d'.subs → I (dispatchRow cr cfg key now row (envs row.id) d')) :
    I (dispatchDue cr cfg names candidate now envs d) := by
  rcases dispatchDue_cases with hd | hd <;> rw [hd]
  · exact hstats d h
  · have htables := d.subs.tables_signingKey candidate
    refine (dispatchRows_inv (I := fun d' => I d' ∧
        d'.subs.key = some (d.subs.signingKey candidate).1) ⟨?_, ?_⟩ sorted_dueRows
      (fun row hrow => ?_) fun d' row hrow ⟨hd', hk⟩ hf => ⟨?_, ?_⟩).1
    · exact hkey _ (hstats d h)
    · exact d.subs.key_signingKey candidate
    · have hf := fresh_of_mem_dueRows hrow
      refine ⟨fun o ho => hf.outbox o ?_, fun r hr => hf.subscriber r ?_⟩
      · rwa [← htables.2.2]
      · rwa [← htables.1]
    · exact hstep d' _ row hrow hd' hk hf
    · rw [key_dispatchRow, hk]

end Round

/-! ### The log of a round -/

section Log

variable (cr : Crypto) (cfg : Config) (key : String) (now : ℤ) (envs : ℤ → SendEnv)

/-- What handling one row adds to the log. -/
def entries (row : DueRow) (d : Dispatcher) : List LogEntry :=
  match handing cr cfg key now row (envs row.id) d.pacer with
  | some m =>
    .handed row.id row.sid row.channel (deliveryOf cfg row m) (envs row.id).result ::
      aftermath now row.sid (envs row.id).result d.subs
  | none => []

/-- What the rest of a snapshot adds to the log. -/
def later : List DueRow → Dispatcher → List LogEntry
  | [], _ => []
  | row :: rows, d =>
    entries cr cfg key now envs row d ++ later rows (dispatchRow cr cfg key now row (envs row.id) d)

variable {cr cfg key now envs} {row : DueRow} {rows : List DueRow} {d : Dispatcher}

theorem log_dispatchRow :
    (dispatchRow cr cfg key now row (envs row.id) d).log =
      d.log ++ entries cr cfg key now envs row d := by
  rw [entries]
  cases hm : handing cr cfg key now row (envs row.id) d.pacer with
  | none =>
    rw [List.append_nil]
    rcases dispatchRow_of_not_handing hm with hd | ⟨error, stats, -, -, hd⟩ <;> rw [hd]
  | some m => rw [dispatchRow_of_handing hm, log_handOver]

theorem log_dispatchRows :
    (dispatchRows cr cfg key now envs rows d).log = d.log ++ later cr cfg key now envs rows d := by
  induction rows generalizing d with
  | nil => exact (List.append_nil _).symm
  | cons row rows ih =>
    show (dispatchRows cr cfg key now envs rows _).log = _
    rw [ih, log_dispatchRow, later, List.append_assoc]

/-- The log of a round, as its snapshot gives it. -/
theorem log_run (ρ : Round) :
    (ρ.run cr d).log = d.log ++ later cr ρ.cfg (d.subs.signingKey ρ.candidate).1 ρ.now ρ.envs
      (d.subs.dueRows ρ.names ρ.now)
      { d with stats := {}, subs := (d.subs.signingKey ρ.candidate).2 } := by
  have hidle : ∀ l : List DueRow, l = [] → ∀ d', later cr ρ.cfg (d.subs.signingKey ρ.candidate).1
      ρ.now ρ.envs l d' = [] := by
    rintro _ rfl d'
    rfl
  rw [Round.run, dispatchDue]
  dsimp only
  split
  · rename_i hempty
    rw [hidle _ ?_, List.append_nil]
    rcases Bool.or_eq_true_iff.mp hempty with hn | hr
    · have hnames : ρ.names = [] := List.isEmpty_iff.mp hn
      simp [Subs.dueRows, DueRow.due, hnames]
    · exact List.isEmpty_iff.mp hr
  · exact log_dispatchRows

/-- A message that was handed over was prepared from a row of the snapshot. -/
theorem handed_of_mem_later {id sid : ℤ} {channel : Channel} {delivery : Delivery}
    {result : SendResult}
    (h : .handed id sid channel delivery result ∈ later cr cfg key now envs rows d) :
    ∃ row ∈ rows, ∃ m, prepare cr cfg key now row = .message m ∧ id = row.id ∧ sid = row.sid ∧
      channel = row.channel ∧ delivery = deliveryOf cfg row m := by
  have haftermath : ∀ {sid' result' s}, .handed id sid channel delivery result ∉
      aftermath now sid' result' s := fun hmem => by
    unfold aftermath at hmem
    split at hmem
    · exact List.not_mem_nil hmem
    · split at hmem
      · cases List.mem_singleton.mp hmem
      · split at hmem
        · cases List.mem_singleton.mp hmem
        · exact List.not_mem_nil hmem
  induction rows generalizing d with
  | nil => exact absurd h List.not_mem_nil
  | cons row rows ih =>
    rw [later, List.mem_append] at h
    rcases h with h | h
    · unfold entries at h
      split at h
      · rename_i m hm
        rcases List.mem_cons.mp h with heq | h
        · obtain ⟨rfl, rfl, rfl, rfl, -⟩ := LogEntry.handed.inj heq
          exact ⟨row, List.mem_cons_self, m, prepare_of_handing hm, rfl, rfl, rfl, rfl⟩
        · exact absurd h haftermath
      · exact absurd h List.not_mem_nil
    · obtain ⟨row', hrow', hrest⟩ := ih h
      exact ⟨row', List.mem_cons_of_mem _ hrow', hrest⟩

/-- The messages of a round are prepared from the tables it starts with. -/
theorem handed_of_mem_run {ρ : Round} {id sid : ℤ} {channel : Channel} {delivery : Delivery}
    {result : SendResult}
    (h : .handed id sid channel delivery result ∈ (ρ.run cr d).log.drop d.log.length) :
    ∃ o ∈ d.subs.outbox.rows, ∃ r ∈ d.subs.subscribers.rows, r.id = o.subscriberId ∧
      o.waiting = true ∧ id = o.id ∧ sid = r.id ∧ channel = r.channel ∧
        ∃ m, prepare cr ρ.cfg (d.subs.signingKey ρ.candidate).1 ρ.now (.of o r) = .message m ∧
          delivery = deliveryOf ρ.cfg (.of o r) m := by
  rw [log_run, List.drop_left] at h
  obtain ⟨row, hrow, m, hm, rfl, rfl, rfl, rfl⟩ := handed_of_mem_later h
  obtain ⟨o, ho, r, hr, hid, rfl, hw, -⟩ := mem_dueRows hrow
  exact ⟨o, ho, r, hr, hid, hw, rfl, rfl, rfl, m, hm, rfl⟩

end Log

end Dunlin

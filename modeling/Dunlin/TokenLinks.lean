import Dunlin.DoubleOptIn
import Dunlin.OutboxLifecycle
import Mathlib

/-!
# Links in messages

Tokens are not stored. They are derived again from a subscriber's row whenever a message is
prepared, and a link works if the hash of its token is in the row. `Minted` says that a row holds
the hashes of its own tokens, and every operation keeps it, so a link works as long as the columns
its token is derived from stay as they were (`links_work`).

A confirmation link also needs its row to stay pending. Failed sends may quarantine a subscriber,
but never a pending one: it is sent nothing but its confirmation, which is given up on before enough
failures have been counted (`Patient`).

## Scope

Deriving and hashing are parameters, and a `Crypto` has both as injective. A link is followed at any
later time, after any operations in between.

## Main results

* `Minted.step` — every operation leaves each row with the hashes of its own tokens
* `Patient.step`, `midway_run` — no round quarantines a pending subscriber
* `links_work` — unsubscribe and confirmation links, in every run
* `dead_after_unsubscribe` — why a deleted subscriber's confirmation link is an exception
-/

namespace Dunlin

open Lib

/-! ### Tokens -/

section Tokens

/-- The digits and the sign of a number are on one line. -/
theorem newline_notMem_toString (n : ℤ) : '\n' ∉ (toString n).toList := by
  have hdigits : ∀ m : ℕ, '\n' ∉ m.repr.toList := fun m hmem => by
    rw [Nat.toList_repr] at hmem
    exact absurd (Nat.isDigit_of_mem_toDigits (by decide) (by decide) hmem) (by decide)
  rw [Int.toString_eq_repr, Int.repr_eq_if]
  split
  · exact hdigits _
  · rw [String.toList_append, List.mem_append]
    rintro (h | h)
    · exact absurd h (by decide)
    · exact hdigits _ h

/-- A token tells which row and which time it was made for. -/
theorem deriveToken_inj {cr : Crypto} {key purpose : String} {id id' nonce nonce' : ℤ}
    (h : deriveToken cr key purpose id nonce = deriveToken cr key purpose id' nonce') :
    id = id' ∧ nonce = nonce' := by
  have hlist := congrArg String.toList (cr.hmac_injective key h)
  have hnewline : (toString "\n").toList = ['\n'] := rfl
  simp only [String.toList_append, hnewline, List.append_assoc, List.cons_append, List.nil_append]
    at hlist
  have hrest := (List.cons.inj (List.append_cancel_left hlist)).2
  obtain ⟨hid, -, hnonce⟩ := (List.append_cons_inj_of_notMem (newline_notMem_toString id)
    (newline_notMem_toString nonce)).mp hrest
  exact ⟨Int.repr_injective (String.toList_injective hid),
    Int.repr_injective (String.toList_injective hnonce)⟩

end Tokens

/-! ### The hashes in a row -/

/-- The row holds the hashes of its own tokens. -/
structure Subscriber.Minted (cr : Crypto) (key : String) (r : Subscriber) : Prop where
  unsub : r.unsubHash = cr.tokenHash (unsubscribeToken cr key r.id r.createdAt)
  confirm : r.confirmHash = none ∧ r.confirmExpires = none ∨
    ∃ e, r.confirmExpires = some e ∧
      r.confirmHash = some (cr.tokenHash (confirmToken cr key r.id e))

/-- Every row holds the hashes of its own tokens, under the one signing key. -/
def Minted (cr : Crypto) (s : Subs) : Prop :=
  ∀ r ∈ s.subscribers.rows, ∃ key, s.key = some key ∧ r.Minted cr key

section Minted

variable {cr : Crypto} {d : Dispatcher} {op : SubsOp} {r r' : Subscriber} {key : String}

theorem Subscriber.Minted.of_keeps (h : r.Minted cr key) (hkeeps : RoundKeeps r r') :
    r'.Minted cr key := by
  refine ⟨?_, ?_⟩
  · rw [hkeeps.unsubHash, hkeeps.id, hkeeps.createdAt]
    exact h.unsub
  · rw [hkeeps.confirmHash, hkeeps.confirmExpires, hkeeps.id]
    exact h.confirm

/-- What an operation makes of a row. -/
theorem Subscriber.Minted.becomes (h : r.Minted cr key) (hb : r.Becomes cr (some key) op r') :
    r'.Minted cr key := by
  cases hb with
  | same => exact h
  | renewed hkey =>
    obtain rfl := Option.some.inj hkey
    exact ⟨h.unsub, .inr ⟨_, rfl, rfl⟩⟩
  | activated => exact ⟨h.unsub, .inl ⟨rfl, rfl⟩⟩
  | linked => exact ⟨h.unsub, .inl ⟨rfl, rfl⟩⟩
  | merged => exact ⟨h.unsub, h.confirm⟩
  | dispatched hkeeps => exact h.of_keeps hkeeps

/-- **Every operation** leaves each row with the hashes of its own tokens. -/
theorem Minted.step (h : Minted cr d.subs) (op : SubsOp) : Minted cr (op.step cr d).subs := by
  intro r' hr'
  rcases SubsOp.row_step hr' with ⟨r, hr, hb⟩ | ⟨req, rnd, now, address, key, -, hkey, -, rfl⟩
  · obtain ⟨key, hkey, hminted⟩ := h r hr
    have hkey' : (op.step cr d).subs.key = some key := SubsOp.key_step hkey
    rw [hkey'] at hb
    exact ⟨key, hkey', hminted.becomes hb⟩
  · exact ⟨key, hkey, rfl, .inr ⟨_, rfl, rfl⟩⟩

theorem Subs.checkUnsubscribe_iff {s : Subs} {token : String} :
    s.checkUnsubscribe cr token = true ↔
      ∃ r ∈ s.subscribers.rows, r.unsubHash = cr.tokenHash token := by
  simp [checkUnsubscribe]

/-- A confirmation link is good for the pending row that holds its hash, until it expires. -/
theorem Subs.checkConfirm_of_mem {s : Subs} {token : String} {now e : ℤ}
    (hr : r ∈ s.subscribers.rows) (hhash : r.confirmHash = some (cr.tokenHash token))
    (hst : r.status = .pending) (he : r.confirmExpires = some e) (hnow : now < e) :
    s.checkConfirm cr token now = .valid := by
  have hfind : (s.subscribers.rows.find? fun r =>
      r.confirmHash == some (cr.tokenHash token) && r.status == .pending) = some r := by
    cases h : s.subscribers.rows.find? fun r =>
        r.confirmHash == some (cr.tokenHash token) && r.status == .pending with
    | none =>
      have hno := List.find?_eq_none.mp h r hr
      simp [hhash, hst] at hno
    | some r₁ =>
      have hprop : r₁.confirmHash = some (cr.tokenHash token) ∧ r₁.status = .pending := by
        simpa using List.find?_some h
      rw [eq_of_confirmHash (List.mem_of_find?_eq_some h) hr hprop.1 hhash]
  rw [checkConfirm]
  rw [hfind]
  dsimp only
  rw [he]
  exact if_pos hnow

end Minted

/-! ### Pending subscribers are not quarantined -/

/-- A pending subscriber waits for one confirmation at most and for nothing else, and its failures
are failed attempts at that. -/
structure Patient (s : Subs) : Prop where
  one : ∀ o ∈ s.outbox.rows, o.waiting = true → o.kind = "confirm" →
    ∀ o' ∈ s.outbox.rows, o'.waiting = true → o'.kind = "confirm" →
      o'.subscriberId = o.subscriberId → o' = o
  pending : ∀ r ∈ s.subscribers.rows, r.status = .pending → r.failuresInWindow ≤ maxAttempts ∧
    ∀ o ∈ s.outbox.rows, o.subscriberId = r.id → o.waiting = true →
      o.kind = "confirm" ∧ r.failuresInWindow ≤ o.attempts

/-- Only a sign-up without an address is pending on a channel that learns addresses later. -/
def Nameless (s : Subs) : Prop :=
  ∀ r ∈ s.subscribers.rows, r.channel = .telegram → r.status = .pending →
    ∃ x, r.address = pendingAddress ++ x

section Patience

variable {cr : Crypto} {cfg : Config} {key : String} {now : ℤ} {envs : ℤ → SendEnv} {row : DueRow}
  {d : Dispatcher} {s s' : Subs} {op : SubsOp} {r r' : Subscriber} {o : OutboxRow}

theorem Nameless.step (h : Nameless d.subs) (op : SubsOp) : Nameless (op.step cr d).subs := by
  intro r' hr' hchannel hst
  rcases SubsOp.row_step hr' with ⟨r, hr, hb⟩ | ⟨req, rnd, now, address, key, -, -, hx, rfl⟩
  · cases hb with
    | same => exact h _ hr hchannel hst
    | renewed _ hneeds hc _ =>
      have hneeds' : r.channel.needsAddress = true := hc ▸ hneeds
      rw [show r.channel = .telegram from hchannel] at hneeds'
      cases hneeds'
    | activated | linked | merged => cases hst
    | dispatched hkeeps =>
      rw [hkeeps.address]
      refine h r hr (hkeeps.channel.symm.trans hchannel) ?_
      rcases hkeeps.status with hs | hs
      · rw [← hs, hst]
      · rw [hs] at hst
        cases hst
  · refine hx.resolve_left fun hneeds => ?_
    rw [show req.channel = .telegram from hchannel] at hneeds
    cases hneeds

/-- An operation that adds nothing but news to active subscribers, and no pending row. -/
theorem Patient.of_rows (h : Patient s)
    (hrows : ∀ r' ∈ s'.subscribers.rows, r'.status = .pending → r' ∈ s.subscribers.rows)
    (hout : ∀ o ∈ s'.outbox.rows, o ∈ s.outbox.rows ∨ o.kind ≠ "confirm" ∧
      ∃ r ∈ s.subscribers.rows, r.status = .active ∧ o.subscriberId = r.id) : Patient s' := by
  have hold : ∀ o ∈ s'.outbox.rows, o.kind = "confirm" → o ∈ s.outbox.rows := fun o ho hkind =>
    (hout o ho).resolve_right fun hnew => hnew.1 hkind
  refine ⟨fun o ho hw hkind o' ho' hw' hkind' => h.one o (hold o ho hkind) hw hkind o'
    (hold o' ho' hkind') hw' hkind', fun r' hr' hst => ?_⟩
  obtain ⟨hfew, hwaits⟩ := h.pending r' (hrows r' hr' hst) hst
  refine ⟨hfew, fun o ho hsid hw => ?_⟩
  rcases hout o ho with ho | ⟨-, r, hr, hactive, hrsid⟩
  · exact hwaits o ho hsid hw
  · have heq := Table.eq_of_id hr (hrows r' hr' hst) (hrsid.symm.trans hsid)
    rw [heq, hst] at hactive
    cases hactive

/-- A queued confirmation takes the place of every message `sid` waits for. -/
theorem Patient.of_queues {sid : ℤ} {quarantined : Prop} (h : Patient s)
    (hq : s.Queues sid now quarantined s')
    (hrows : ∀ r' ∈ s'.subscribers.rows, r'.status = .pending →
      r'.id = sid ∧ r'.failuresInWindow = 0 ∨ r'.id ≠ sid ∧ r' ∈ s.subscribers.rows)
    (hnews : ∀ o ∈ s.outbox.rows, o.subscriberId = sid → o.waiting = true → o.kind ≠ "confirm" →
      quarantined) : Patient s' := by
  -- what waits for `sid` afterwards is the confirmation just queued
  have honly : ∀ o ∈ s'.outbox.rows, o.waiting = true → o.subscriberId = sid →
      o = .queued sid "confirm" .braces now s.outbox.next := by
    intro o ho hw hsid
    rcases (hq.mem o).mp ho with ⟨ho, hkept⟩ | rfl
    · refine absurd ⟨hsid, ?_⟩ hkept
      by_cases hkind : o.kind = "confirm"
      · have hsent : o.sentAt = none ∧ o.failedAt = none := by
          simpa [OutboxRow.waiting] using hw
        exact .inl ⟨hkind, hsent.1⟩
      · exact .inr ⟨hnews o ho hsid hw hkind, hw⟩
    · rfl
  have hold : ∀ o ∈ s'.outbox.rows, o.subscriberId ≠ sid → o ∈ s.outbox.rows := by
    intro o ho hsid
    rcases (hq.mem o).mp ho with ⟨ho, -⟩ | rfl
    · exact ho
    · exact absurd rfl hsid
  refine ⟨fun o ho hw hkind o' ho' hw' hkind' heq => ?_, fun r' hr' hst => ?_⟩
  · by_cases hsid : o.subscriberId = sid
    · rw [honly o ho hw hsid, honly o' ho' hw' (heq.trans hsid)]
    · exact h.one o (hold o ho hsid) hw hkind o' (hold o' ho' (heq ▸ hsid)) hw' hkind' heq
  · rcases hrows r' hr' hst with ⟨hid, hzero⟩ | ⟨hid, hr⟩
    · rw [hzero]
      refine ⟨by decide, fun o ho hsid hw => ?_⟩
      rw [honly o ho hw (hsid.trans hid)]
      exact ⟨rfl, Int.le_refl 0⟩
    · obtain ⟨hfew, hwaits⟩ := h.pending r' hr hst
      exact ⟨hfew, fun o ho hsid => hwaits o (hold o ho (hsid ▸ hid)) hsid⟩

theorem Patient.subscribe (h : Patient s) (howned : Owned s) (req : SignUp) (rnd : ℕ → String)
    (now : ℤ) : Patient (s.subscribe cr req rnd now) := by
  have hnobody : ∀ o ∈ s.outbox.rows, o.subscriberId ≠ s.subscribers.next := fun o ho hsid => by
    obtain ⟨r, hr, hid⟩ := howned o ho
    exact Int.ne_of_lt (s.subscribers.lt_next r hr) (hid.trans hsid)
  rcases Subs.subscribe_cases cr s req rnd now with hs | ⟨-, key, hw, hout⟩ | ⟨-, key, hw, hq⟩ |
    ⟨-, key, r₀, hren, hq⟩
  · rwa [hs]
  · refine ⟨hout ▸ h.one, fun r' hr' hst => ?_⟩
    rw [hout]
    rcases (hw.rows r').mp hr' with hr | rfl
    · exact h.pending r' hr hst
    · have hzero : (0 : ℤ) ≤ maxAttempts := by decide
      exact ⟨hzero, fun o ho hsid => absurd hsid (hnobody o ho)⟩
  · refine h.of_queues hq (fun r' hr' _ => ?_) fun o ho hsid => absurd hsid (hnobody o ho)
    rcases (hw.rows r').mp hr' with hr | rfl
    · exact .inr ⟨Int.ne_of_lt (s.subscribers.lt_next r' hr), hr⟩
    · exact .inl ⟨rfl, rfl⟩
  · refine h.of_queues hq (fun r' hr' _ => ?_) fun o ho hsid hw hkind => ?_
    · obtain ⟨r, hr, rfl⟩ := (hren.rows r').mp hr'
      split
      · exact .inl ⟨‹_›, rfl⟩
      · exact .inr ⟨‹_›, hr⟩
    · cases hst : r₀.status with
      | pending => exact absurd ((h.pending r₀ hren.mem hst).2 o ho hsid hw).1 hkind
      | active => exact absurd hst hren.inactive
      | quarantined => rfl

/-- One more failed attempt does not quarantine a pending subscriber. -/
theorem answered_of_pending {result : SendResult} (hst : r.status = .pending)
    (hfew : r.failuresInWindow < maxAttempts) :
    (r.answered now result).status = .pending ∧
      (r.answered now result).failuresInWindow ≤ max 0 r.failuresInWindow + 1 := by
  have hno : ¬r.strikesOut now := by
    rintro ⟨-, -, hlimit⟩
    have hmax : maxAttempts + 2 = quarantineFailures := rfl
    omega
  rw [Subscriber.answered]
  split
  · rw [Subscriber.cleared]
    split
    · refine ⟨hst, ?_⟩
      dsimp only
      omega
    · exact ⟨hst, by omega⟩
  · split
    · rw [Subscriber.struck, if_neg hno]
      refine ⟨hst, ?_⟩
      rw [Subs.countFailureRow]
      dsimp only
      split <;> omega
    · exact ⟨hst, by omega⟩

/-- The state of a round that started from `d`. -/
structure Midway (d d' : Dispatcher) : Prop where
  ledger : Ledger d'
  next : d'.subs.outbox.next = d.subs.outbox.next
  patient : Patient d'.subs
  stays : ∀ o ∈ d.subs.outbox.rows, o.Stays d'.subs
  pending : ∀ r ∈ d.subs.subscribers.rows, r.status = .pending →
    ∀ r' ∈ d'.subs.subscribers.rows, r'.id = r.id → r'.status = .pending

/-- A pending subscriber waits for no other message than the one being handed over, and the attempt
covers the failure it may count. -/
theorem Patient.answered (result : SendResult) (h : Patient d.subs) (hledger : Ledger d)
    (hf : row.Fresh d.subs) (hr : r ∈ d.subs.subscribers.rows) (hst : r.status = .pending)
    (hid : r.id = row.sid) (ho : o ∈ d.subs.outbox.rows) (hoid : o.id = row.id) :
    (r.answered now result).failuresInWindow ≤ maxAttempts ∧
      (r.answered now result).failuresInWindow ≤ row.attempts + 1 ∧
        ∀ p ∈ d.subs.outbox.rows, p.subscriberId = r.id → p.waiting = true →
          p.id = row.id ∧ p.kind = "confirm" := by
  obtain ⟨how, -, hattempts, hosid⟩ := hf.outbox o ho hoid
  obtain ⟨-, hwaits⟩ := h.pending r hr hst
  obtain ⟨hokind, hle⟩ := hwaits o ho (hosid.trans hid.symm) how
  have hlt := (hledger.rows o ho).retriable how
  have hnonneg : 0 ≤ o.attempts := by
    rw [(hledger.rows o ho).attempts]
    exact Int.natCast_nonneg _
  have hfew : (r.answered now result).failuresInWindow ≤ max 0 r.failuresInWindow + 1 :=
    (answered_of_pending hst (Int.lt_of_le_of_lt hle hlt)).2
  refine ⟨by omega, by omega, fun p hp hpsid hpw => ?_⟩
  have hpkind := (hwaits p hp hpsid hpw).1
  have hpo : p = o := h.one o ho how hokind p hp hpw hpkind
    (hpsid.trans (hid.trans hosid.symm))
  exact ⟨hpo ▸ hoid, hpkind⟩

/-- The row after a message was handed over, as far as patience goes. -/
theorem Patient.handOver {m : Message} {env : SendEnv} (h : Patient d.subs) (hledger : Ledger d)
    (hf : row.Fresh d.subs) (hgone : env.result.isGone = false)
    (hthere : ∀ r ∈ d.subs.subscribers.rows, r.id = row.sid → ∃ o ∈ d.subs.outbox.rows,
      o.id = row.id) : Patient (handOver cfg now row m env d).subs := by
  have hmoves : ∀ o, RoundMoves o
      (if o.id = row.id then o.attempted now (row.attempts + 1) env.result else o) := fun o => by
    split
    · exact .attempted now (row.attempts + 1) env.result o
    · exact .refl o
  refine ⟨fun o' ho' hw' hkind' p' hp' hv' hkind'' heq => ?_, fun r' hr' hst' => ?_⟩
  · rw [outbox_handOver hgone] at ho' hp'
    obtain ⟨o, ho, rfl⟩ := List.mem_map.mp ho'
    obtain ⟨p, hp, rfl⟩ := List.mem_map.mp hp'
    have hsame : p = o := by
      refine h.one o ho ((hmoves o).waiting hw') ((hmoves o).kind ▸ hkind') p hp
        ((hmoves p).waiting hv') ((hmoves p).kind ▸ hkind'') ?_
      rw [← (hmoves p).subscriberId, ← (hmoves o).subscriberId, heq]
    rw [hsame]
  · rw [rows_handOver hgone] at hr'
    rw [outbox_handOver hgone]
    obtain ⟨r, hr, rfl⟩ := List.mem_map.mp hr'
    by_cases hid : r.id = row.sid
    · rw [if_pos hid] at hst' ⊢
      have hkeeps := RoundKeeps.answered now env.result r
      have hst : r.status = .pending := by
        rcases hkeeps.status with hs | hs
        · rw [← hs, hst']
        · rw [hs] at hst'
          cases hst'
      obtain ⟨o, ho, hoid⟩ := hthere r hr hid
      obtain ⟨hfew, hcovered, hwaits⟩ := h.answered env.result hledger hf hr hst hid ho hoid
      refine ⟨hfew, fun o' ho' hsid hw' => ?_⟩
      obtain ⟨p, hp, rfl⟩ := List.mem_map.mp ho'
      have hpsid : p.subscriberId = r.id := by
        rw [← (hmoves p).subscriberId, hsid, hkeeps.id]
      obtain ⟨hpid, hpkind⟩ := hwaits p hp hpsid ((hmoves p).waiting hw')
      refine ⟨(hmoves p).kind.trans hpkind, ?_⟩
      rwa [if_pos hpid, attempts_attempted]
    · rw [if_neg hid] at hst' ⊢
      obtain ⟨hfew, hwaits⟩ := h.pending r hr hst'
      refine ⟨hfew, fun o' ho' hsid hw' => ?_⟩
      obtain ⟨o, ho, rfl⟩ := List.mem_map.mp ho'
      have hosid : o.subscriberId = r.id := by rw [← (hmoves o).subscriberId, hsid]
      have hother : o.id ≠ row.id := fun hoid =>
        hid (hosid.symm.trans (hf.outbox o ho hoid).2.2.2)
      rw [if_neg hother] at hw' ⊢
      exact hwaits o ho hosid hw'

theorem Patient.giveUp {id : ℤ} {error : String} (h : Patient s) :
    Patient (s.giveUp id now error) := by
  have hold : ∀ o ∈ (s.giveUp id now error).outbox.rows, o.waiting = true → o ∈ s.outbox.rows := by
    intro o ho hw
    obtain ⟨o₀, ho₀, rfl⟩ := Subs.mem_updateOutbox.mp ho
    split at hw
    · simp [OutboxRow.waiting] at hw
    · rename_i hne
      rwa [if_neg hne]
  refine ⟨fun o ho hw hkind o' ho' hw' => h.one o (hold o ho hw) hw hkind o' (hold o' ho' hw') hw',
    fun r hr hst => ?_⟩
  obtain ⟨hfew, hwaits⟩ := h.pending r hr hst
  exact ⟨hfew, fun o ho hsid hw => hwaits o (hold o ho hw) hsid hw⟩

theorem Patient.dispatchRow {env : SendEnv} (h : Patient d.subs) (hledger : Ledger d)
    (hf : row.Fresh d.subs)
    (hthere : ∀ r ∈ d.subs.subscribers.rows, r.id = row.sid → ∃ o ∈ d.subs.outbox.rows,
      o.id = row.id) : Patient (dispatchRow cr cfg key now row env d).subs := by
  cases hm : handing cr cfg key now row env d.pacer with
  | none =>
    rcases dispatchRow_of_not_handing hm with hd | ⟨error, stats, -, -, hd⟩ <;> rw [hd]
    · exact h
    · exact h.giveUp
  | some m =>
    rw [dispatchRow_of_handing hm]
    cases hg : env.result.isGone with
    | true =>
      rw [subs_handOver_of_gone hg]
      refine h.of_rows (fun r hr _ => (Subs.mem_deleteSubscribers.mp hr).1) fun o ho => ?_
      exact .inl (Subs.mem_outbox_deleteSubscribers.mp ho).1
    | false => exact h.handOver hledger hf hg hthere

/-- A pending subscriber with attempts to spare is pending after its message. -/
theorem pending_dispatchRow {env : SendEnv}
    (hfew : ∀ r ∈ d.subs.subscribers.rows, r.id = row.sid → r.status = .pending →
      r.failuresInWindow < maxAttempts)
    (hr' : r' ∈ (dispatchRow cr cfg key now row env d).subs.subscribers.rows) :
    ∃ r ∈ d.subs.subscribers.rows, r.id = r'.id ∧ (r.status = .pending → r'.status = .pending) := by
  cases hm : handing cr cfg key now row env d.pacer with
  | none =>
    rcases dispatchRow_of_not_handing hm with hd | ⟨error, stats, -, -, hd⟩ <;> rw [hd] at hr'
    · exact ⟨r', hr', rfl, id⟩
    · exact ⟨r', hr', rfl, id⟩
  | some m =>
    rw [dispatchRow_of_handing hm] at hr'
    cases hg : env.result.isGone with
    | true =>
      rw [subs_handOver_of_gone hg] at hr'
      exact ⟨r', (Subs.mem_deleteSubscribers.mp hr').1, rfl, id⟩
    | false =>
      rw [rows_handOver hg] at hr'
      obtain ⟨r, hr, rfl⟩ := List.mem_map.mp hr'
      refine ⟨r, hr, ?_⟩
      split
      · rename_i hsid
        exact ⟨(RoundKeeps.answered ..).id.symm, fun hst =>
          (answered_of_pending hst (hfew r hr hsid hst)).1⟩
      · exact ⟨rfl, id⟩

/-- **One row of a snapshot.** -/
theorem Midway.handled {d' : Dispatcher} {names : List Channel} {now₀ : ℤ} (h : Midway d d')
    (hrow : row ∈ d.subs.dueRows names now₀) (hf : row.Fresh d'.subs) :
    Midway d (dispatchRow cr cfg key now row (envs row.id) d') := by
  obtain ⟨o₀, ho₀, r₀, hr₀, hid₀, rfl, -⟩ := mem_dueRows hrow
  have hlt : o₀.id < d'.subs.outbox.next := by
    rw [h.next]
    exact d.subs.outbox.lt_next o₀ ho₀
  have hthere : ∀ r ∈ d'.subs.subscribers.rows, r.id = r₀.id → ∃ o ∈ d'.subs.outbox.rows,
      o.id = o₀.id := fun r hr hid => by
    rcases h.stays o₀ ho₀ with ⟨o, ho, hoid, -⟩ | hgone
    · exact ⟨o, ho, hoid⟩
    · exact absurd (hid.trans hid₀) (hgone r hr)
  have hfew : ∀ r ∈ d'.subs.subscribers.rows, r.id = r₀.id → r.status = .pending →
      r.failuresInWindow < maxAttempts := fun r hr hid hst => by
    obtain ⟨o, ho, hoid⟩ := hthere r hr hid
    obtain ⟨how, -, -, hosid⟩ := hf.outbox o ho hoid
    have hle := ((h.patient.pending r hr hst).2 o ho (hosid.trans hid.symm) how).2
    exact Int.lt_of_le_of_lt hle ((h.ledger.rows o ho).retriable how)
  refine ⟨h.ledger.handled hf hlt, next_dispatchRow.trans h.next,
    h.patient.dispatchRow h.ledger hf hthere, fun o ho => (h.stays o ho).handled,
    fun r hr hst r' hr' hid => ?_⟩
  obtain ⟨r₁, hr₁, hid₁, hkeeps⟩ := pending_dispatchRow hfew hr'
  exact hkeeps (h.pending r hr hst r₁ hr₁ (hid₁.trans hid))

/-- **A round** quarantines no pending subscriber. -/
theorem midway_run (hledger : Ledger d) (hpatient : Patient d.subs) (ρ : Round) :
    Midway d (ρ.run cr d) := by
  refine dispatchDue_inv ⟨hledger, rfl, hpatient, fun o ho => .inl ⟨o, ho, rfl, rfl⟩,
    fun r hr hst r' hr' hid => ?_⟩ (fun d' hd' => ?_) (fun d' hd' => ?_)
    fun d' key row hrow hd' _ hf => hd'.handled hrow hf
  · rwa [Table.eq_of_id hr' hr hid]
  · exact ⟨⟨hd'.ledger.owned, hd'.ledger.rows, hd'.ledger.known⟩, hd'.next, hd'.patient, hd'.stays,
      hd'.pending⟩
  · obtain ⟨hsubs, -, hout⟩ := d'.subs.tables_signingKey ρ.candidate
    refine ⟨⟨owned_signingKey hd'.ledger.owned ρ.candidate, ?_, ?_⟩, ?_, ⟨?_, ?_⟩,
      fun o ho => (hd'.stays o ho).signingKey ρ.candidate, ?_⟩
    · rw [hout]
      exact hd'.ledger.rows
    · rw [hout]
      exact hd'.ledger.known
    · rw [hout]
      exact hd'.next
    · rw [hout]
      exact hd'.patient.one
    · rw [hsubs, hout]
      exact hd'.patient.pending
    · rw [hsubs]
      exact hd'.pending

theorem Patient.step (h : Patient d.subs) (hledger : Ledger d) (op : SubsOp) :
    Patient (op.step cr d).subs := by
  by_cases hop : (∃ ρ, op = .dispatch ρ) ∨ ∃ req rnd now, op = .signUp req rnd now
  · rcases hop with ⟨ρ, rfl⟩ | ⟨req, rnd, now, rfl⟩
    · exact (midway_run hledger h ρ).patient
    · exact h.subscribe hledger.owned req rnd now
  · rw [not_or] at hop
    refine h.of_rows (fun r' hr' hst => ?_) fun o ho => ?_
    · rcases SubsOp.row_step hr' with ⟨r, hr, hb⟩ | ⟨req, rnd, now, address, k, hsign, -⟩
      · cases hb with
        | same => exact hr
        | renewed => exact absurd ⟨_, _, _, rfl⟩ hop.2
        | activated | linked | merged => cases hst
        | dispatched => exact absurd ⟨_, rfl⟩ hop.1
      · exact absurd ⟨_, _, _, hsign⟩ hop.2
    · rcases SubsOp.outbox_step (fun ρ hρ => hop.1 ⟨ρ, hρ⟩) ho with ho | ⟨-, hnew⟩
      · exact .inl ho
      · rcases hnew with ⟨req, rnd, now, sid, hsign, -⟩ | ⟨r, hr, hactive, -, event, now, -, hq⟩
        · exact absurd ⟨_, _, _, hsign⟩ hop.2
        · rw [hq]
          exact .inr ⟨SubscriberEvent.kind_ne_confirm event, r, hr, hactive, rfl⟩

end Patience

/-! ### Links -/

/-- The row `sid` is there after an operation. -/
def Present (cr : Crypto) (sid : ℤ) (d : Dispatcher) (op : SubsOp) : Prop :=
  ∃ r ∈ (op.step cr d).subs.subscribers.rows, r.id = sid

/-- A sign-up gives the row `sid` a new confirmation link. -/
def Replaces (cr : Crypto) (sid : ℤ) (d : Dispatcher) (op : SubsOp) : Prop :=
  (∃ req rnd now, op = .signUp req rnd now) ∧
  ∃ r ∈ d.subs.subscribers.rows, ∃ r' ∈ (op.step cr d).subs.subscribers.rows,
    r.id = sid ∧ r'.id = sid ∧ r'.confirmExpires ≠ r.confirmExpires

/-- What a round after `past` owes to the links it sends, up to any later time. -/
structure LinksWork (cr : Crypto) (past : List SubsOp) (ρ : Round) (future : List SubsOp) :
    Prop where
  /-- An unsubscribe link belongs to its subscriber and no other as long as the row exists. -/
  unsubscribe : ∀ id sid channel delivery result,
    .handed id sid channel delivery result ∈
        (ρ.run cr (run (SubsOp.step cr) .initial past)).log.drop
          (run (SubsOp.step cr) .initial past).log.length →
    Always (SubsOp.step cr) (fun d op => Present cr sid d op)
        (run (SubsOp.step cr) .initial past) (.dispatch ρ :: future) →
      ∃ token, delivery.message.unsubscribeUrl = unsubscribeUrl ρ.cfg token ∧
        (run (SubsOp.step cr) .initial (past ++ .dispatch ρ :: future)).subs.checkUnsubscribe cr
          token = true ∧
        ∀ r ∈ (run (SubsOp.step cr) .initial (past ++ .dispatch ρ :: future)).subs.subscribers.rows,
          r.unsubHash = cr.tokenHash token → r.id = sid
  /-- A confirmation link is good for its subscriber and no other until it expires, is used or is
  replaced, or the subscriber is deleted. -/
  confirm : ∀ id sid channel delivery result url unsubscribe,
    .handed id sid channel delivery result ∈
        (ρ.run cr (run (SubsOp.step cr) .initial past)).log.drop
          (run (SubsOp.step cr) .initial past).log.length →
    delivery.message = .confirm url unsubscribe →
    Always (SubsOp.step cr)
        (fun d op => Present cr sid d op ∧ ¬Activates cr sid d op ∧ ¬Replaces cr sid d op)
        (run (SubsOp.step cr) .initial past) (.dispatch ρ :: future) →
      ∃ token e, url = confirmUrl ρ.cfg token ∧
        (∃ r ∈ (run (SubsOp.step cr) .initial past).subs.subscribers.rows,
          r.id = sid ∧ r.confirmExpires = some e) ∧
        (∀ now < e, (run (SubsOp.step cr) .initial
          (past ++ .dispatch ρ :: future)).subs.checkConfirm cr token now = .valid) ∧
        ∀ r ∈ (run (SubsOp.step cr) .initial (past ++ .dispatch ρ :: future)).subs.subscribers.rows,
          r.confirmHash = some (cr.tokenHash token) → r.id = sid

/-- What holds in every state reached. -/
structure Trusty (cr : Crypto) (d : Dispatcher) : Prop where
  minted : Minted cr d.subs
  ledger : Ledger d
  patient : Patient d.subs
  nameless : Nameless d.subs

section Links

variable {cr : Crypto} {d : Dispatcher} {op : SubsOp} {r r' : Subscriber} {key token : String}
  {sid e c : ℤ} {past ops : List SubsOp}

theorem Trusty.step (h : Trusty cr d) (op : SubsOp) : Trusty cr (op.step cr d) :=
  ⟨h.minted.step op, h.ledger.step op, h.patient.step h.ledger op, h.nameless.step op⟩

theorem trusty_run (cr : Crypto) (past : List SubsOp) :
    Trusty cr (run (SubsOp.step cr) .initial past) := by
  have h₀ : Trusty cr Dispatcher.initial := by
    refine ⟨fun r hr => ?_, ⟨fun o ho => ?_, fun o ho => ?_, fun e he => ?_⟩,
      ⟨fun o ho => ?_, fun r hr => ?_⟩, fun r hr => ?_⟩
    · exact absurd hr List.not_mem_nil
    · exact absurd ho List.not_mem_nil
    · exact absurd ho List.not_mem_nil
    · exact absurd he List.not_mem_nil
    · exact absurd ho List.not_mem_nil
    · exact absurd hr List.not_mem_nil
    · exact absurd hr List.not_mem_nil
  exact Always.run_inv (M := fun _ _ => True) (.of_forall fun _ _ => trivial) h₀
    fun d op h _ => h.step op

/-- The row `sid` was created at `c`, under the signing key. -/
structure Bound (sid c : ℤ) (key : String) (d : Dispatcher) : Prop where
  row : ∃ r ∈ d.subs.subscribers.rows, r.id = sid ∧ r.createdAt = c
  key : d.subs.key = some key

theorem createdAt_of_becomes {key : Option String} (h : r.Becomes cr key op r') :
    r'.createdAt = r.createdAt := by
  cases h with
  | same | renewed | activated | linked | merged => rfl
  | dispatched hkeeps => exact hkeeps.createdAt

/-- A row that was there before and is there now is the same row. -/
theorem exists_becomes (hr : r ∈ d.subs.subscribers.rows)
    (hr' : r' ∈ (op.step cr d).subs.subscribers.rows) (hid : r'.id = r.id) :
    r.Becomes cr (op.step cr d).subs.key op r' := by
  rcases SubsOp.row_step hr' with ⟨r₁, hr₁, hb⟩ | ⟨req, rnd, now, address, k, -, -, -, rfl⟩
  · rwa [Table.eq_of_id hr hr₁ (hid.symm.trans (SubsOp.id_of_becomes hb))]
  · exact absurd hid.symm (Int.ne_of_lt (d.subs.subscribers.lt_next r hr))

theorem Bound.step (h : Bound sid c key d) (hp : Present cr sid d op) :
    Bound sid c key (op.step cr d) := by
  obtain ⟨r, hr, hid, hcreated⟩ := h.row
  obtain ⟨r', hr', hid'⟩ := hp
  refine ⟨⟨r', hr', hid', ?_⟩, SubsOp.key_step h.key⟩
  rw [createdAt_of_becomes (exists_becomes hr hr' (hid'.trans hid.symm)), hcreated]

/-- The row `sid` waits to be confirmed until `e`, under the signing key. -/
structure Open (sid e : ℤ) (key : String) (d : Dispatcher) : Prop where
  row : ∃ r ∈ d.subs.subscribers.rows, r.id = sid ∧ r.status = .pending ∧ r.confirmExpires = some e
  key : d.subs.key = some key

/-- An open row stays open until it is used or replaced. -/
theorem Open.step (h : Open sid e key d) (ht : Trusty cr d) (hp : Present cr sid d op)
    (huse : ¬Activates cr sid d op) (hrep : ¬Replaces cr sid d op) :
    Open sid e key (op.step cr d) := by
  obtain ⟨r, hr, hid, hst, hexp⟩ := h.row
  obtain ⟨r', hr', hid'⟩ := hp
  have hb := exists_becomes hr hr' (hid'.trans hid.symm)
  refine ⟨⟨r', hr', hid', ?_⟩, SubsOp.key_step h.key⟩
  have hnotActive : r'.status = .active → r.channel = .telegram ∧
      ∃ chat, r.address = chatAddress chat := fun hactive => by
    rcases hb.active hr hr' hactive with hwas | hact | hchat
    · rw [hst] at hwas
      cases hwas
    · exact absurd (hid' ▸ hact) huse
    · exact hchat
  have hnotChat : r'.status ≠ .active := fun hactive => by
    obtain ⟨hchannel, chat, haddress⟩ := hnotActive hactive
    obtain ⟨x, hx⟩ := ht.nameless r hr hchannel hst
    exact chatAddress_ne chat x (haddress.symm.trans hx)
  cases hb with
  | same => exact ⟨hst, hexp⟩
  | renewed =>
    refine ⟨rfl, ?_⟩
    by_contra hne
    exact hrep ⟨⟨_, _, _, rfl⟩, r, hr, _, hr', hid, hid', fun heq => hne (heq.trans hexp)⟩
  | activated | linked | merged => exact absurd rfl hnotChat
  | dispatched hkeeps =>
    have hmid : ∀ ρ : Round, Midway d (ρ.run cr d) := midway_run ht.ledger ht.patient
    exact ⟨(hmid _).pending r hr hst r' hr' hkeeps.id, hkeeps.confirmExpires.trans hexp⟩

/-- The link of a bound row is good, for that row alone. -/
theorem Bound.checkUnsubscribe (h : Bound sid c key d) (hm : Minted cr d.subs) :
    d.subs.checkUnsubscribe cr (unsubscribeToken cr key sid c) = true ∧
      ∀ r ∈ d.subs.subscribers.rows,
        r.unsubHash = cr.tokenHash (unsubscribeToken cr key sid c) → r.id = sid := by
  have hhash : ∀ r ∈ d.subs.subscribers.rows,
      r.unsubHash = cr.tokenHash (unsubscribeToken cr key r.id r.createdAt) := fun r hr => by
    obtain ⟨k, hk, hr⟩ := hm r hr
    rw [← Option.some.inj (hk.symm.trans h.key)]
    exact hr.unsub
  constructor
  · obtain ⟨r, hr, hid, hcreated⟩ := h.row
    refine Subs.checkUnsubscribe_iff.mpr ⟨r, hr, ?_⟩
    rw [hhash r hr, hid, hcreated]
  · intro r hr heq
    rw [hhash r hr] at heq
    exact (deriveToken_inj (cr.tokenHash_injective heq)).1

/-- The link of an open row is good until it expires, for that row alone. -/
theorem Open.checkConfirm (h : Open sid e key d) (hm : Minted cr d.subs) :
    (∀ now < e, d.subs.checkConfirm cr (confirmToken cr key sid e) now = .valid) ∧
      ∀ r ∈ d.subs.subscribers.rows,
        r.confirmHash = some (cr.tokenHash (confirmToken cr key sid e)) → r.id = sid := by
  have hhash : ∀ r ∈ d.subs.subscribers.rows, ∀ hash, r.confirmHash = some hash →
      ∃ e, r.confirmExpires = some e ∧ hash = cr.tokenHash (confirmToken cr key r.id e) := by
    intro r hr hash hsome
    obtain ⟨k, hk, hmr⟩ := hm r hr
    rw [← Option.some.inj (hk.symm.trans h.key)]
    rcases hmr.confirm with ⟨hnone, -⟩ | ⟨e, he, heq⟩
    · rw [hnone] at hsome
      cases hsome
    · exact ⟨e, he, Option.some.inj (hsome.symm.trans heq)⟩
  constructor
  · obtain ⟨r, hr, hid, hst, hexp⟩ := h.row
    intro now hnow
    refine Subs.checkConfirm_of_mem hr ?_ hst hexp hnow
    obtain ⟨k, hk, hmr⟩ := hm r hr
    rcases hmr.confirm with ⟨-, hnone⟩ | ⟨e', he', heq⟩
    · rw [hnone] at hexp
      cases hexp
    · rw [heq, Option.some.inj (he'.symm.trans hexp), hid, Option.some.inj (hk.symm.trans h.key)]
  · intro r hr hsome
    obtain ⟨e', -, heq⟩ := hhash r hr _ hsome
    exact (deriveToken_inj (cr.tokenHash_injective heq)).1.symm

end Links

/-- The key a round signs with is the one the tables were minted with. -/
theorem key_eq_signingKey {cr : Crypto} {s : Subs} (h : Minted cr s) {r : Subscriber}
    (hr : r ∈ s.subscribers.rows) (candidate : String) :
    s.key = some (s.signingKey candidate).1 := by
  obtain ⟨k, hk, -⟩ := h r hr
  rw [hk, (Subs.keepsKey_signingKey candidate).kept k hk]

/-- **Links work.** After every run each row holds the hashes of its own tokens. So an unsubscribe
link that a round sends works, for its subscriber alone, as long as the row exists, and a
confirmation link until it expires, is used or is replaced, or its subscriber is deleted. -/
theorem links_work (cr : Crypto) (past : List SubsOp) :
    Minted cr (run (SubsOp.step cr) .initial past).subs ∧
      ∀ ρ future, LinksWork cr past ρ future := by
  have ht := trusty_run cr past
  refine ⟨ht.minted, fun ρ future => ⟨?_, ?_⟩⟩
  · intro id sid channel delivery result hmem hpresent
    obtain ⟨o, -, r, hr, -, -, -, rfl, -, m, hm, rfl⟩ := handed_of_mem_run hmem
    have hbound : Bound r.id r.createdAt _ (run (SubsOp.step cr) .initial past) :=
      ⟨⟨r, hr, rfl, rfl⟩, key_eq_signingKey ht.minted hr ρ.candidate⟩
    have hafter := hpresent.run_inv hbound fun d op h hp => h.step hp
    rw [← run_append] at hafter
    exact ⟨_, unsubscribeUrl_of_prepare hm,
      hafter.checkUnsubscribe (trusty_run cr (past ++ .dispatch ρ :: future)).minted⟩
  · intro id sid channel delivery result url unsubscribe hmem hmessage hkept
    obtain ⟨o, -, r, hr, -, -, -, rfl, -, m, hm, rfl⟩ := handed_of_mem_run hmem
    obtain rfl : m = .confirm url unsubscribe := hmessage
    obtain ⟨hst, e, hexp, -, hurl⟩ := prepare_eq_confirm hm
    have hopen : Open r.id e _ (run (SubsOp.step cr) .initial past) :=
      ⟨⟨r, hr, rfl, hst, hexp⟩, key_eq_signingKey ht.minted hr ρ.candidate⟩
    have hafter := @Always.run_inv _ _ _ _ (fun d => Trusty cr d ∧ Open r.id e _ d) _ _ hkept
      ⟨ht, hopen⟩ fun d op h hp => ⟨h.1.step op, h.2.step h.1 hp.1 hp.2.1 hp.2.2⟩
    rw [← run_append] at hafter
    exact ⟨_, e, hurl, ⟨r, hr, rfl, hexp⟩,
      hafter.2.checkConfirm (trusty_run cr (past ++ .dispatch ρ :: future)).minted⟩

/-- A reader signs up at time 0. -/
def signsUp : SubsOp :=
  .signUp ⟨.email, "reader@example.org", true, [], true⟩ (fun _ => sampleKey) 0

/-- The mail server takes everything. -/
def sending : Round where
  cfg := sampleConfig
  names := [.email]
  candidate := sampleKey
  now := 0
  envs _ := { readyAt := 1000000000, waitAt := 1000000000, doneAt := 1005000000, result := .ok }

/-- The unsubscribe link of the reader. -/
def leaves : SubsOp := .unsubscribe (unsubscribeToken sampleCrypto sampleKey 1 0)

/-- **A deleted subscriber's confirmation link is dead**: the reader follows the unsubscribe link of
the confirmation before its other link, which has not expired, been used or been replaced. -/
theorem dead_after_unsubscribe :
    (∃ id channel delivery result,
      .handed id 1 channel delivery result ∈ (sending.run sampleCrypto
        (signsUp.step sampleCrypto .initial)).log ∧
      delivery.message = .confirm
        (confirmUrl sampleConfig (confirmToken sampleCrypto sampleKey 1 86400))
        (unsubscribeUrl sampleConfig (unsubscribeToken sampleCrypto sampleKey 1 0))) ∧
    Always (SubsOp.step sampleCrypto)
      (fun d op => ¬Activates sampleCrypto 1 d op ∧ ¬Replaces sampleCrypto 1 d op)
      (signsUp.step sampleCrypto .initial) [.dispatch sending, leaves] ∧
    (run (SubsOp.step sampleCrypto) .initial
      [signsUp, .dispatch sending, leaves]).subs.checkConfirm sampleCrypto
        (confirmToken sampleCrypto sampleKey 1 86400) 60 = .invalid := by
  have hidle : ∀ d op, (∀ token now, op ≠ .confirm token now) →
      (∀ token chat now, op ≠ .linkChat token chat now) →
      (∀ req rnd now, op ≠ .signUp req rnd now) →
      ¬Activates sampleCrypto 1 d op ∧ ¬Replaces sampleCrypto 1 d op := by
    intro d op hconfirm hlink hsign
    constructor
    · rintro ⟨⟨r, -, -, -, token, now, hop | ⟨chat, hop⟩, -⟩, -⟩
      · exact hconfirm token now hop
      · exact hlink token chat now hop
    · rintro ⟨⟨req, rnd, now, hop⟩, -⟩
      exact hsign req rnd now hop
  refine ⟨⟨1, .email, ⟨"reader@example.org", "Status", "UTC", sampleConfig.publicUrl, _⟩, .ok, ?_,
    rfl⟩, ⟨?_, ?_, trivial⟩, by decide⟩
  · decide
  · exact hidle _ _ nofun nofun nofun
  · exact hidle _ _ nofun nofun nofun

end Dunlin

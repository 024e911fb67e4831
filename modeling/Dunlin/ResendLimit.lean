import Dunlin.TokenLinks

/-!
# The form and the inbox

Anybody can type anybody's address into the form. What keeps the form from flooding an inbox is not
stored: `signUp` reads from `confirmExpires` when it last issued a confirmation, and does nothing
for a while after that. The column says so only as long as nobody but `signUp` and a confirmation
writes it, and as long as a deleted row's id is not given out again (`next_step`).

`Issued` ties the column to the past: it is the time of the last confirmation that was queued for
the row, plus how long a link is good for. Sign-ups have to come in the order of their times; what
comes in between need not.

## Scope

A confirmation counts from when it is queued. Whether it is sent, and how often it is tried, is the
outbox's affair (`OutboxLifecycle`).

## Main results

* `SubsOp.next_subscribers_le_step` — no id of a subscriber is given out twice
* `Issued.step` — the column goes on saying when the last confirmation was issued
* `inbox_spared` — how often an inbox can be written to because of the form
-/

namespace Dunlin

open Lib

/-! ### Ids of subscribers -/

section Next

variable {cr : Crypto} {cfg : Config} {key : String} {now sid : ℤ} {row : DueRow} {env : SendEnv}
  {s s' : Subs} {d : Dispatcher} {op : SubsOp} {req : SignUp} {rnd : ℕ → String}

theorem Subs.next_countFailure :
    (s.countFailure sid now).2.subscribers.next = s.subscribers.next := by
  rw [countFailure]
  dsimp only
  split
  · rfl
  · split <;> rfl

theorem next_subscribers_handOver {m : Message} :
    (handOver cfg now row m env d).subs.subscribers.next = d.subs.subscribers.next := by
  rw [handOver]
  cases env.result.error with
  | none => rfl
  | some error =>
    obtain ⟨failure, text⟩ := error
    dsimp only
    rw [onError]
    dsimp only
    split
    · rfl
    · rw [onFailed]
      dsimp only
      split <;> cases hc : failure.counts <;>
        simp [Subs.updateOutbox, subs_onCounted, hc, Subs.next_countFailure]

theorem next_subscribers_dispatchRow :
    (dispatchRow cr cfg key now row env d).subs.subscribers.next = d.subs.subscribers.next := by
  cases hm : handing cr cfg key now row env d.pacer with
  | none =>
    rcases dispatchRow_of_not_handing hm with hd | ⟨error, stats, -, -, hd⟩ <;> rw [hd]
    rfl
  | some m => rw [dispatchRow_of_handing hm, next_subscribers_handOver]

theorem Subs.next_queueConfirmation {candidate : String} {id : ℤ}
    (h : s.queueConfirmation cr req candidate now id = some s') :
    s'.subscribers.next = s.subscribers.next := by
  unfold queueConfirmation at h
  dsimp only at h
  obtain ⟨s₂, hs₂, hs'⟩ := Option.bind_eq_some_iff.mp h
  rw [← Option.some.inj hs']
  show s₂.subscribers.next = _
  rw [(updateUnique_eq_some hs₂).1, Table.next_update, (tables_signingKey _).1]
  split <;> rfl

theorem Subs.next_signUp (h : s.signUp cr req rnd now = some s') :
    s.subscribers.next ≤ s'.subscribers.next := by
  unfold signUp at h
  split at h
  · obtain ⟨⟨id, s₁⟩, hs₁, h⟩ := Option.bind_eq_some_iff.mp h
    obtain ⟨s₂, hs₂, h⟩ := Option.bind_eq_some_iff.mp h
    have hkey : s₂.subscribers.next = (s₁.signingKey (rnd 1)).2.subscribers.next := by
      rw [(updateUnique_eq_some hs₂).1]
      rfl
    rw [next_queueConfirmation h, hkey, (tables_signingKey _).1, (insertSubscriber_eq_some hs₁).2.1,
      Table.next_insert]
    omega
  · split at h
    · exact Int.le_of_eq (congrArg (·.subscribers.next) (Option.some.inj h))
    split at h
    · exact Int.le_of_eq (congrArg (·.subscribers.next) (Option.some.inj h))
    rw [next_queueConfirmation h]
    refine Int.le_of_eq ?_
    show s.subscribers.next = (if _ then _ else _ : Subs).subscribers.next
    split <;> rfl

theorem Subs.next_signUpByLink {res : String × Subs}
    (h : s.signUpByLink cr req rnd now = some res) :
    s.subscribers.next ≤ res.2.subscribers.next := by
  unfold signUpByLink at h
  dsimp only at h
  obtain ⟨⟨id, s₁⟩, hs₁, h⟩ := Option.bind_eq_some_iff.mp h
  obtain ⟨s₂, hs₂, h⟩ := Option.bind_eq_some_iff.mp h
  have hsubs : res.2.subscribers = s₂.subscribers := by
    rw [← Option.some.inj h]
    dsimp only
    split <;> rfl
  rw [hsubs, (updateUnique_eq_some hs₂).1, Table.next_update, (insertSubscriber_eq_some hs₁).2.1,
    Table.next_insert, (tables_signingKey _).1]
  omega

/-- The form gives out new ids only. -/
theorem Subs.next_le_subscribe (s : Subs) (req : SignUp) (rnd : ℕ → String) (now : ℤ) :
    s.subscribers.next ≤ (s.subscribe cr req rnd now).subscribers.next := by
  rw [subscribe]
  split
  · cases h : s.signUpByLink cr req rnd now with
    | none => exact Int.le_refl _
    | some res => exact next_signUpByLink h
  · cases h : s.signUp cr req rnd now with
    | none => exact Int.le_refl _
    | some s' => exact next_signUp h

theorem Subs.next_linkChat {token : String} {chat : ℤ} :
    (((s.linkChat cr token chat now).map (·.2)).getD s).subscribers.next = s.subscribers.next := by
  cases h : s.linkChat cr token chat now with
  | none => rfl
  | some res =>
    show res.2.subscribers.next = _
    unfold linkChat at h
    split at h
    · rw [← Option.some.inj h]
    split at h
    · rw [← Option.some.inj h]
    dsimp only at h
    split at h
    · rw [← Option.some.inj h]
      rfl
    · obtain ⟨s₁, hs₁, h⟩ := Option.bind_eq_some_iff.mp h
      rw [← Option.some.inj h]
      show s₁.subscribers.next = _
      rw [(updateUnique_eq_some hs₁).1, Table.next_update]

/-- **Ids are not given out again.** -/
theorem SubsOp.next_subscribers_le_step :
    d.subs.subscribers.next ≤ (op.step cr d).subs.subscribers.next := by
  cases op with
  | signUp req rnd now => exact Subs.next_le_subscribe d.subs req rnd now
  | confirm token now =>
    show _ ≤ (d.subs.confirm cr token now).2.subscribers.next
    rw [Subs.tables_confirm]
    exact Int.le_refl _
  | linkChat token chat now => exact Int.le_of_eq Subs.next_linkChat.symm
  | stopChat | unsubscribe | delete | prune | restart => exact Int.le_refl _
  | publish cfg event now =>
    exact Int.le_of_eq (congrArg (·.next) Subs.subscribers_publish).symm
  | dispatch ρ =>
    refine dispatchDue_inv (I := fun d' => d.subs.subscribers.next ≤ d'.subs.subscribers.next)
      (Int.le_refl _) (fun d' hd' => hd') (fun d' hd' => ?_)
      fun d' key row _ hd' _ _ => next_subscribers_dispatchRow.symm ▸ hd'
    rwa [(d'.subs.tables_signingKey ρ.candidate).1]

end Next

/-! ### What is between two confirmations -/

/-- When a sign-up came in. -/
def SubsOp.signedUpAt : SubsOp → Option ℤ
  | .signUp _ _ now => some now
  | _ => none

/-- The operation queues a confirmation for the row `sid`, created at `t`. -/
def Confirms (cr : Crypto) (sid t : ℤ) (d : Dispatcher) (op : SubsOp) : Prop :=
  ∃ o ∈ (op.step cr d).subs.outbox.rows, d.subs.outbox.next ≤ o.id ∧ o.kind = "confirm" ∧
    o.subscriberId = sid ∧ o.createdAt = t

/-- The row `sid` has been given out, and if it is still there, a confirmation was issued for it at
`t` or later. -/
structure Issued (sid t : ℤ) (d : Dispatcher) : Prop where
  known : sid < d.subs.subscribers.next
  expires : ∀ r ∈ d.subs.subscribers.rows, r.id = sid →
    ∃ e, r.confirmExpires = some e ∧ t + confirmTtlSecs ≤ e

section Between

variable {cr : Crypto} {d : Dispatcher} {op : SubsOp} {sid t : ℤ}

/-- A sign-up does nothing for an address that has just been sent a confirmation. -/
theorem Subs.signUp_of_recentlyIssued {s : Subs} {req : SignUp} {rnd : ℕ → String} {now : ℤ}
    {r : Subscriber} (hr : r ∈ s.subscribers.rows) (hchannel : r.channel = req.channel)
    (haddress : r.address = req.address) (hrecent : recentlyIssued r now = true) :
    s.signUp cr req rnd now = some s := by
  rw [signUp]
  rw [find?_of_address hr hchannel haddress]
  dsimp only
  split
  · rfl
  · simp

/-- Only a sign-up queues a confirmation, and it welcomes the row or renews one that has not just
been sent a confirmation. -/
theorem Confirms.cases (h : Confirms cr sid t d op) : ∃ req rnd key, op = .signUp req rnd t ∧
    ((sid = d.subs.subscribers.next ∧
        d.subs.Welcomes cr req req.address key t (op.step cr d).subs) ∨
      ∃ r₀, r₀.id = sid ∧ d.subs.Renews cr req key t r₀ (op.step cr d).subs ∧
        Subs.recentlyIssued r₀ t = false) := by
  obtain ⟨o, ho, hnew, hkind, hsid, ht⟩ := h
  have hold : o ∉ d.subs.outbox.rows := fun hmem =>
    absurd (d.subs.outbox.lt_next o hmem) (Int.not_lt.mpr hnew)
  by_cases hop : ∃ ρ, op = .dispatch ρ
  · obtain ⟨ρ, rfl⟩ := hop
    obtain ⟨o₀, ho₀, hmoves⟩ := SubsOp.roundMoves_run ho
    refine absurd (d.subs.outbox.lt_next o₀ ho₀) (Int.not_lt.mpr ?_)
    rw [id_outboxRow, ← hmoves.id]
    exact hnew
  rcases SubsOp.outbox_step (fun ρ hρ => hop ⟨ρ, hρ⟩) ho with ho' |
    ⟨-, ⟨req, rnd, now, -, rfl, -⟩ | ⟨r, -, -, cfg, event, now, -, hq⟩⟩
  · exact absurd ho' hold
  · have hqueued : ∀ {sid' quarantined},
        d.subs.Queues sid' now quarantined (SubsOp.step cr d (.signUp req rnd now)).subs →
        sid' = sid ∧ now = t := fun hq => by
      rcases (hq.mem o).mp ho with ⟨hmem, -⟩ | rfl
      · exact absurd hmem hold
      · exact ⟨hsid, ht⟩
    rcases Subs.subscribe_cases cr d.subs req rnd now with hs | ⟨-, key, -, hout⟩ |
      ⟨-, key, hw, hq⟩ | ⟨hn, key, r₀, hren, hq⟩
    · exact absurd (congrArg Subs.outbox hs ▸ ho) hold
    · exact absurd (hout ▸ ho) hold
    · obtain ⟨rfl, rfl⟩ := hqueued hq
      exact ⟨req, rnd, key, rfl, .inl ⟨rfl, hw⟩⟩
    · obtain ⟨rfl, rfl⟩ := hqueued hq
      refine ⟨req, rnd, key, rfl, .inr ⟨r₀, rfl, hren, ?_⟩⟩
      by_contra hrecent
      have hsame : d.subs.subscribe cr req rnd now = d.subs := by
        rw [Subs.subscribe, hn, Subs.signUp_of_recentlyIssued hren.mem hren.channel hren.address
          (Bool.not_eq_false _ ▸ hrecent)]
        rfl
      have hnext := hq.next
      rw [hsame] at hnext
      omega
  · rw [hq] at hkind
    exact absurd hkind (SubscriberEvent.kind_ne_confirm event)

/-- A confirmation is issued when it is queued. -/
theorem Confirms.issued (h : Confirms cr sid t d op) : Issued sid t (op.step cr d) := by
  obtain ⟨req, rnd, key, rfl, ⟨rfl, hw⟩ | ⟨r₀, rfl, hren, -⟩⟩ := h.cases
  · have hnew : req.newcomer cr req.address key t d.subs.subscribers.next ∈
        (SubsOp.step cr d (.signUp req rnd t)).subs.subscribers.rows := (hw.rows _).mpr (.inr rfl)
    refine ⟨(SubsOp.step cr d (.signUp req rnd t)).subs.subscribers.lt_next _ hnew, ?_⟩
    intro r hr hid
    rcases (hw.rows r).mp hr with hr | rfl
    · exact absurd hid (Int.ne_of_lt (d.subs.subscribers.lt_next r hr))
    · exact ⟨_, rfl, Int.le_refl _⟩
  · refine ⟨Int.lt_of_lt_of_le (d.subs.subscribers.lt_next r₀ hren.mem)
      SubsOp.next_subscribers_le_step, fun r hr hid => ?_⟩
    obtain ⟨r₁, hr₁, rfl⟩ := (hren.rows r).mp hr
    split
    · exact ⟨_, rfl, Int.le_refl _⟩
    · rename_i hne
      rw [if_neg hne] at hid
      exact absurd hid hne

/-- Until the row is confirmed, its column tells of the last confirmation. -/
theorem Issued.step (h : Issued sid t d) (huse : ¬Activates cr sid d op)
    (hlater : ∀ now ∈ op.signedUpAt, t ≤ now) : Issued sid t (op.step cr d) := by
  refine ⟨Int.lt_of_lt_of_le h.known SubsOp.next_subscribers_le_step, fun r' hr' hid => ?_⟩
  rcases SubsOp.row_step hr' with ⟨r, hr, hb⟩ | ⟨req, rnd, now, address, key, -, -, -, rfl⟩
  · have hrid : r.id = sid := (SubsOp.id_of_becomes hb).symm.trans hid
    cases hb with
    | same => exact h.expires _ hr hrid
    | renewed =>
      refine ⟨_, rfl, ?_⟩
      have hle := hlater _ rfl
      omega
    | activated hconfirms =>
      obtain ⟨hhash, hst, hexp⟩ := Subs.confirms_iff.mp hconfirms
      exact absurd ⟨⟨r, hr, hrid, hst, _, _, .inl rfl, hhash, hexp⟩, _, hr', hid, rfl⟩ huse
    | linked hopens =>
      exact absurd ⟨⟨r, hr, hrid, hopens.status, _, _, .inr ⟨_, rfl⟩, hopens.hash, hopens.expires⟩,
        _, hr', hid, rfl⟩ huse
    | merged => exact h.expires r hr hrid
    | dispatched hkeeps =>
      rw [hkeeps.confirmExpires]
      exact h.expires r hr hrid
  · exact absurd hid.symm (Int.ne_of_lt h.known)

/-- A row issued a confirmation at `t` is queued the next one much later. -/
theorem Issued.spaced {t' : ℤ} (h : Issued sid t d) (h' : Confirms cr sid t' d op) :
    confirmResendSecs ≤ t' - t := by
  obtain ⟨req, rnd, key, -, ⟨hid, -⟩ | ⟨r₀, hid, hren, hrecent⟩⟩ := h'.cases
  · exact absurd hid (Int.ne_of_lt h.known)
  · obtain ⟨e, he, hle⟩ := h.expires r₀ hren.mem hid
    rw [Subs.recentlyIssued, he, Option.map_some, Option.any_some,
      decide_eq_false_iff_not] at hrecent
    omega

/-- Through operations that do not confirm the row. -/
theorem Issued.run {ops : List SubsOp} (h : Issued sid t d)
    (huse : Always (SubsOp.step cr) (fun d op => ¬Activates cr sid d op) d ops)
    (hlater : ∀ op ∈ ops, ∀ now ∈ op.signedUpAt, t ≤ now) :
    Issued sid t (run (SubsOp.step cr) d ops) := by
  induction ops generalizing d with
  | nil => exact h
  | cons op ops ih =>
    obtain ⟨hop, hrest⟩ := List.forall_mem_cons.mp hlater
    exact ih (h.step huse.1 hop) huse.2 hrest

end Between

/-! ### Every run -/

/-- The link of a confirmation that the round hands over is the one that is good for its subscriber,
before the round and, unless the row is deleted, after it. -/
def SendsGoodLinks (cr : Crypto) (d : Dispatcher) (ρ : Round) : Prop :=
  ∀ id sid channel delivery result url unsubscribe,
    .handed id sid channel delivery result ∈ (ρ.run cr d).log.drop d.log.length →
    delivery.message = .confirm url unsubscribe →
      ∃ token, url = confirmUrl ρ.cfg token ∧ d.subs.checkConfirm cr token ρ.now = .valid ∧
        ((∃ r ∈ (ρ.run cr d).subs.subscribers.rows, r.id = sid) →
          (ρ.run cr d).subs.checkConfirm cr token ρ.now = .valid) ∧
        (∃ r ∈ d.subs.subscribers.rows, r.id = sid ∧
          ∀ token', r.confirmHash = some (cr.tokenHash token') ↔ token' = token)

/-- What a run owes to the inbox of a subscriber. -/
structure Spares (cr : Crypto) (ops : List SubsOp) : Prop where
  /-- Confirmations of a row that is not confirmed between them are queued at a distance. -/
  spaced : ∀ past op between op' later sid t t', ops = past ++ op :: (between ++ op' :: later) →
    Confirms cr sid t (run (SubsOp.step cr) .initial past) op →
    Always (SubsOp.step cr) (fun d op => ¬Activates cr sid d op)
      (run (SubsOp.step cr) .initial (past ++ [op])) between →
    Confirms cr sid t' (run (SubsOp.step cr) .initial (past ++ [op] ++ between)) op' →
    confirmResendSecs ≤ t' - t
  /-- A subscriber waits for one confirmation at most. -/
  one : ∀ o ∈ (run (SubsOp.step cr) .initial ops).subs.outbox.rows,
    o.waiting = true → o.kind = "confirm" →
      ∀ o' ∈ (run (SubsOp.step cr) .initial ops).subs.outbox.rows,
        o'.waiting = true → o'.kind = "confirm" → o'.subscriberId = o.subscriberId → o' = o
  link : ∀ ρ, SendsGoodLinks cr (run (SubsOp.step cr) .initial ops) ρ

theorem Trusty.sendsGoodLinks {cr : Crypto} {d : Dispatcher} (h : Trusty cr d) (ρ : Round) :
    SendsGoodLinks cr d ρ := by
  intro id sid channel delivery result url unsubscribe hmem hmessage
  obtain ⟨o, -, r, hr, -, -, -, rfl, -, m, hm, rfl⟩ := handed_of_mem_run hmem
  obtain rfl : m = .confirm url unsubscribe := hmessage
  obtain ⟨hst, e, hexp, hnow, hurl⟩ := prepare_eq_confirm hm
  have hopen : Open r.id e _ d :=
    ⟨⟨r, hr, rfl, hst, hexp⟩, key_eq_signingKey h.minted hr ρ.candidate⟩
  refine ⟨_, hurl, (hopen.checkConfirm h.minted).1 _ hnow, fun hpresent => ?_, r, hr, rfl, ?_⟩
  · have huse : ¬Activates cr r.id d (.dispatch ρ) := by
      rintro ⟨⟨r, -, -, -, token, now, hop | ⟨chat, hop⟩, -⟩, -⟩ <;> cases hop
    have hrep : ¬Replaces cr r.id d (.dispatch ρ) := by
      rintro ⟨⟨req, rnd, now, hop⟩, -⟩
      cases hop
    have hthere : Present cr r.id d (.dispatch ρ) := hpresent
    have hafter := hopen.step h hthere huse hrep
    exact (hafter.checkConfirm (h.minted.step (.dispatch ρ))).1 _ hnow
  · intro token
    obtain ⟨k, hk, hminted⟩ := h.minted r hr
    rcases hminted.confirm with ⟨-, hnone⟩ | ⟨e', he', hhash⟩
    · exact absurd (hexp.symm.trans hnone) (by simp)
    · rw [hhash, Option.some.inj (he'.symm.trans hexp), Option.some.inj (hk.symm.trans hopen.key),
        Option.some.injEq, cr.tokenHash_injective.eq_iff]
      exact eq_comm

/-- **The form cannot flood an inbox.** With sign-ups in the order of their times and anything else
between them: two confirmations queued for a row that is not confirmed meanwhile are
`confirmResendSecs` apart, a subscriber never waits for more than one, and the link of one that is
handed over is the one that is good for its subscriber. -/
theorem inbox_spared (cr : Crypto) (ops : List SubsOp)
    (hsorted : (ops.filterMap SubsOp.signedUpAt).Pairwise (· ≤ ·)) : Spares cr ops := by
  refine ⟨?_, (trusty_run cr ops).patient.one, fun ρ => (trusty_run cr ops).sendsGoodLinks ρ⟩
  intro past op between op' later sid t t' hops hfirst huse hsecond
  obtain ⟨req, rnd, key, rfl, -⟩ := hfirst.cases
  have hlater : ∀ op ∈ between, ∀ now ∈ op.signedUpAt, t ≤ now := by
    intro op hop now hnow
    rw [hops, List.filterMap_append] at hsorted
    have hrest : (t :: (between ++ op' :: later).filterMap SubsOp.signedUpAt).Pairwise (· ≤ ·) :=
      (List.pairwise_append.mp hsorted).2.1
    exact (List.pairwise_cons.mp hrest).1 now
      (List.mem_filterMap.mpr ⟨op, List.mem_append_left _ hop, hnow⟩)
  have hissued := hfirst.issued
  rw [run_append] at huse hsecond
  rw [run_append] at hsecond
  exact (hissued.run huse hlater).spaced hsecond

/-- The reader's address is typed into the form again, too early and then late enough. -/
def typedAgain : List SubsOp :=
  [signsUp, .dispatch sending, .signUp ⟨.email, "reader@example.org", true, [], true⟩
      (fun _ => sampleKey) 899,
    .signUp ⟨.email, "reader@example.org", true, [], true⟩ (fun _ => sampleKey) 900]

theorem inbox_spared_typedAgain :
    (run (SubsOp.step sampleCrypto) .initial typedAgain).subs.outbox.rows.map (·.createdAt) =
        [0, 900] ∧ Spares sampleCrypto typedAgain :=
  ⟨by decide, inbox_spared sampleCrypto typedAgain (by decide)⟩

end Dunlin

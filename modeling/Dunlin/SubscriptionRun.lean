import Dunlin.DispatchRun
import Dunlin.SubscriptionSystem

/-!
# What each operation on subscriptions does

The functions behind `SubsOp`, read once. Signing up either does nothing, welcomes a newcomer or
renews a row; linking a chat either does nothing, gives the pending row its chat or merges it into
the chat's row. What each does to the rows is a structure (`Welcomes`, `Renews`, `Links`, `Merges`),
and later proofs take an operation apart with these and never unfold it.

What holds of every operation comes after: a row of the later state comes from a row of the earlier
one, changed in a way that has a name (`Subscriber.Becomes`), or has just signed up; the signing key
never changes once it is made; outside a round of deliveries no message changes at all.

## Main results

* `signUp_eq_some`, `linkChat_eq_some`, `confirms_iff` — when an operation does something, and what
* `subscribe_cases` — the form, over all channels
* `row_step`, `key_step`, `outbox_step` — rows, key and messages across one operation
* `Owned.step` — every message has its subscriber
-/

namespace Dunlin

open Lib

section Rows

variable (cr : Crypto)

/-- The row a sign-up for a new address leaves. -/
def SignUp.newcomer (req : SignUp) (address key : String) (now id : ℤ) : Subscriber :=
  { req.row address (cr.tokenHash (unsubscribeToken cr key id now))
      (some (now + confirmTtlSecs)) now id with
    confirmHash := some (cr.tokenHash (confirmToken cr key id (now + confirmTtlSecs))) }

/-- A row with a new confirmation token. -/
def Subscriber.issued (key : String) (now : ℤ) (r : Subscriber) : Subscriber :=
  { r with
    confirmHash := some (cr.tokenHash (confirmToken cr key r.id (now + confirmTtlSecs)))
    confirmExpires := some (now + confirmTtlSecs) }

/-- A row that signed up again, before its token is issued. -/
def Subscriber.reset (req : SignUp) (r : Subscriber) : Subscriber :=
  { r with
    allComponents := req.allComponents
    maintenance := req.maintenance
    status := .pending
    failureWindowStart := none
    failuresInWindow := 0
    quarantinedAt := none }

/-- The row a sign-up for a known address leaves. -/
def Subscriber.renewed (req : SignUp) (key : String) (now : ℤ) (r : Subscriber) : Subscriber :=
  (r.reset req).issued cr key now

/-- A confirmed row. -/
def Subscriber.activated (now : ℤ) (r : Subscriber) : Subscriber :=
  { r with
    status := .active
    confirmedAt := some now
    confirmHash := none
    confirmExpires := none }

/-- The signing key is the one there was, if there was one. -/
structure Subs.KeepsKey (key : String) (s s' : Subs) : Prop where
  made : s'.key = some key
  kept : ∀ k, s.key = some k → k = key

/-- A newcomer has been added to the subscribers. -/
structure Subs.Welcomes (req : SignUp) (address key : String) (now : ℤ) (s s' : Subs) : Prop
    extends s.KeepsKey key s' where
  rows : ∀ r, r ∈ s'.subscribers.rows ↔
    r ∈ s.subscribers.rows ∨ r = req.newcomer cr address key now s.subscribers.next

/-- The row `r₀` has signed up again. -/
structure Subs.Renews (req : SignUp) (key : String) (now : ℤ) (r₀ : Subscriber) (s s' : Subs) : Prop
    extends s.KeepsKey key s' where
  mem : r₀ ∈ s.subscribers.rows
  channel : r₀.channel = req.channel
  address : r₀.address = req.address
  inactive : r₀.status ≠ .active
  rows : ∀ r, r ∈ s'.subscribers.rows ↔ ∃ r₁ ∈ s.subscribers.rows,
    (if r₁.id = r₀.id then r₁.renewed cr req key now else r₁) = r

/-- The messages a new confirmation to `sid` takes the place of: its other confirmations not
delivered, and what waits for it while it is quarantined. -/
def Replaced (sid : ℤ) (quarantined : Prop) (o : OutboxRow) : Prop :=
  o.subscriberId = sid ∧ (o.kind = "confirm" ∧ o.sentAt = none ∨ quarantined ∧ o.waiting = true)

/-- A confirmation to `sid` has been queued. -/
structure Subs.Queues (sid now : ℤ) (quarantined : Prop) (s s' : Subs) : Prop where
  mem : ∀ o, o ∈ s'.outbox.rows ↔ o ∈ s.outbox.rows ∧ ¬Replaced sid quarantined o ∨
    o = .queued sid "confirm" .braces now s.outbox.next
  next : s'.outbox.next = s.outbox.next + 1

/-- A pending sign-up is waiting for the chat that presents its token in time. -/
structure Subscriber.Opens (token : String) (now : ℤ) (p : Subscriber) : Prop where
  channel : p.channel = .telegram
  status : p.status = .pending
  hash : p.confirmHash = some (cr.tokenHash token)
  expires : ∃ e, p.confirmExpires = some e ∧ now < e

/-- The pending row `p` has found its chat. -/
structure Subs.Links (token : String) (chat now : ℤ) (p : Subscriber) (s s' : Subs) : Prop where
  mem : p ∈ s.subscribers.rows
  opens : p.Opens cr token now
  rows : ∀ r, r ∈ s'.subscribers.rows ↔ ∃ r₁ ∈ s.subscribers.rows,
    (if r₁.id = p.id then Subs.linked chat now r₁ else r₁) = r
  outbox : s'.outbox = s.outbox
  key : s'.key = s.key

/-- The chat's row `x` has taken over the choices of the pending row `p`, which is gone. -/
structure Subs.Merges (token : String) (chat now : ℤ) (p x : Subscriber) (s s' : Subs) : Prop where
  mem : p ∈ s.subscribers.rows
  opens : p.Opens cr token now
  mem_chat : x ∈ s.subscribers.rows
  channel : x.channel = .telegram
  address : x.address = chatAddress chat
  rows : ∀ r, r ∈ s'.subscribers.rows ↔ ∃ r₁ ∈ s.subscribers.rows, r₁.id ≠ p.id ∧
    (if r₁.id = x.id then Subs.relinked p now r₁ else r₁) = r
  outbox : ∀ o, o ∈ s'.outbox.rows ↔ o ∈ s.outbox.rows ∧ o.subscriberId ≠ p.id
  next : s'.outbox.next = s.outbox.next
  key : s'.key = s.key

end Rows

namespace Subs

section SignUp

variable {cr : Crypto} {req : SignUp} {candidate : String} {now id : ℤ} {s s' : Subs}

theorem keepsKey_signingKey (candidate : String) :
    s.KeepsKey (s.signingKey candidate).1 (s.signingKey candidate).2 := by
  refine ⟨key_signingKey candidate, fun k hk => ?_⟩
  simp [signingKey, hk]

theorem queueConfirmation_eq_some (h : s.queueConfirmation cr req candidate now id = some s') :
    ∃ key, s.KeepsKey key s' ∧
      (∀ r, r ∈ s'.subscribers.rows ↔ ∃ r₀ ∈ s.subscribers.rows,
        (if r₀.id = id then r₀.issued cr key now else r₀) = r) ∧ s.Queues id now False s' := by
  unfold queueConfirmation at h
  dsimp only at h
  generalize hs₁ : (if req.allComponents = true then s.clearComponents id
    else (s.clearComponents id).addComponents id req.components) = s₁ at h
  have hsame : s₁.subscribers = s.subscribers ∧ s₁.outbox = s.outbox ∧ s₁.key = s.key := by
    subst hs₁
    split <;> exact ⟨rfl, rfl, rfl⟩
  obtain ⟨s₂, hs₂, hs'⟩ := Option.bind_eq_some_iff.mp h
  obtain ⟨hsubs, -, houtbox, hkey⟩ := updateUnique_eq_some hs₂
  obtain ⟨htsubs, -, htout⟩ := s₁.tables_signingKey candidate
  have hkeep := keepsKey_signingKey (s := s₁) candidate
  rw [← Option.some.inj hs']
  refine ⟨(s₁.signingKey candidate).1, ⟨?_, ?_⟩, fun r => ?_, fun o => ?_, ?_⟩
  · exact hkey.trans hkeep.made
  · rw [← hsame.2.2]
    exact hkeep.kept
  · show r ∈ s₂.subscribers.rows ↔ _
    rw [hsubs, Table.mem_update, htsubs, hsame.1]
    refine exists_congr fun r₀ => and_congr_right fun _ => ?_
    by_cases hid : r₀.id = id
    · simp [hid, Subscriber.issued]
    · simp [hid]
  · rw [mem_queue, mem_deleteOutbox]
    have hnext : (s₂.deleteOutbox fun o =>
        o.subscriberId == id && o.kind == "confirm" && o.sentAt.isNone).outbox.next =
          s.outbox.next := by
      show s₂.outbox.next = _
      rw [houtbox, htout, hsame.2.1]
    rw [hnext, houtbox, htout, hsame.2.1]
    simp [Replaced, Option.isSome_iff_ne_none]
  · show s₂.outbox.next + 1 = _
    rw [houtbox, htout, hsame.2.1]

/-- Inserting a row and then filling in what depends on its id. -/
theorem mem_of_insert_update {s₁ s₂ s₃ : Subs} {mk : ℤ → Subscriber} {hmk : ∀ n, (mk n).id = n}
    {f : Subscriber → Subscriber} {hf : ∀ r, (f r).id = r.id}
    (h₁ : s.insertSubscriber mk hmk = some (id, s₁)) (h₂ : s₂.subscribers = s₁.subscribers)
    (h₃ : s₂.updateUnique id f hf = some s₃) (r : Subscriber) :
    r ∈ s₃.subscribers.rows ↔ r ∈ s.subscribers.rows ∨ r = f (mk s.subscribers.next) := by
  obtain ⟨rfl, hsubs₁, -⟩ := insertSubscriber_eq_some h₁
  rw [(updateUnique_eq_some h₃).1, h₂, hsubs₁]
  exact Table.mem_update_insert fun r => by simp

/-- Signing up again drops what waits for a quarantined row. -/
theorem dropped_eq {r₀ : Subscriber} {s₁ : Subs}
    (h : (if r₀.status = .quarantined then
      s.deleteOutbox fun o => o.subscriberId == r₀.id && o.waiting else s) = s₁) :
    (s₁.subscribers = s.subscribers ∧ s₁.key = s.key ∧ s₁.outbox.next = s.outbox.next) ∧
    ∀ o, o ∈ s₁.outbox.rows ↔ o ∈ s.outbox.rows ∧
      ¬(r₀.status = .quarantined ∧ o.subscriberId = r₀.id ∧ o.waiting = true) := by
  subst h
  split
  · rename_i hq
    refine ⟨⟨rfl, rfl, rfl⟩, fun o => ?_⟩
    rw [mem_deleteOutbox]
    simp [hq]
  · rename_i hq
    refine ⟨⟨rfl, rfl, rfl⟩, fun o => ?_⟩
    simp [hq]

/-- **Signing up** does nothing, welcomes a newcomer or renews a row. -/
theorem signUp_eq_some {rnd : ℕ → String} (h : s.signUp cr req rnd now = some s') :
    s' = s ∨
      (∃ key, s.Welcomes cr req req.address key now s' ∧
        s.Queues s.subscribers.next now False s') ∨
      ∃ key r₀, s.Renews cr req key now r₀ s' ∧
        s.Queues r₀.id now (r₀.status = .quarantined) s' := by
  unfold signUp at h
  split at h
  · obtain ⟨⟨id, s₁⟩, hs₁, h⟩ := Option.bind_eq_some_iff.mp h
    obtain ⟨s₂, hs₂, h⟩ := Option.bind_eq_some_iff.mp h
    obtain ⟨htsubs, -, htout⟩ := s₁.tables_signingKey (rnd 1)
    have hrows₂ := mem_of_insert_update hs₁ htsubs hs₂
    obtain ⟨rfl, -, -, hout₁, hkey₁⟩ := insertSubscriber_eq_some hs₁
    obtain ⟨-, -, hout₂, hkey₂⟩ := updateUnique_eq_some hs₂
    have hkeep := s₁.keepsKey_signingKey (rnd 1)
    obtain ⟨key, hkey, hrows, hqueues⟩ := queueConfirmation_eq_some h
    have hsame : (s₁.signingKey (rnd 1)).1 = key := hkey.kept _ (hkey₂.trans hkeep.made)
    have hout : s₂.outbox = s.outbox := (hout₂.trans htout).trans hout₁
    have hold : ∀ r₀ ∈ s.subscribers.rows, r₀.id ≠ s.subscribers.next := fun r₀ hr₀ =>
      Int.ne_of_lt (s.subscribers.lt_next r₀ hr₀)
    refine .inr (.inl ⟨key, ⟨⟨hkey.made, fun k hk => ?_⟩, fun r => ?_⟩, fun o => ?_, ?_⟩)
    · exact (hkeep.kept k (hkey₁.trans hk)).trans hsame
    · simp only [hrows, hrows₂, or_and_right, exists_or, exists_eq_left, SignUp.row, if_true]
      refine or_congr ⟨?_, fun h => ⟨r, h, if_neg ?_⟩⟩ ?_
      · rintro ⟨r₀, hr₀, rfl⟩
        rwa [if_neg (hold r₀ hr₀)]
      · exact hold r h
      · rw [← hsame]
        exact eq_comm
    · rw [hqueues.mem, hout]
    · rw [hqueues.next, hout]
  · rename_i r₀ hfind
    have hr₀ := List.mem_of_find?_eq_some hfind
    have haddr : r₀.channel = req.channel ∧ r₀.address = req.address := by
      simpa using List.find?_some hfind
    split at h
    · exact .inl (Option.some.inj h).symm
    split at h
    · exact .inl (Option.some.inj h).symm
    rename_i hactive _
    dsimp only at h
    generalize hs₁ : (if r₀.status = .quarantined then s.deleteOutbox fun o =>
      o.subscriberId == r₀.id && o.waiting else s) = s₁ at h
    obtain ⟨hsame, hmem⟩ := dropped_eq hs₁
    obtain ⟨key, hkey, hrows, hqueues⟩ := queueConfirmation_eq_some h
    refine .inr (.inr ⟨key, r₀, ⟨⟨hkey.made, fun k hk => hkey.kept k (hsame.2.1.trans hk)⟩, hr₀,
      haddr.1, haddr.2, hactive, fun r => ?_⟩, fun o => ?_, ?_⟩)
    · rw [hrows]
      simp only [mem_updateSubscribers, hsame.1, beq_iff_eq, exists_exists_and_eq_and]
      refine exists_congr fun r₁ => and_congr_right fun _ => ?_
      by_cases hid : r₁.id = r₀.id
      · rw [if_pos hid, if_pos hid, if_pos (by exact hid)]
        rfl
      · rw [if_neg hid, if_neg hid, if_neg hid]
    · rw [hqueues.mem, outbox_updateSubscribers, hsame.2.2, hmem, and_assoc]
      refine or_congr_left (and_congr_right fun _ => ?_)
      unfold Replaced
      tauto
    · exact hqueues.next.trans (congrArg (· + 1) hsame.2.2)

/-- **Signing up for a link** welcomes a newcomer without an address and queues nothing. -/
theorem signUpByLink_eq_some {rnd : ℕ → String} {token : String}
    (h : s.signUpByLink cr req rnd now = some (token, s')) :
    ∃ key, s.Welcomes cr req s!"{pendingAddress}{rnd 1}" key now s' ∧ s'.outbox = s.outbox := by
  unfold signUpByLink at h
  dsimp only at h
  obtain ⟨⟨id, s₁⟩, hs₁, h⟩ := Option.bind_eq_some_iff.mp h
  obtain ⟨s₂, hs₂, h⟩ := Option.bind_eq_some_iff.mp h
  obtain ⟨htsubs, -, htout⟩ := s.tables_signingKey (rnd 0)
  have hkeep := s.keepsKey_signingKey (rnd 0)
  have hrows := mem_of_insert_update hs₁ rfl hs₂
  obtain ⟨rfl, -, -, hout₁, hkey₁⟩ := insertSubscriber_eq_some hs₁
  obtain ⟨-, -, hout₂, hkey₂⟩ := updateUnique_eq_some hs₂
  have hs' : s'.subscribers = s₂.subscribers ∧ s'.outbox = s₂.outbox ∧ s'.key = s₂.key := by
    rw [← (Prod.mk.inj (Option.some.inj h)).2]
    split <;> exact ⟨rfl, rfl, rfl⟩
  refine ⟨(s.signingKey (rnd 0)).1, ⟨⟨?_, hkeep.kept⟩, fun r => ?_⟩, ?_⟩
  · rw [hs'.2.2, hkey₂, hkey₁, hkeep.made]
  · rw [hs'.1, hrows, htsubs]
    rfl
  · rw [hs'.2.1, hout₂, hout₁, htout]

/-- **The form** does nothing, welcomes a newcomer or renews a row. A channel that learns its
addresses later takes a newcomer without one, and every other queues a confirmation. -/
theorem subscribe_cases (cr : Crypto) (s : Subs) (req : SignUp) (rnd : ℕ → String) (now : ℤ) :
    s.subscribe cr req rnd now = s ∨
      (req.channel.needsAddress = false ∧ ∃ key,
        s.Welcomes cr req s!"{pendingAddress}{rnd 1}" key now (s.subscribe cr req rnd now) ∧
          (s.subscribe cr req rnd now).outbox = s.outbox) ∨
      (req.channel.needsAddress = true ∧ ∃ key,
        s.Welcomes cr req req.address key now (s.subscribe cr req rnd now) ∧
          s.Queues s.subscribers.next now False (s.subscribe cr req rnd now)) ∨
      (req.channel.needsAddress = true ∧ ∃ key r₀,
        s.Renews cr req key now r₀ (s.subscribe cr req rnd now) ∧
          s.Queues r₀.id now (r₀.status = .quarantined) (s.subscribe cr req rnd now)) := by
  rw [subscribe]
  cases hn : req.channel.needsAddress with
  | false =>
    simp only [Bool.not_false, if_true]
    cases h : s.signUpByLink cr req rnd now with
    | none => exact .inl rfl
    | some res => exact .inr (.inl ⟨trivial, signUpByLink_eq_some h⟩)
  | true =>
    simp only [Bool.not_true, Bool.false_eq_true, if_false]
    cases h : s.signUp cr req rnd now with
    | none => exact .inl rfl
    | some s' =>
      rcases signUp_eq_some h with rfl | hnew | hold
      · exact .inl rfl
      · exact .inr (.inr (.inl ⟨trivial, hnew⟩))
      · exact .inr (.inr (.inr ⟨trivial, hold⟩))

end SignUp

section Chats

variable {cr : Crypto} {token : String} {chat now : ℤ} {s s' : Subs}

theorem keeps_relinked {p : Subscriber} : Keeps (relinked p now) :=
  ⟨fun _ => rfl, fun _ => rfl, fun _ => rfl, fun _ => rfl, fun _ => rfl, fun _ => .inl ⟨rfl, rfl⟩⟩

/-- The tables after the chat's row `x` has taken over the choices of the pending row `p`. -/
def merged (p x : Subscriber) (now : ℤ) (s : Subs) : Subs :=
  (((s.updateSubscribers (·.id == x.id) (relinked p now) keeps_relinked).clearComponents
    x.id).moveComponents x.id p.id).deleteSubscribers (·.id == p.id)

/-- The components a subscriber chose, in their order. -/
def chosenBy (s : Subs) (id : ℤ) : List String :=
  ((s.components.filter fun c => c.1 == id).map (·.2)).insertionSort (· ≤ ·)

/-- What `linkChat` does when it returns. -/
theorem linkChat_eq {res : Linked} (h : s.linkChat cr token chat now = some (res, s')) :
    s' = s ∧ (res = .invalid ∨ res = .expired) ∨
      ∃ p ∈ s.subscribers.rows, p.Opens cr token now ∧
        res = .subscribed p.allComponents (s.chosenBy p.id) p.maintenance ∧
        ((∃ x ∈ s.subscribers.rows, x.channel = .telegram ∧ x.address = chatAddress chat ∧
            s' = s.merged p x now) ∨
          (∀ r ∈ s.subscribers.rows, r.channel = .telegram → r.address ≠ chatAddress chat) ∧
            s.updateUnique p.id (linked chat now) (id_linked chat now) = some s') := by
  unfold linkChat at h
  split at h
  · obtain ⟨rfl, rfl⟩ := Prod.mk.inj (Option.some.inj h)
    exact .inl ⟨rfl, .inl rfl⟩
  · rename_i p hfind
    have hpred : (p.channel = .telegram ∧ p.status = .pending) ∧
        p.confirmHash = some (cr.tokenHash token) := by
      simpa using List.find?_some hfind
    split at h
    · obtain ⟨rfl, rfl⟩ := Prod.mk.inj (Option.some.inj h)
      exact .inl ⟨rfl, .inr rfl⟩
    rename_i hexp
    have hopens : p.Opens cr token now := by
      refine ⟨hpred.1.1, hpred.1.2, hpred.2, ?_⟩
      cases he : p.confirmExpires with
      | none => simp [he] at hexp
      | some e => exact ⟨e, rfl, by simpa [he] using hexp⟩
    refine .inr ⟨p, List.mem_of_find?_eq_some hfind, hopens, ?_⟩
    dsimp only at h
    split at h
    · rename_i x hx
      have haddr : x.channel = .telegram ∧ x.address = chatAddress chat := by
        simpa using List.find?_some hx
      obtain ⟨rfl, rfl⟩ := Prod.mk.inj (Option.some.inj h)
      exact ⟨rfl, .inl ⟨x, List.mem_of_find?_eq_some hx, haddr.1, haddr.2, rfl⟩⟩
    · rename_i hnone
      obtain ⟨s₁, hs₁, h⟩ := Option.bind_eq_some_iff.mp h
      obtain ⟨rfl, rfl⟩ := Prod.mk.inj (Option.some.inj h)
      refine ⟨rfl, .inr ⟨fun r hr hchannel haddress => ?_, hs₁⟩⟩
      have hno := List.find?_eq_none.mp hnone r hr
      simp [hchannel, haddress] at hno

theorem merges_merged {p x : Subscriber} (hp : p ∈ s.subscribers.rows)
    (hopens : p.Opens cr token now) (hx : x ∈ s.subscribers.rows) (hchannel : x.channel = .telegram)
    (haddress : x.address = chatAddress chat) :
    s.Merges cr token chat now p x (s.merged p x now) := by
  have hid : ∀ r : Subscriber, (if r.id = x.id then relinked p now r else r).id = r.id :=
    fun r => by split <;> rfl
  refine ⟨hp, hopens, hx, hchannel, haddress, fun r => ?_, fun o => ?_, rfl, rfl⟩
  · rw [merged, mem_deleteSubscribers]
    show r ∈ (s.updateSubscribers (·.id == x.id) (relinked p now)
      keeps_relinked).subscribers.rows ∧ (r.id == p.id) = false ↔ _
    rw [mem_updateSubscribers]
    simp only [beq_iff_eq, beq_eq_false_iff_ne]
    constructor
    · rintro ⟨⟨r₁, hr₁, rfl⟩, hne⟩
      rw [hid] at hne
      exact ⟨r₁, hr₁, hne, rfl⟩
    · rintro ⟨r₁, hr₁, hne, rfl⟩
      exact ⟨⟨r₁, hr₁, rfl⟩, by rwa [hid]⟩
  · rw [merged, mem_outbox_deleteSubscribers]
    refine and_congr_right fun _ => ⟨fun h hsid => ?_, fun hne r hr hrid => ?_⟩
    · have hmem : (if p.id = x.id then relinked p now p else p) ∈
          (s.updateSubscribers (·.id == x.id) (relinked p now) keeps_relinked).subscribers.rows :=
        mem_updateSubscribers.mpr ⟨p, hp, by simp only [beq_iff_eq]⟩
      have hkept := h _ hmem ((hid p).trans hsid.symm)
      rw [hid] at hkept
      simp at hkept
    · rw [hrid]
      exact beq_eq_false_iff_ne.mpr hne

theorem links_linked {p : Subscriber} (hp : p ∈ s.subscribers.rows) (hopens : p.Opens cr token now)
    (h : s.updateUnique p.id (linked chat now) (id_linked chat now) = some s') :
    s.Links cr token chat now p s' := by
  obtain ⟨hsubs, -, hout, hkey⟩ := updateUnique_eq_some h
  refine ⟨hp, hopens, fun r => ?_, hout, hkey⟩
  rw [hsubs, Table.mem_update]
  simp only [beq_iff_eq]

/-- **Linking a chat** does nothing, gives the pending row its chat or merges it into the chat's. -/
theorem linkChat_eq_some {res : Linked} (h : s.linkChat cr token chat now = some (res, s')) :
    s' = s ∨ (∃ p, s.Links cr token chat now p s') ∨ ∃ p x, s.Merges cr token chat now p x s' := by
  rcases linkChat_eq h with ⟨hs, -⟩ |
    ⟨p, hp, hopens, -, ⟨x, hx, hchannel, haddress, rfl⟩ | ⟨-, hs'⟩⟩
  · exact .inl hs
  · exact .inr (.inr ⟨p, x, merges_merged hp hopens hx hchannel haddress⟩)
  · exact .inr (.inl ⟨p, links_linked hp hopens hs'⟩)

theorem linkChat_cases (h : ((s.linkChat cr token chat now).map (·.2)).getD s = s') :
    s' = s ∨ (∃ p, s.Links cr token chat now p s') ∨ ∃ p x, s.Merges cr token chat now p x s' := by
  cases hres : s.linkChat cr token chat now with
  | none =>
    rw [hres] at h
    exact .inl h.symm
  | some res =>
    rw [hres] at h
    exact linkChat_eq_some (hres.trans (congrArg (fun s'' => some (res.1, s'')) h))

theorem distinct_linked {p r : Subscriber} (hp : p.channel = .telegram) (h : Distinct p r)
    (hr : r.channel = .telegram → r.address ≠ chatAddress chat) :
    Distinct (linked chat now p) r := by
  refine ⟨?_, h.2.1, .inl rfl⟩
  rintro ⟨hchannel, haddress⟩
  exact hr (hchannel.symm.trans hp) haddress.symm

/-- Giving a row a chat that no row has breaks no constraint. -/
theorem exists_updateUnique_linked (now : ℤ) {p : Subscriber} (hp : p ∈ s.subscribers.rows)
    (hchannel : p.channel = .telegram)
    (hnone : ∀ r ∈ s.subscribers.rows, r.channel = .telegram → r.address ≠ chatAddress chat) :
    ∃ s', s.updateUnique p.id (linked chat now) (id_linked chat now) = some s' := by
  refine ⟨_, dif_pos ?_⟩
  refine List.pairwise_map.mpr ?_
  refine (List.pairwise_and_iff.mpr ⟨s.subscribers.sorted, s.distinct⟩).imp_of_mem ?_
  rintro a b ha hb ⟨hlt, hdistinct⟩
  have hne : a.id ≠ b.id := Int.ne_of_lt hlt
  simp only [beq_iff_eq]
  split
  · rename_i hid
    obtain rfl := Table.eq_of_id ha hp hid
    rw [if_neg fun hb' => hne hb'.symm]
    exact distinct_linked hchannel hdistinct (hnone b hb)
  · split
    · rename_i hid
      obtain rfl := Table.eq_of_id hb hp hid
      exact (distinct_linked hchannel hdistinct.symm (hnone a ha)).symm
    · exact hdistinct

/-- A link never runs into a constraint. -/
theorem exists_linkChat (cr : Crypto) (s : Subs) (token : String) (chat now : ℤ) :
    ∃ res, s.linkChat cr token chat now = some res := by
  unfold linkChat
  split
  · exact ⟨_, rfl⟩
  · rename_i p hfind
    have hpred : (p.channel = .telegram ∧ p.status = .pending) ∧
        p.confirmHash = some (cr.tokenHash token) := by
      simpa using List.find?_some hfind
    split
    · exact ⟨_, rfl⟩
    dsimp only
    split
    · exact ⟨_, rfl⟩
    · rename_i hnone
      have hfree : ∀ r ∈ s.subscribers.rows, r.channel = .telegram →
          r.address ≠ chatAddress chat := by
        intro r hr hchannel haddress
        have hno := List.find?_eq_none.mp hnone r hr
        simp [hchannel, haddress] at hno
      obtain ⟨s', hs'⟩ :=
        exists_updateUnique_linked now (List.mem_of_find?_eq_some hfind) hpred.1.1 hfree
      rw [hs']
      exact ⟨_, rfl⟩

end Chats

section Confirm

variable {cr : Crypto} {token : String} {now : ℤ} {s : Subs} {r : Subscriber}

theorem confirms_iff :
    confirms cr token now r = true ↔ r.confirmHash = some (cr.tokenHash token) ∧
      r.status = .pending ∧ ∃ e, r.confirmExpires = some e ∧ now < e := by
  rw [confirms]
  cases r.confirmExpires <;> simp [and_assoc]

theorem keeps_activated : Keeps (Subscriber.activated now) :=
  ⟨fun _ => rfl, fun _ => rfl, fun _ => rfl, fun _ => rfl, fun _ => rfl, fun _ => .inr ⟨rfl, rfl⟩⟩

theorem tables_confirm :
    (s.confirm cr token now).2 =
      s.updateSubscribers (confirms cr token now) (Subscriber.activated now) keeps_activated := by
  unfold confirm
  dsimp only
  split <;> rfl

@[simp] theorem outbox_confirm : (s.confirm cr token now).2.outbox = s.outbox := by
  rw [tables_confirm, outbox_updateSubscribers]

@[simp] theorem key_confirm : (s.confirm cr token now).2.key = s.key := by
  rw [tables_confirm, key_updateSubscribers]

theorem mem_confirm :
    r ∈ (s.confirm cr token now).2.subscribers.rows ↔ ∃ r₀ ∈ s.subscribers.rows,
      (if confirms cr token now r₀ then r₀.activated now else r₀) = r := by
  rw [tables_confirm, mem_updateSubscribers]

end Confirm

section Publish

variable {cfg : Config} {event : SubscriberEvent} {now : ℤ} {s : Subs} {o : OutboxRow}

theorem subscribers_publish : (s.publish cfg event now).subscribers = s.subscribers := by
  rw [publish]
  split <;> rfl

theorem key_publish : (s.publish cfg event now).key = s.key := by
  rw [publish]
  split <;> rfl

theorem mem_publish (h : o ∈ (s.publish cfg event now).outbox.rows) :
    o ∈ s.outbox.rows ∨ ∃ r ∈ s.subscribers.rows, r.status = .active ∧ ∃ n, s.outbox.next ≤ n ∧
      o = .queued r.id event.kind (.json event) now n := by
  unfold publish at h
  split at h
  · exact .inl h
  · exact mem_fanOut h

theorem mem_publish_of_mem (h : o ∈ s.outbox.rows) :
    o ∈ (s.publish cfg event now).outbox.rows := by
  rw [publish]
  split
  · exact h
  · exact Table.mem_insertMany_of_mem _ _ _ h

theorem next_le_publish : s.outbox.next ≤ (s.publish cfg event now).outbox.next := by
  rw [publish]
  split
  · exact Int.le_refl _
  · exact Table.next_le_insertMany _ _ _

end Publish

section Prune

variable {now : ℤ} {s : Subs} {r : Subscriber} {o : OutboxRow}

/-- A finished message is old enough to be forgotten. -/
def outboxStale (now : ℤ) (o : OutboxRow) : Bool :=
  o.sentAt.any (· < now - outboxKeepSecs) || o.failedAt.any (· < now - outboxKeepSecs)

/-- A sign-up was never confirmed, or a subscriber has been quarantined for long. -/
def subscriberStale (now : ℤ) (r : Subscriber) : Bool :=
  r.status == .pending && r.confirmExpires.any (· < now - pendingKeepSecs) ||
    r.status == .quarantined && r.quarantinedAt.any (· < now - quarantineKeepSecs)

theorem mem_prune :
    r ∈ (s.prune now).subscribers.rows ↔
      r ∈ s.subscribers.rows ∧ subscriberStale now r = false := by
  unfold prune subscriberStale
  dsimp only
  rw [mem_deleteSubscribers, mem_deleteSubscribers, and_assoc, Bool.or_eq_false_iff]
  rfl

theorem mem_outbox_prune :
    o ∈ (s.prune now).outbox.rows ↔ o ∈ s.outbox.rows ∧ outboxStale now o = false ∧
      ∀ r ∈ s.subscribers.rows, r.id = o.subscriberId → subscriberStale now r = false := by
  unfold prune outboxStale subscriberStale
  dsimp only
  rw [mem_outbox_deleteSubscribers, mem_outbox_deleteSubscribers, mem_deleteOutbox, and_assoc,
    and_assoc]
  refine and_congr_right fun _ => and_congr_right fun _ => ?_
  simp only [mem_deleteSubscribers, Bool.or_eq_false_iff]
  constructor
  · rintro ⟨hpending, hquar⟩ r hr hid
    exact ⟨hpending r hr hid, hquar r ⟨hr, hpending r hr hid⟩ hid⟩
  · exact fun h => ⟨fun r hr hid => (h r hr hid).1, fun r hr hid => (h r hr.1 hid).2⟩

end Prune

end Subs

/-! ### What becomes of a subscriber -/

/-- What one operation may make of a subscriber's row. `key` is the signing key after it. -/
inductive Subscriber.Becomes (cr : Crypto) (key : Option String) :
    SubsOp → Subscriber → Subscriber → Prop
  | same {op r} : Becomes cr key op r r
  | renewed {req rnd now r k} (hkey : key = some k) (hneeds : req.channel.needsAddress = true)
      (hchannel : r.channel = req.channel) (hinactive : r.status ≠ .active) :
      Becomes cr key (.signUp req rnd now) r (r.renewed cr req k now)
  | activated {token now r} (hconfirms : Subs.confirms cr token now r = true) :
      Becomes cr key (.confirm token now) r (r.activated now)
  | linked {token chat now r} (hopens : r.Opens cr token now) :
      Becomes cr key (.linkChat token chat now) r (Subs.linked chat now r)
  | merged {token chat now p r} (hopens : p.Opens cr token now) (hne : r.id ≠ p.id)
      (hchannel : r.channel = .telegram) (haddress : r.address = chatAddress chat) :
      Becomes cr key (.linkChat token chat now) r (Subs.relinked p now r)
  | dispatched {ρ r r'} (hkeeps : RoundKeeps r r') : Becomes cr key (.dispatch ρ) r r'

/-- A row that an operation adds. -/
structure Subscriber.Joins (cr : Crypto) (d d' : Dispatcher) (op : SubsOp) (r : Subscriber) :
    Prop where
  row : ∃ req rnd now address k, op = .signUp req rnd now ∧ d'.subs.key = some k ∧
    (req.channel.needsAddress = true ∨ ∃ x, address = pendingAddress ++ x) ∧
      r = req.newcomer cr address k now d.subs.subscribers.next

namespace SubsOp

variable {cr : Crypto} {d : Dispatcher} {op : SubsOp} {r r' : Subscriber} {k : String}

theorem id_of_becomes {key : Option String} (h : r.Becomes cr key op r') : r'.id = r.id := by
  cases h with
  | same | renewed | activated | linked | merged => rfl
  | dispatched hkeeps => exact hkeeps.id

theorem channel_of_becomes {key : Option String} (h : r.Becomes cr key op r') :
    r'.channel = r.channel := by
  cases h with
  | same | renewed | activated | linked | merged => rfl
  | dispatched hkeeps => exact hkeeps.channel

/-- A row of a subscriber after a round. -/
theorem roundKeeps_run {ρ : Round} (h : r' ∈ (ρ.run cr d).subs.subscribers.rows) :
    ∃ r ∈ d.subs.subscribers.rows, RoundKeeps r r' := by
  have hinv : ∀ d', (∀ r' ∈ d'.subs.subscribers.rows, ∃ r ∈ d.subs.subscribers.rows,
      RoundKeeps r r') → ∀ key row env, ∀ r' ∈ (dispatchRow cr ρ.cfg key ρ.now row env
        d').subs.subscribers.rows, ∃ r ∈ d.subs.subscribers.rows, RoundKeeps r r' := by
    intro d' hd' key row env r' hr'
    obtain ⟨r₁, hr₁, hkeeps⟩ := roundKeeps_dispatchRow hr'
    obtain ⟨r, hr, hkeeps'⟩ := hd' r₁ hr₁
    exact ⟨r, hr, hkeeps'.trans hkeeps⟩
  refine dispatchDue_inv (I := fun d' => ∀ r' ∈ d'.subs.subscribers.rows,
    ∃ r ∈ d.subs.subscribers.rows, RoundKeeps r r') (fun r hr => ⟨r, hr, .refl r⟩)
    (fun d' hd' => hd') (fun d' hd' r' hr' => ?_)
    (fun d' key row _ hd' _ _ => hinv d' hd' _ _ _) r' h
  rw [(d'.subs.tables_signingKey ρ.candidate).1] at hr'
  exact hd' r' hr'

/-- **Every row comes from a row, or has just signed up.** -/
theorem row_step (h : r' ∈ (op.step cr d).subs.subscribers.rows) :
    (∃ r ∈ d.subs.subscribers.rows, r.Becomes cr (op.step cr d).subs.key op r') ∨
      r'.Joins cr d (op.step cr d) op := by
  cases op with
  | signUp req rnd now =>
    rcases Subs.subscribe_cases cr d.subs req rnd now with hs | ⟨hn, key, hw, -⟩ |
      ⟨hn, key, hw, -⟩ | ⟨hn, key, r₀, hren, -⟩
    · exact .inl ⟨r', by rwa [← hs], .same⟩
    · rcases (hw.rows r').mp h with hr | rfl
      · exact .inl ⟨r', hr, .same⟩
      · exact .inr ⟨req, rnd, now, _, key, rfl, hw.made, .inr ⟨rnd 1, rfl⟩, rfl⟩
    · rcases (hw.rows r').mp h with hr | rfl
      · exact .inl ⟨r', hr, .same⟩
      · exact .inr ⟨req, rnd, now, _, key, rfl, hw.made, .inl hn, rfl⟩
    · obtain ⟨r, hr, rfl⟩ := (hren.rows r').mp h
      refine .inl ⟨r, hr, ?_⟩
      split
      · rename_i hid
        obtain rfl : r = r₀ := Table.eq_of_id hr hren.mem hid
        exact .renewed hren.made hn hren.channel hren.inactive
      · exact .same
  | confirm token now =>
    obtain ⟨r, hr, rfl⟩ := Subs.mem_confirm.mp h
    refine .inl ⟨r, hr, ?_⟩
    split
    · exact .activated ‹_›
    · exact .same
  | linkChat token chat now =>
    refine .inl ?_
    have hres : ((d.subs.linkChat cr token chat now).map (·.2)).getD d.subs =
      (SubsOp.step cr d (.linkChat token chat now)).subs := rfl
    rcases Subs.linkChat_cases hres with hs | ⟨p, hl⟩ | ⟨p, x, hm⟩
    · exact ⟨r', by rwa [← hs], .same⟩
    · obtain ⟨r, hr, rfl⟩ := (hl.rows r').mp h
      refine ⟨r, hr, ?_⟩
      split
      · rename_i hid
        obtain rfl : r = p := Table.eq_of_id hr hl.mem hid
        exact .linked hl.opens
      · exact .same
    · obtain ⟨r, hr, hne, rfl⟩ := (hm.rows r').mp h
      refine ⟨r, hr, ?_⟩
      split
      · rename_i hid
        obtain rfl : r = x := Table.eq_of_id hr hm.mem_chat hid
        exact .merged hm.opens hne hm.channel hm.address
      · exact .same
  | stopChat chat => exact .inl ⟨r', (Subs.mem_deleteSubscribers.mp h).1, .same⟩
  | unsubscribe token => exact .inl ⟨r', (Subs.mem_deleteSubscribers.mp h).1, .same⟩
  | delete id => exact .inl ⟨r', (Subs.mem_deleteSubscribers.mp h).1, .same⟩
  | publish cfg event now =>
    refine .inl ⟨r', ?_, .same⟩
    rwa [show (SubsOp.step cr d (.publish cfg event now)).subs.subscribers =
      d.subs.subscribers from Subs.subscribers_publish] at h
  | dispatch ρ =>
    obtain ⟨r, hr, hkeeps⟩ := roundKeeps_run h
    exact .inl ⟨r, hr, .dispatched hkeeps⟩
  | prune now => exact .inl ⟨r', (Subs.mem_prune.mp h).1, .same⟩
  | restart => exact .inl ⟨r', h, .same⟩

/-- **The signing key is fixed** once it has been made. -/
theorem key_step (h : d.subs.key = some k) : (op.step cr d).subs.key = some k := by
  cases op with
  | signUp req rnd now =>
    rcases Subs.subscribe_cases cr d.subs req rnd now with hs | ⟨-, key, hw, -⟩ |
      ⟨-, key, hw, -⟩ | ⟨-, key, r₀, hren, -⟩
    · exact (congrArg Subs.key hs).trans h
    · exact hw.kept k h ▸ hw.made
    · exact hw.kept k h ▸ hw.made
    · exact hren.kept k h ▸ hren.made
  | confirm token now =>
    show (d.subs.confirm cr token now).2.key = some k
    rw [Subs.key_confirm, h]
  | linkChat token chat now =>
    have hres : ((d.subs.linkChat cr token chat now).map (·.2)).getD d.subs =
      (SubsOp.step cr d (.linkChat token chat now)).subs := rfl
    rcases Subs.linkChat_cases hres with hs | ⟨p, hl⟩ | ⟨p, x, hm⟩
    · rw [hs, h]
    · rw [hl.key, h]
    · rw [hm.key, h]
  | stopChat | unsubscribe | delete | prune | restart => exact h
  | publish cfg event now => exact Subs.key_publish.trans h
  | dispatch ρ =>
    refine dispatchDue_inv (I := fun d' => d'.subs.key = some k) h (fun d' hd' => hd')
      (fun d' hd' => ?_) fun d' key row _ hd' _ _ => key_dispatchRow.trans hd'
    exact (d'.subs.keepsKey_signingKey ρ.candidate).kept k hd' ▸ d'.subs.key_signingKey ρ.candidate

/-- A message that an operation other than a round adds: a confirmation of a sign-up, or news to an
active subscriber. -/
def Fresh (op : SubsOp) (s : Subs) (o : OutboxRow) : Prop :=
  s.outbox.next ≤ o.id ∧ ((∃ req rnd now sid, op = .signUp req rnd now ∧
      o = .queued sid "confirm" .braces now o.id) ∨
    ∃ r ∈ s.subscribers.rows, r.status = .active ∧ ∃ cfg event now, op = .publish cfg event now ∧
      o = .queued r.id (SubscriberEvent.kind event) (.json event) now o.id)

/-- **Outside rounds a message never changes**: it is an old one or a fresh one. -/
theorem outbox_step {o : OutboxRow} (hop : ∀ ρ, op ≠ .dispatch ρ)
    (h : o ∈ (op.step cr d).subs.outbox.rows) : o ∈ d.subs.outbox.rows ∨ Fresh op d.subs o := by
  cases op with
  | signUp req rnd now =>
    have hqueues : ∀ {sid quarantined},
        d.subs.Queues sid now quarantined (SubsOp.step cr d (.signUp req rnd now)).subs →
        o ∈ d.subs.outbox.rows ∨ Fresh (.signUp req rnd now) d.subs o := fun hq => by
      rcases (hq.mem o).mp h with ⟨ho, -⟩ | rfl
      · exact .inl ho
      · exact .inr ⟨Int.le_refl _, .inl ⟨_, _, _, _, rfl, rfl⟩⟩
    rcases Subs.subscribe_cases cr d.subs req rnd now with hs | ⟨-, key, -, hout⟩ |
      ⟨-, key, -, hq⟩ | ⟨-, key, r₀, -, hq⟩
    · exact .inl (by rwa [← congrArg Subs.outbox hs])
    · exact .inl (by rwa [← hout])
    · exact hqueues hq
    · exact hqueues hq
  | confirm token now =>
    have hout : (SubsOp.step cr d (.confirm token now)).subs.outbox = d.subs.outbox :=
      Subs.outbox_confirm
    exact .inl (by rwa [hout] at h)
  | linkChat token chat now =>
    refine .inl ?_
    have hres : ((d.subs.linkChat cr token chat now).map (·.2)).getD d.subs =
      (SubsOp.step cr d (.linkChat token chat now)).subs := rfl
    rcases Subs.linkChat_cases hres with hs | ⟨p, hl⟩ | ⟨p, x, hm⟩
    · rwa [hs] at h
    · rwa [hl.outbox] at h
    · exact ((hm.outbox o).mp h).1
  | stopChat chat => exact .inl (Subs.mem_outbox_deleteSubscribers.mp h).1
  | unsubscribe token => exact .inl (Subs.mem_outbox_deleteSubscribers.mp h).1
  | delete id => exact .inl (Subs.mem_outbox_deleteSubscribers.mp h).1
  | publish cfg event now =>
    rcases Subs.mem_publish h with ho | ⟨r, hr, hactive, n, hn, rfl⟩
    · exact .inl ho
    · exact .inr ⟨hn, .inr ⟨r, hr, hactive, cfg, event, now, rfl, rfl⟩⟩
  | dispatch ρ => exact absurd rfl (hop ρ)
  | prune now => exact .inl (Subs.mem_outbox_prune.mp h).1
  | restart => exact .inl h

/-- A message after a round. -/
theorem roundMoves_run {ρ : Round} {o' : OutboxRow} (h : o' ∈ (ρ.run cr d).subs.outbox.rows) :
    ∃ o ∈ d.subs.outbox.rows, RoundMoves o o' := by
  have hinv : ∀ o' ∈ (ρ.run cr d).subs.outbox.rows, ∃ o ∈ d.subs.outbox.rows, RoundMoves o o' := by
    refine dispatchDue_inv (I := fun d' => ∀ o' ∈ d'.subs.outbox.rows,
      ∃ o ∈ d.subs.outbox.rows, RoundMoves o o') (fun o ho => ⟨o, ho, .refl o⟩)
      (fun d' hd' => hd') (fun d' hd' o' ho' => ?_) fun d' key row _ hd' _ _ o' ho' => ?_
    · rw [(d'.subs.tables_signingKey ρ.candidate).2.2] at ho'
      exact hd' o' ho'
    · obtain ⟨o₁, ho₁, hmoves, -⟩ := roundMoves_dispatchRow ho'
      obtain ⟨o, ho, hmoves'⟩ := hd' o₁ ho₁
      exact ⟨o, ho, hmoves'.trans hmoves⟩
  exact hinv o' h

theorem next_le_step : d.subs.outbox.next ≤ (op.step cr d).subs.outbox.next := by
  cases op with
  | signUp req rnd now =>
    rcases Subs.subscribe_cases cr d.subs req rnd now with hs | ⟨-, key, -, hout⟩ |
      ⟨-, key, -, hq⟩ | ⟨-, key, r₀, -, hq⟩
    · exact Int.le_of_eq (congrArg (·.outbox.next) hs).symm
    · exact Int.le_of_eq (congrArg (·.next) hout).symm
    · exact Int.le_of_lt (hq.next ▸ Int.lt_succ _)
    · exact Int.le_of_lt (hq.next ▸ Int.lt_succ _)
  | confirm token now =>
    have hout : (SubsOp.step cr d (.confirm token now)).subs.outbox = d.subs.outbox :=
      Subs.outbox_confirm
    rw [hout]
  | linkChat token chat now =>
    have hres : ((d.subs.linkChat cr token chat now).map (·.2)).getD d.subs =
      (SubsOp.step cr d (.linkChat token chat now)).subs := rfl
    rcases Subs.linkChat_cases hres with hs | ⟨p, hl⟩ | ⟨p, x, hm⟩
    · rw [hs]
    · rw [hl.outbox]
    · rw [hm.next]
  | stopChat | unsubscribe | delete | prune | restart => exact Int.le_refl _
  | publish cfg event now => exact Subs.next_le_publish
  | dispatch ρ =>
    refine dispatchDue_inv (I := fun d' => d.subs.outbox.next ≤ d'.subs.outbox.next)
      (Int.le_refl _) (fun d' hd' => hd') (fun d' hd' => ?_)
      fun d' key row _ hd' _ _ => next_dispatchRow.symm ▸ hd'
    rwa [(d'.subs.tables_signingKey ρ.candidate).2.2]

/-- Only rounds hand messages over. -/
theorem log_step (hop : ∀ ρ, op ≠ .dispatch ρ) : (op.step cr d).log = d.log := by
  cases op with
  | dispatch ρ => exact absurd rfl (hop ρ)
  | _ => rfl

end SubsOp

/-! ### Messages and their subscribers -/

/-- Every message has a subscriber: the foreign key of `outbox`. -/
def Owned (s : Subs) : Prop :=
  ∀ o ∈ s.outbox.rows, ∃ r ∈ s.subscribers.rows, r.id = o.subscriberId

section Owned

variable {cr : Crypto} {cfg : Config} {key : String} {now : ℤ} {row : DueRow} {env : SendEnv}
  {s s' : Subs} {d : Dispatcher} {p : Subscriber → Bool}

theorem Owned.deleteSubscribers (h : Owned s) : Owned (s.deleteSubscribers p) := by
  intro o ho
  obtain ⟨ho, hp⟩ := Subs.mem_outbox_deleteSubscribers.mp ho
  obtain ⟨r, hr, hid⟩ := h o ho
  exact ⟨r, Subs.mem_deleteSubscribers.mpr ⟨hr, hp r hr hid⟩, hid⟩

/-- An operation that keeps every subscriber's id. -/
theorem Owned.of_rows (h : Owned s)
    (hrows : ∀ r ∈ s.subscribers.rows, ∃ r' ∈ s'.subscribers.rows, r'.id = r.id)
    (hout : ∀ o ∈ s'.outbox.rows, (∃ o₀ ∈ s.outbox.rows, o₀.subscriberId = o.subscriberId) ∨
      ∃ r' ∈ s'.subscribers.rows, r'.id = o.subscriberId) : Owned s' := by
  intro o ho
  rcases hout o ho with ⟨o₀, ho₀, hsid⟩ | hr'
  · obtain ⟨r, hr, hid⟩ := h o₀ ho₀
    obtain ⟨r', hr', hid'⟩ := hrows r hr
    exact ⟨r', hr', hid'.trans (hid.trans hsid)⟩
  · exact hr'

theorem Owned.subscribe (h : Owned s) (req : SignUp) (rnd : ℕ → String) (now : ℤ) :
    Owned (s.subscribe cr req rnd now) := by
  have hwelcome : ∀ {address key}, s.Welcomes cr req address key now (s.subscribe cr req rnd now) →
      ∀ r ∈ s.subscribers.rows,
        ∃ r' ∈ (s.subscribe cr req rnd now).subscribers.rows, r'.id = r.id :=
    fun hw r hr => ⟨r, (hw.rows r).mpr (.inl hr), rfl⟩
  have hqueue : ∀ {sid quarantined}, s.Queues sid now quarantined (s.subscribe cr req rnd now) →
      (∃ r' ∈ (s.subscribe cr req rnd now).subscribers.rows, r'.id = sid) →
      ∀ o ∈ (s.subscribe cr req rnd now).outbox.rows,
        (∃ o₀ ∈ s.outbox.rows, o₀.subscriberId = o.subscriberId) ∨
          ∃ r' ∈ (s.subscribe cr req rnd now).subscribers.rows, r'.id = o.subscriberId :=
    fun hq hsid o ho => by
      rcases (hq.mem o).mp ho with ⟨ho, -⟩ | rfl
      · exact .inl ⟨o, ho, rfl⟩
      · exact .inr hsid
  rcases Subs.subscribe_cases cr s req rnd now with hs | ⟨-, key, hw, hout⟩ | ⟨-, key, hw, hq⟩ |
    ⟨-, key, r₀, hren, hq⟩
  · rwa [hs]
  · refine h.of_rows (hwelcome hw) fun o ho => .inl ⟨o, ?_, rfl⟩
    rwa [hout] at ho
  · refine h.of_rows (hwelcome hw) (hqueue hq ⟨_, (hw.rows _).mpr (.inr rfl), rfl⟩)
  · have hrow : ∀ r ∈ s.subscribers.rows,
        ∃ r' ∈ (s.subscribe cr req rnd now).subscribers.rows, r'.id = r.id := fun r hr => by
      refine ⟨_, (hren.rows _).mpr ⟨r, hr, rfl⟩, ?_⟩
      split <;> rfl
    exact h.of_rows hrow (hqueue hq (hrow r₀ hren.mem))

theorem Owned.linkChat (h : Owned s) {token : String} {chat now : ℤ}
    (hs' : ((s.linkChat cr token chat now).map (·.2)).getD s = s') : Owned s' := by
  rcases Subs.linkChat_cases hs' with rfl | ⟨p, hl⟩ | ⟨p, x, hm⟩
  · exact h
  · refine h.of_rows (fun r hr => ⟨_, (hl.rows _).mpr ⟨r, hr, rfl⟩, ?_⟩) fun o ho =>
      .inl ⟨o, hl.outbox ▸ ho, rfl⟩
    split <;> rfl
  · intro o ho
    obtain ⟨ho, hne⟩ := (hm.outbox o).mp ho
    obtain ⟨r, hr, hid⟩ := h o ho
    refine ⟨_, (hm.rows _).mpr ⟨r, hr, fun hp => hne (hid.symm.trans hp), rfl⟩, ?_⟩
    rw [← hid]
    split <;> rfl

/-- Outside rounds the foreign key is kept. -/
theorem Owned.tables (h : Owned s) (op : SubsOp) : Owned (op.tables cr s) := by
  cases op with
  | signUp req rnd now => exact h.subscribe req rnd now
  | confirm token now =>
    refine h.of_rows (fun r hr => ⟨_, Subs.mem_confirm.mpr ⟨r, hr, rfl⟩, ?_⟩) fun o ho =>
      .inl ⟨o, ?_, rfl⟩
    · split <;> rfl
    · rwa [show (SubsOp.tables cr s (.confirm token now)).outbox = s.outbox from
        Subs.outbox_confirm] at ho
  | linkChat token chat now => exact h.linkChat rfl
  | stopChat | unsubscribe | delete => exact h.deleteSubscribers
  | publish cfg event now =>
    have hsubs : (SubsOp.tables cr s (.publish cfg event now)).subscribers = s.subscribers :=
      Subs.subscribers_publish
    refine h.of_rows (fun r hr => ⟨r, by rwa [hsubs], rfl⟩) fun o ho => ?_
    rcases Subs.mem_publish ho with ho | ⟨r, hr, -, n, -, rfl⟩
    · exact .inl ⟨o, ho, rfl⟩
    · exact .inr ⟨r, by rwa [hsubs], rfl⟩
  | prune now =>
    refine Owned.deleteSubscribers (Owned.deleteSubscribers fun o ho => ?_)
    exact h o (Subs.mem_deleteOutbox.mp ho).1
  | dispatch | restart => exact h

/-- A row of a snapshot keeps the foreign key. -/
theorem Owned.handled (h : Owned d.subs) : Owned (dispatchRow cr cfg key now row env d).subs := by
  cases hm : handing cr cfg key now row env d.pacer with
  | none =>
    rcases dispatchRow_of_not_handing hm with hd | ⟨error, stats, -, -, hd⟩ <;> rw [hd]
    · exact h
    · refine h.of_rows (fun r hr => ⟨r, hr, rfl⟩) fun o ho => .inl ?_
      obtain ⟨o₀, ho₀, rfl⟩ := Subs.mem_updateOutbox.mp ho
      refine ⟨o₀, ho₀, ?_⟩
      split <;> rfl
  | some m =>
    rw [dispatchRow_of_handing hm]
    cases hg : env.result.isGone with
    | true =>
      rw [subs_handOver_of_gone hg]
      exact h.deleteSubscribers
    | false =>
      refine h.of_rows (fun r hr => ?_) fun o ho => .inl ?_
      · refine ⟨_, (rows_handOver hg).symm ▸ List.mem_map_of_mem hr, ?_⟩
        split
        · exact (RoundKeeps.answered now env.result r).id
        · rfl
      · rw [outbox_handOver hg] at ho
        obtain ⟨o₀, ho₀, rfl⟩ := List.mem_map.mp ho
        refine ⟨o₀, ho₀, ?_⟩
        split
        · exact (RoundMoves.attempted ..).subscriberId.symm
        · rfl

theorem owned_signingKey (h : Owned s) (candidate : String) :
    Owned (s.signingKey candidate).2 := by
  obtain ⟨hsubs, -, hout⟩ := s.tables_signingKey candidate
  intro o ho
  rw [hsubs]
  exact h o (hout ▸ ho)

/-- **Every operation** keeps the foreign key. -/
theorem Owned.step (h : Owned d.subs) (op : SubsOp) : Owned (op.step cr d).subs := by
  have htables : Owned (op.tables cr d.subs) := h.tables op
  cases op with
  | dispatch ρ =>
    exact dispatchDue_inv (I := fun d' => Owned d'.subs) h (fun d' hd' => hd')
      (fun d' hd' => owned_signingKey hd' ρ.candidate) fun d' key row _ hd' _ _ => hd'.handled
  | restart => exact h
  | _ => exact htables

end Owned

end Dunlin

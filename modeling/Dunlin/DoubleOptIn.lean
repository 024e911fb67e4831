import Dunlin.SubscriptionRun

/-!
# Double opt-in

News goes only to those who agreed. A subscriber agrees (`Activates`) when a confirmation or a chat
presents the token of its pending row in time, and is asked again (`Resets`) when a later sign-up
leaves the row pending. `Agreed` says of a run that the subscriber agreed and was not asked again
since, and that the outbox had reached a given id by then.

The invariant (`Consent`) speaks of the tables and of the run so far: every active row agreed, no
pending row did, and every piece of news that waits was queued after its subscriber agreed.

## Scope

A token is taken for its owner's as long as nobody guesses one: a `Crypto` has the hash as
injective. Reading somebody else's mail is not in the model.

## Main results

* `not_resets` — no step asks an active row again
* `Consent.step` — every operation keeps consent
* `double_opt_in` — who is sent what, after every run
-/

namespace Dunlin

open Lib

/-- An operation activates the pending row `sid` by presenting its token in time. -/
def Activates (cr : Crypto) (sid : ℤ) (d : Dispatcher) (op : SubsOp) : Prop :=
  (∃ r ∈ d.subs.subscribers.rows, r.id = sid ∧ r.status = .pending ∧
    ∃ token now, (op = .confirm token now ∨ ∃ chat, op = .linkChat token chat now) ∧
      r.confirmHash = some (cr.tokenHash token) ∧ ∃ e, r.confirmExpires = some e ∧ now < e) ∧
  ∃ r ∈ (op.step cr d).subs.subscribers.rows, r.id = sid ∧ r.status = .active

/-- A sign-up leaves the row `sid` pending. -/
def Resets (cr : Crypto) (sid : ℤ) (d : Dispatcher) (op : SubsOp) : Prop :=
  (∃ req rnd now, op = .signUp req rnd now) ∧
  ∃ r ∈ (op.step cr d).subs.subscribers.rows, r.id = sid ∧ r.status = .pending

/-- The subscriber `sid` was activated and not reset since, and messages from the id `n` on were
queued after that. -/
def Agreed (cr : Crypto) (past : List SubsOp) (sid n : ℤ) : Prop :=
  Since (SubsOp.step cr)
    (fun d op => Activates cr sid d op ∧ (op.step cr d).subs.outbox.next ≤ n)
    (fun d op => Resets cr sid d op) Dispatcher.initial past

/-- What a run owes to its subscribers after `past`, at an operation `op` and for any sign-up. -/
structure OptedIn (cr : Crypto) (past : List SubsOp) (op : SubsOp) : Prop where
  /-- News is handed over only to a subscriber who agreed, and outside chats only news that was
  queued later than that. -/
  handed : ∀ id sid channel delivery result event url,
    .handed id sid channel delivery result ∈
        (op.step cr (run (SubsOp.step cr) .initial past)).log.drop
          (run (SubsOp.step cr) .initial past).log.length →
    delivery.message = .event event url →
      ∃ n, Agreed cr past sid n ∧ (channel ≠ .telegram → n ≤ id)
  /-- A sign-up for an active address does nothing. -/
  signUp : ∀ req rnd now, (∃ r ∈ (run (SubsOp.step cr) .initial past).subs.subscribers.rows,
    r.channel = req.channel ∧ r.address = req.address ∧ r.status = .active) →
      (run (SubsOp.step cr) .initial past).subs.signUp cr req rnd now =
        some (run (SubsOp.step cr) .initial past).subs

/-- Who agreed, by what the tables say. -/
structure Consent (cr : Crypto) (past : List SubsOp) (d : Dispatcher) : Prop where
  owned : Owned d.subs
  active : ∀ r ∈ d.subs.subscribers.rows, r.status = .active →
    Agreed cr past r.id d.subs.outbox.next
  /-- A chat's row is there because the chat was linked. -/
  chat : ∀ r ∈ d.subs.subscribers.rows, r.channel = .telegram →
    (∃ x, r.address = pendingAddress ++ x) ∨ Agreed cr past r.id d.subs.outbox.next
  pending : ∀ sid n, Agreed cr past sid n → ∀ r ∈ d.subs.subscribers.rows, r.id = sid →
    r.status ≠ .pending
  news : ∀ o ∈ d.subs.outbox.rows, o.waiting = true → o.kind ≠ "confirm" →
    ∀ r ∈ d.subs.subscribers.rows, r.id = o.subscriberId → r.channel ≠ .telegram →
      Agreed cr past r.id o.id

/-! ### Addresses of chats -/

/-- A chat's address is a number, which a sign-up without an address never has. -/
theorem chatAddress_ne (chat : ℤ) (x : String) : chatAddress chat ≠ pendingAddress ++ x := by
  intro h
  have hhead : (chatAddress chat).toList.head? = some 'p' := by
    rw [h, String.toList_append]
    rfl
  cases chat with
  | ofNat n =>
    have hs : chatAddress (.ofNat n) = n.repr := rfl
    rw [hs, Nat.toList_repr] at hhead
    have hdigit := Nat.isDigit_of_mem_toDigits (by decide) (by decide) (List.mem_of_mem_head? hhead)
    exact absurd hdigit (by decide)
  | negSucc n =>
    have hs : chatAddress (.negSucc n) = "-" ++ (n + 1).repr := rfl
    have hminus : "-".toList = ['-'] := rfl
    rw [hs, String.toList_append, hminus, List.cons_append, List.head?_cons] at hhead
    exact absurd (Option.some.inj hhead) (by decide)

/-! ### One operation -/

section Step

variable {cr : Crypto} {past : List SubsOp} {d : Dispatcher} {op : SubsOp} {sid n m : ℤ}
  {r r' : Subscriber} {o : OutboxRow}

theorem Agreed.mono (h : Agreed cr past sid n) (hnm : n ≤ m) : Agreed cr past sid m :=
  Since.imp h fun _ _ hA => ⟨hA.1, Int.le_trans hA.2 hnm⟩

theorem agreed_append_singleton (hd : run (SubsOp.step cr) .initial past = d) :
    Agreed cr (past ++ [op]) sid n ↔
      Activates cr sid d op ∧ (op.step cr d).subs.outbox.next ≤ n ∨
        Agreed cr past sid n ∧ ¬Resets cr sid d op := by
  rw [← hd]
  exact since_append_singleton

/-- A row that is not pending was not reset. -/
theorem not_resets (hr : r ∈ (op.step cr d).subs.subscribers.rows) (hst : r.status ≠ .pending) :
    ¬Resets cr r.id d op := by
  rintro ⟨-, r', hr', hid, hst'⟩
  rw [Table.eq_of_id hr' hr hid] at hst'
  exact hst hst'

/-- An active row was active, has just agreed, or is the row of a chat that was linked again. -/
theorem Subscriber.Becomes.active {key : Option String} (h : r.Becomes cr key op r')
    (hr : r ∈ d.subs.subscribers.rows) (hr' : r' ∈ (op.step cr d).subs.subscribers.rows)
    (hst : r'.status = .active) :
    r.status = .active ∨ Activates cr r'.id d op ∨
      r.channel = .telegram ∧ ∃ chat, r.address = chatAddress chat := by
  have hafter : ∃ r₁ ∈ (op.step cr d).subs.subscribers.rows, r₁.id = r'.id ∧ r₁.status = .active :=
    ⟨r', hr', rfl, hst⟩
  cases h with
  | same => exact .inl hst
  | renewed => cases hst
  | activated hconfirms =>
    obtain ⟨hhash, hpending, hexpires⟩ := Subs.confirms_iff.mp hconfirms
    exact .inr (.inl ⟨⟨r, hr, rfl, hpending, _, _, .inl rfl, hhash, hexpires⟩, hafter⟩)
  | linked hopens =>
    refine .inr (.inl ⟨⟨r, hr, rfl, hopens.status, _, _, .inr ⟨_, rfl⟩, hopens.hash, ?_⟩, hafter⟩)
    exact hopens.expires
  | merged _ _ hchannel haddress => exact .inr (.inr ⟨hchannel, _, haddress⟩)
  | dispatched hkeeps =>
    refine .inl ?_
    rcases hkeeps.status with h | h
    · rw [← h, hst]
    · rw [h] at hst
      cases hst

/-- An operation that is not a sign-up makes no row pending. -/
theorem Subscriber.Becomes.pending {key : Option String} (h : r.Becomes cr key op r')
    (hst : r'.status = .pending) :
    r.status = .pending ∨ ∃ req rnd now, op = .signUp req rnd now ∧ r.status ≠ .active := by
  cases h with
  | same => exact .inl hst
  | renewed _ _ _ hinactive => exact .inr ⟨_, _, _, rfl, hinactive⟩
  | activated | linked | merged => cases hst
  | dispatched hkeeps =>
    refine .inl ?_
    rcases hkeeps.status with h | h
    · rw [← h, hst]
    · rw [h] at hst
      cases hst

/-- What a sign-up holds back from a quarantined subscriber. -/
theorem Subs.held_subscribe {s : Subs} {req : SignUp} {rnd : ℕ → String} {now : ℤ}
    (hr : r ∈ s.subscribers.rows) (hquar : r.status = .quarantined)
    (hr' : r' ∈ (s.subscribe cr req rnd now).subscribers.rows) (hid : r'.id = r.id)
    (hst : r'.status = .pending) (ho : o ∈ (s.subscribe cr req rnd now).outbox.rows)
    (hsid : o.subscriberId = r.id) (hw : o.waiting = true) : o.kind = "confirm" := by
  have hsame : r' ∉ s.subscribers.rows := fun hmem => by
    rw [Table.eq_of_id hmem hr hid, hquar] at hst
    cases hst
  have hnew : ∀ {address key}, r' ≠ req.newcomer cr address key now s.subscribers.next := by
    rintro address key rfl
    exact absurd hid.symm (Int.ne_of_lt (s.subscribers.lt_next r hr))
  rcases Subs.subscribe_cases cr s req rnd now with hs | ⟨-, key, hw, -⟩ | ⟨-, key, hw, -⟩ |
    ⟨-, key, r₀, hren, hq⟩
  · exact absurd (hs ▸ hr') hsame
  · exact (((hw.rows r').mp hr').resolve_left hsame |> hnew).elim
  · exact (((hw.rows r').mp hr').resolve_left hsame |> hnew).elim
  · obtain ⟨r₁, hr₁, rfl⟩ := (hren.rows r').mp hr'
    split at hid
    · rename_i hid₀
      obtain rfl : r₁ = r := Table.eq_of_id hr₁ hr hid
      obtain rfl : r₁ = r₀ := Table.eq_of_id hr₁ hren.mem hid₀
      rcases (hq.mem o).mp ho with ⟨-, hkept⟩ | rfl
      · exact absurd ⟨hsid, .inr ⟨hquar, hw⟩⟩ hkept
      · rfl
    · rename_i hne
      rw [if_neg hne] at hsame
      exact absurd hr₁ hsame

/-- Nobody who agreed is pending. -/
theorem Consent.pending_step (h : Consent cr past d)
    (hd : run (SubsOp.step cr) .initial past = d) (hagreed : Agreed cr (past ++ [op]) sid n)
    (hr' : r' ∈ (op.step cr d).subs.subscribers.rows) (hid : r'.id = sid) :
    r'.status ≠ .pending := by
  intro hst
  rcases (agreed_append_singleton hd).mp hagreed with ⟨⟨-, r₁, hr₁, hid₁, hst₁⟩, -⟩ | ⟨hold, hno⟩
  · rw [Table.eq_of_id hr₁ hr' (hid₁.trans hid.symm), hst] at hst₁
    cases hst₁
  · have hsignUp : ¬∃ req rnd now, op = .signUp req rnd now := fun hop =>
      hno ⟨hop, r', hr', hid, hst⟩
    rcases SubsOp.row_step hr' with ⟨r, hr, hb⟩ | ⟨req, rnd, now, -, -, hop, -⟩
    · rcases hb.pending hst with hpending | ⟨req, rnd, now, hop, -⟩
      · exact h.pending sid n hold r hr ((SubsOp.id_of_becomes hb).symm.trans hid) hpending
      · exact hsignUp ⟨req, rnd, now, hop⟩
    · exact hsignUp ⟨req, rnd, now, hop⟩

/-- A row that agreed and is not pending after an operation has agreed still. -/
theorem Agreed.keep (hd : run (SubsOp.step cr) .initial past = d) (h : Agreed cr past r'.id n)
    (hr' : r' ∈ (op.step cr d).subs.subscribers.rows) (hst : r'.status ≠ .pending) :
    Agreed cr (past ++ [op]) r'.id n :=
  (agreed_append_singleton hd).mpr (.inr ⟨h, not_resets hr' hst⟩)

theorem Consent.active_step (h : Consent cr past d)
    (hd : run (SubsOp.step cr) .initial past = d)
    (hr' : r' ∈ (op.step cr d).subs.subscribers.rows) (hst : r'.status = .active) :
    Agreed cr (past ++ [op]) r'.id (op.step cr d).subs.outbox.next := by
  have hkeep : ∀ {r : Subscriber}, r'.id = r.id → Agreed cr past r.id d.subs.outbox.next →
      Agreed cr (past ++ [op]) r'.id (op.step cr d).subs.outbox.next := fun hid hagreed => by
    rw [← hid] at hagreed
    exact (hagreed.mono SubsOp.next_le_step).keep hd hr' (by rw [hst]; decide)
  rcases SubsOp.row_step hr' with ⟨r, hr, hb⟩ | ⟨req, rnd, now, address, k, -, -, -, rfl⟩
  · rcases hb.active hr hr' hst with hactive | hactivates | ⟨hchannel, chat, haddress⟩
    · exact hkeep (SubsOp.id_of_becomes hb) (h.active r hr hactive)
    · exact (agreed_append_singleton hd).mpr (.inl ⟨hactivates, Int.le_refl _⟩)
    · refine hkeep (SubsOp.id_of_becomes hb) ((h.chat r hr hchannel).resolve_left ?_)
      rintro ⟨x, hx⟩
      exact chatAddress_ne chat x (haddress.symm.trans hx)
  · cases hst

theorem Consent.chat_step (h : Consent cr past d)
    (hd : run (SubsOp.step cr) .initial past = d)
    (hr' : r' ∈ (op.step cr d).subs.subscribers.rows) (hchannel : r'.channel = .telegram) :
    (∃ x, r'.address = pendingAddress ++ x) ∨
      Agreed cr (past ++ [op]) r'.id (op.step cr d).subs.outbox.next := by
  by_cases hst : r'.status = .active
  · exact .inr (h.active_step hd hr' hst)
  rcases SubsOp.row_step hr' with ⟨r, hr, hb⟩ | ⟨req, rnd, now, address, k, -, -, hx, rfl⟩
  · have hsame : r.channel = r'.channel → r.address = r'.address → r'.id = r.id →
        (r'.status = .pending → r.status = .pending) → (∃ x, r'.address = pendingAddress ++ x) ∨
          Agreed cr (past ++ [op]) r'.id (op.step cr d).subs.outbox.next := by
      intro hc ha hid hp
      rw [← ha]
      refine (h.chat r hr (hc.trans hchannel)).imp_right fun hagreed => ?_
      have hnot := h.pending r.id _ hagreed r hr rfl
      rw [← hid] at hagreed
      exact (hagreed.mono SubsOp.next_le_step).keep hd hr' fun hst => hnot (hp hst)
    cases hb with
    | same => exact hsame rfl rfl rfl id
    | renewed _ hneeds hc _ =>
      have hneeds' : r.channel.needsAddress = true := hc ▸ hneeds
      rw [show r.channel = .telegram from hchannel] at hneeds'
      cases hneeds'
    | activated | linked | merged => exact absurd rfl hst
    | dispatched hkeeps =>
      refine hsame hkeeps.channel.symm hkeeps.address.symm hkeeps.id fun hp => ?_
      rcases hkeeps.status with h | h
      · rw [← h, hp]
      · rw [h] at hp
        cases hp
  · refine .inl (hx.resolve_left fun hneeds => ?_)
    rw [show req.channel = .telegram from hchannel] at hneeds
    cases hneeds

/-- A subscriber with news waiting agreed before an operation, and is not asked again by it. -/
theorem Consent.news_keep (h : Consent cr past d) (hd : run (SubsOp.step cr) .initial past = d)
    (hagreed : Agreed cr past r'.id n) (hr' : r' ∈ (op.step cr d).subs.subscribers.rows)
    (ho : o ∈ (op.step cr d).subs.outbox.rows) (hw : o.waiting = true) (hkind : o.kind ≠ "confirm")
    (hid : r'.id = o.subscriberId) (hbefore : ∃ r ∈ d.subs.subscribers.rows, r.id = r'.id) :
    Agreed cr (past ++ [op]) r'.id n := by
  obtain ⟨r, hr, hrid⟩ := hbefore
  refine hagreed.keep hd hr' fun hst => ?_
  have hnot := h.pending r'.id n hagreed r hr hrid
  rcases SubsOp.row_step hr' with ⟨r₁, hr₁, hb⟩ | ⟨req, rnd, now, address, k, -, -, -, rfl⟩
  · obtain rfl : r = r₁ := Table.eq_of_id hr hr₁ (hrid.trans (SubsOp.id_of_becomes hb))
    rcases hb.pending hst with hpending | ⟨req, rnd, now, rfl, hinactive⟩
    · exact hnot hpending
    · have hquar : r.status = .quarantined := by
        cases hs : r.status with
        | pending => exact absurd hs hnot
        | active => exact absurd hs hinactive
        | quarantined => rfl
      exact hkind (Subs.held_subscribe hr hquar hr' hrid.symm hst ho (hid.symm.trans hrid.symm) hw)
  · exact absurd hrid (Int.ne_of_lt (d.subs.subscribers.lt_next r hr))

theorem Consent.news_step (h : Consent cr past d)
    (hd : run (SubsOp.step cr) .initial past = d) (ho : o ∈ (op.step cr d).subs.outbox.rows)
    (hw : o.waiting = true) (hkind : o.kind ≠ "confirm")
    (hr' : r' ∈ (op.step cr d).subs.subscribers.rows) (hid : r'.id = o.subscriberId)
    (hchannel : r'.channel ≠ .telegram) : Agreed cr (past ++ [op]) r'.id o.id := by
  -- where the message was before, or that it is new
  have horigin : (∃ o₀ ∈ d.subs.outbox.rows, o₀.waiting = true ∧ o₀.kind ≠ "confirm" ∧
      o₀.subscriberId = o.subscriberId ∧ o₀.id = o.id) ∨
      ∃ r ∈ d.subs.subscribers.rows, r.status = .active ∧ r.id = o.subscriberId ∧
        d.subs.outbox.next ≤ o.id := by
    by_cases hop : ∃ ρ, op = .dispatch ρ
    · obtain ⟨ρ, rfl⟩ := hop
      obtain ⟨o₀, ho₀, hmoves⟩ := SubsOp.roundMoves_run ho
      exact .inl ⟨o₀, ho₀, hmoves.waiting hw, hmoves.kind ▸ hkind, hmoves.subscriberId.symm,
        hmoves.id.symm⟩
    · rcases SubsOp.outbox_step (fun ρ hρ => hop ⟨ρ, hρ⟩) ho with ho₀ | ⟨hnext, hfresh⟩
      · exact .inl ⟨o, ho₀, hw, hkind, rfl, rfl⟩
      · rcases hfresh with ⟨-, -, now, sid, -, hq⟩ | ⟨r, hr, hactive, -, event, now, -, hq⟩
        · rw [hq] at hkind
          exact absurd rfl hkind
        · refine .inr ⟨r, hr, hactive, ?_, hnext⟩
          rw [hq]
          rfl
  rcases horigin with ⟨o₀, ho₀, hw₀, hkind₀, hsid₀, hid₀⟩ | ⟨r, hr, hactive, hrid, hnext⟩
  · obtain ⟨r, hr, hrid⟩ := h.owned o₀ ho₀
    have hrr : r.id = r'.id := hrid.trans (hsid₀.trans hid.symm)
    have hrc : r.channel = r'.channel := by
      rcases SubsOp.row_step hr' with ⟨r₁, hr₁, hb⟩ | ⟨req, rnd, now, address, k, -, -, -, rfl⟩
      · rw [Table.eq_of_id hr hr₁ (hrr.trans (SubsOp.id_of_becomes hb))]
        exact (SubsOp.channel_of_becomes hb).symm
      · exact absurd hrr (Int.ne_of_lt (d.subs.subscribers.lt_next r hr))
    have hagreed := h.news o₀ ho₀ hw₀ hkind₀ r hr hrid (hrc ▸ hchannel)
    rw [hrr, hid₀] at hagreed
    exact h.news_keep hd hagreed hr' ho hw hkind hid ⟨r, hr, hrr⟩
  · have hrr : r.id = r'.id := hrid.trans hid.symm
    have hagreed := (h.active r hr hactive).mono hnext
    rw [hrr] at hagreed
    exact h.news_keep hd hagreed hr' ho hw hkind hid ⟨r, hr, hrr⟩

/-- **Every operation** keeps consent. -/
theorem Consent.step (h : Consent cr past d) (hd : run (SubsOp.step cr) .initial past = d)
    (op : SubsOp) : Consent cr (past ++ [op]) (op.step cr d) where
  owned := h.owned.step op
  active _ hr' hst := h.active_step hd hr' hst
  chat _ hr' hchannel := h.chat_step hd hr' hchannel
  pending _ _ hagreed _ hr' hid := h.pending_step hd hagreed hr' hid
  news _ ho hw hkind _ hr' hid hchannel := h.news_step hd ho hw hkind hr' hid hchannel

end Step

/-! ### Runs -/

theorem consent_initial (cr : Crypto) : Consent cr [] Dispatcher.initial where
  owned _ ho := absurd ho List.not_mem_nil
  active _ hr := absurd hr List.not_mem_nil
  chat _ hr := absurd hr List.not_mem_nil
  pending _ _ hagreed := hagreed.elim
  news _ ho := absurd ho List.not_mem_nil

theorem consent_run (cr : Crypto) (past : List SubsOp) :
    Consent cr past (run (SubsOp.step cr) .initial past) :=
  run_history (consent_initial cr) (fun _ op h => h.step rfl op) past

/-- The form finds the row of an address. -/
theorem Subs.find?_of_address {s : Subs} {r : Subscriber} {channel : Channel} {address : String}
    (hr : r ∈ s.subscribers.rows) (hchannel : r.channel = channel)
    (haddress : r.address = address) :
    (s.subscribers.rows.find? fun r => r.channel == channel && r.address == address) = some r := by
  cases h : s.subscribers.rows.find? fun r => r.channel == channel && r.address == address with
  | none =>
    have hno := List.find?_eq_none.mp h r hr
    simp [hchannel, haddress] at hno
  | some r₁ =>
    have hr₁ := List.mem_of_find?_eq_some h
    have haddr : r₁.channel = channel ∧ r₁.address = address := by
      simpa using List.find?_some h
    rw [eq_of_address hr₁ hr (haddr.1.trans hchannel.symm) (haddr.2.trans haddress.symm)]

/-- A sign-up for an active address does nothing. -/
theorem Subs.signUp_of_active {cr : Crypto} {s : Subs} {req : SignUp} {rnd : ℕ → String} {now : ℤ}
    {r : Subscriber} (hr : r ∈ s.subscribers.rows) (hchannel : r.channel = req.channel)
    (haddress : r.address = req.address) (hactive : r.status = .active) :
    s.signUp cr req rnd now = some s := by
  rw [signUp]
  rw [find?_of_address hr hchannel haddress]
  dsimp only
  rw [if_pos hactive]

/-- **Double opt-in.** After every run, an operation hands news over only to a subscriber who agreed
and was not asked again since, outside chats only news queued after that, and a sign-up for an
active address does nothing. -/
theorem double_opt_in (cr : Crypto) (past : List SubsOp) (op : SubsOp) : OptedIn cr past op := by
  have h := consent_run cr past
  refine ⟨fun id sid channel delivery result event url hmem hevent => ?_,
    fun req rnd now ⟨r, hr, hchannel, haddress, hactive⟩ =>
      Subs.signUp_of_active hr hchannel haddress hactive⟩
  by_cases hop : ∃ ρ, op = .dispatch ρ
  · obtain ⟨ρ, rfl⟩ := hop
    obtain ⟨o, ho, r, hr, hrid, hw, rfl, rfl, rfl, m, hm, rfl⟩ := handed_of_mem_run hmem
    obtain rfl : m = .event event url := hevent
    obtain ⟨hkind, hactive⟩ := prepare_eq_event hm
    by_cases hchannel : r.channel = .telegram
    · exact ⟨_, h.active r hr hactive, fun hne => absurd hchannel hne⟩
    · exact ⟨o.id, h.news o ho hw hkind r hr hrid hchannel, fun _ => Int.le_refl _⟩
  · rw [SubsOp.log_step fun ρ hρ => hop ⟨ρ, hρ⟩, List.drop_length] at hmem
    exact absurd hmem List.not_mem_nil

end Dunlin

import Dunlin.Lib.Transaction
import Dunlin.TokenLinks

/-!
# A chat takes over a sign-up

`link_chat` is one transaction of up to nine statements, each of which may fail. `linkChatTx` has
them one by one and is compared with `Subs.linkChat`, which does them all at once: whatever fails,
the store is left as it was, and otherwise the two do the same (`perform_linkChatTx`).

What a link that worked leaves is `Subs.HandsOver`: one row with the chat's address, with the
choices of the pending sign-up, and nothing else touched. The pending row is never the chat's own,
since a sign-up without an address never has one that is a number.

## Scope

In the code a chat is a string. Its only caller, the bot's handling of `/start`, passes the id of
the chat that the message came from, in decimal; so a chat is an integer here, and `chatAddress` is
the string.

## Main results

* `perform_linkChatTx` — the transaction is the operation or nothing
* `linkChat_handsOver` — what a link that works leaves
* `link_chat_merges` — both, in every store that can be reached
-/

namespace Dunlin

open Lib

section Statements

variable (cr : Crypto)

/-- `link_chat`, statement by statement. -/
def linkChatTx (token : String) (chat now : ℤ) : Prog (Tx Subs) Linked := do
  Tx.start
  let found ← Tx.query fun s => s.subscribers.rows.find? fun r =>
    r.channel == .telegram && r.status == .pending && r.confirmHash == some (cr.tokenHash token)
  match found with
  | none => return .invalid
  | some row =>
    if row.confirmExpires.all (· ≤ now) then return .expired
    else
      let components ← Tx.query (·.chosenBy row.id)
      let result := Linked.subscribed row.allComponents components row.maintenance
      let existing ← Tx.query fun s => s.subscribers.rows.find? fun r =>
        r.channel == .telegram && r.address == chatAddress chat
      match existing with
      | some existing =>
        Tx.exec (·.updateSubscribers (·.id == existing.id) (Subs.relinked row now)
          Subs.keeps_relinked)
        Tx.exec (·.clearComponents existing.id)
        Tx.exec (·.moveComponents existing.id row.id)
        Tx.exec (·.deleteSubscribers (·.id == row.id))
        Tx.commit
        return result
      | none =>
        Tx.execChecked (·.updateUnique row.id (Subs.linked chat now) (Subs.id_linked chat now))
        Tx.commit
        return result

variable {cr} {token : String} {chat now : ℤ} {s : Subs}

/-- **The transaction is the operation or nothing**, whichever statements fail. -/
theorem perform_linkChatTx (faults : List Bool) :
    (Tx.perform (linkChatTx cr token chat now) faults s = (none, s)) ∨
      ∃ res s', s.linkChat cr token chat now = some (res, s') ∧
        Tx.perform (linkChatTx cr token chat now) faults s = (some res, s') := by
  refine Tx.perform_of_wp (R := fun r s' => (r, s') = (none, s) ∨ ∃ res s'',
    s.linkChat cr token chat now = some (res, s'') ∧ (r, s') = (some res, s'')) ?_ faults
  rw [linkChatTx, Subs.linkChat]
  rw [Prog.bind_eq, Prog.wp_bind, Tx.wp_start]
  refine ⟨?_, .inl rfl⟩
  rw [Prog.after_some, Prog.bind_eq, Prog.wp_bind, Tx.wp_query]
  refine ⟨?_, .inl rfl⟩
  rw [Prog.after_some]
  cases s.subscribers.rows.find? fun r => r.channel == .telegram && r.status == .pending &&
    r.confirmHash == some (cr.tokenHash token) with
  | none => exact .inr ⟨_, _, rfl, rfl⟩
  | some row =>
    dsimp only
    by_cases hexp : row.confirmExpires.all (· ≤ now)
    · rw [if_pos hexp, if_pos hexp]
      exact .inr ⟨_, _, rfl, rfl⟩
    rw [if_neg hexp, if_neg hexp, Prog.bind_eq, Prog.wp_bind, Tx.wp_query]
    refine ⟨?_, .inl rfl⟩
    rw [Prog.after_some, Prog.bind_eq, Prog.wp_bind, Tx.wp_query]
    refine ⟨?_, .inl rfl⟩
    rw [Prog.after_some]
    cases s.subscribers.rows.find? fun r =>
      r.channel == .telegram && r.address == chatAddress chat with
    | some existing =>
      simp only [Prog.bind_eq, Prog.wp_bind, Prog.after_some, Prog.after_none, Tx.wp_exec,
        Tx.wp_commit, Prog.pure_eq, Prog.wp_done, true_or, and_true]
      exact .inr ⟨_, _, rfl, rfl⟩
    | none =>
      dsimp only
      rw [Prog.bind_eq, Prog.wp_bind]
      refine Tx.wp_execChecked _ (fun s' hs' => ?_) (.inl rfl)
      simp only [Prog.bind_eq, Prog.wp_bind, Prog.after_some, Prog.after_none,
        Tx.wp_commit, Prog.pure_eq, Prog.wp_done, true_or, and_true]
      exact .inr ⟨_, s', by rw [hs']; rfl, rfl⟩

/-- With nothing in its way the transaction is the operation. -/
theorem perform_linkChatTx_nil :
    Tx.perform (linkChatTx cr token chat now) [] s =
      ((s.linkChat cr token chat now).map (·.1),
        ((s.linkChat cr token chat now).map (·.2)).getD s) := by
  refine Tx.perform_of_wpOk (R := fun r s' => (r, s') = ((s.linkChat cr token chat now).map (·.1),
    ((s.linkChat cr token chat now).map (·.2)).getD s)) ?_
  rw [linkChatTx, Subs.linkChat]
  rw [Prog.bind_eq, Prog.wpOk_bind, Tx.wpOk_start, Prog.afterOk_some, Prog.bind_eq, Prog.wpOk_bind,
    Tx.wpOk_query, Prog.afterOk_some]
  cases s.subscribers.rows.find? fun r => r.channel == .telegram && r.status == .pending &&
    r.confirmHash == some (cr.tokenHash token) with
  | none => rfl
  | some row =>
    dsimp only
    by_cases hexp : row.confirmExpires.all (· ≤ now)
    · rw [if_pos hexp, if_pos hexp]
      rfl
    rw [if_neg hexp, if_neg hexp, Prog.bind_eq, Prog.wpOk_bind, Tx.wpOk_query, Prog.afterOk_some,
      Prog.bind_eq, Prog.wpOk_bind, Tx.wpOk_query, Prog.afterOk_some]
    cases s.subscribers.rows.find? fun r =>
      r.channel == .telegram && r.address == chatAddress chat with
    | some existing => rfl
    | none =>
      dsimp only
      rw [Prog.bind_eq, Prog.wpOk_bind]
      refine Tx.wpOk_execChecked _ (fun s' hs' => ?_) fun hs' => ?_
      · rw [hs']
        rfl
      · rw [hs']
        rfl

end Statements

/-! ### What a link leaves -/

/-- The chat's row `x` has the choices of the pending sign-up `p`, which is gone, and nothing else
has changed. `x` may be the sign-up's own row. -/
structure Subs.HandsOver (cr : Crypto) (token : String) (chat now : ℤ) (p x : Subscriber)
    (s s' : Subs) : Prop where
  pending : p ∈ s.subscribers.rows
  opens : p.Opens cr token now
  mem : x ∈ s'.subscribers.rows
  channel : x.channel = .telegram
  address : x.address = chatAddress chat
  only : ∀ r ∈ s'.subscribers.rows, r.channel = .telegram → r.address = chatAddress chat → r = x
  status : x.status = .active
  allComponents : x.allComponents = p.allComponents
  maintenance : x.maintenance = p.maintenance
  components : ∀ c, (x.id, c) ∈ s'.components ↔ (p.id, c) ∈ s.components
  /-- The token names no row. -/
  spent : ∀ r ∈ s'.subscribers.rows, r.confirmHash ≠ some (cr.tokenHash token)
  /-- Nothing of the sign-up is left besides the chat's row. -/
  gone : x.id ≠ p.id → (∀ r ∈ s'.subscribers.rows, r.id ≠ p.id) ∧
    (∀ c ∈ s'.components, c.1 ≠ p.id) ∧ ∀ o ∈ s'.outbox.rows, o.subscriberId ≠ p.id
  /-- Everybody else is left alone. -/
  others : ∀ r : Subscriber, r.id ≠ p.id → r.id ≠ x.id →
    (r ∈ s'.subscribers.rows ↔ r ∈ s.subscribers.rows)
  othersComponents : ∀ c : ℤ × String, c.1 ≠ p.id → c.1 ≠ x.id →
    (c ∈ s'.components ↔ c ∈ s.components)
  messages : ∀ o : OutboxRow, o.subscriberId ≠ p.id → (o ∈ s'.outbox.rows ↔ o ∈ s.outbox.rows)

namespace Subs

variable {cr : Crypto} {token : String} {chat now : ℤ} {s s' : Subs} {p x : Subscriber}

theorem mem_clearComponents {id : ℤ} {c : ℤ × String} :
    c ∈ (s.clearComponents id).components ↔ c ∈ s.components ∧ c.1 ≠ id := by
  simp [clearComponents]

theorem mem_moveComponents {target source : ℤ} {c : ℤ × String} :
    c ∈ (s.moveComponents target source).components ↔
      c.1 = target ∧ (source, c.2) ∈ s.components ∨ c.1 ≠ source ∧ c ∈ s.components := by
  rw [moveComponents, List.mem_map]
  constructor
  · rintro ⟨c₀, hc₀, rfl⟩
    by_cases hsource : c₀.1 = source
    · rw [if_pos hsource]
      exact .inl ⟨rfl, hsource ▸ hc₀⟩
    · rw [if_neg hsource]
      exact .inr ⟨hsource, hc₀⟩
  · rintro (⟨htarget, hc⟩ | ⟨hsource, hc⟩)
    · exact ⟨_, hc, by rw [if_pos rfl, ← htarget]⟩
    · exact ⟨c, hc, if_neg hsource⟩

theorem mem_components_deleteSubscribers {id : ℤ} {c : ℤ × String}
    (h : ∃ r ∈ s.subscribers.rows, r.id = id) :
    c ∈ (s.deleteSubscribers (·.id == id)).components ↔ c ∈ s.components ∧ c.1 ≠ id := by
  obtain ⟨r, hr, rfl⟩ := h
  rw [deleteSubscribers, List.mem_filter, Bool.not_eq_true', List.any_eq_false]
  refine and_congr_right fun _ => ⟨fun h hc => h r hr (by simp [hc]), fun hc r' _ h' => ?_⟩
  obtain ⟨h₁, h₂⟩ : r'.id = c.1 ∧ r'.id = r.id := by simpa using h'
  exact hc (h₁.symm.trans h₂)

/-- The components after a merge: those of the sign-up are the chat's. The delete's cascade finds
nothing, since they have moved away before it. -/
theorem mem_components_merged (hp : p ∈ s.subscribers.rows) (hne : x.id ≠ p.id)
    (c : ℤ × String) :
    c ∈ (s.merged p x now).components ↔
      c.1 = x.id ∧ (p.id, c.2) ∈ s.components ∨ c.1 ≠ x.id ∧ c.1 ≠ p.id ∧ c ∈ s.components := by
  rw [merged, mem_components_deleteSubscribers, mem_moveComponents, mem_clearComponents,
    mem_clearComponents]
  · show (c.1 = x.id ∧ (p.id, c.2) ∈ s.components ∧ p.id ≠ x.id ∨
      c.1 ≠ p.id ∧ c ∈ s.components ∧ c.1 ≠ x.id) ∧ c.1 ≠ p.id ↔ _
    constructor
    · rintro ⟨⟨hx, hc, -⟩ | ⟨hc, hmem, hx⟩, -⟩
      · exact .inl ⟨hx, hc⟩
      · exact .inr ⟨hx, hc, hmem⟩
    · rintro (⟨hx, hc⟩ | ⟨hx, hc, hmem⟩)
      · exact ⟨.inl ⟨hx, hc, hne.symm⟩, hx ▸ hne⟩
      · exact ⟨.inr ⟨hc, hmem, hx⟩, hc⟩
  · have hmem : p ∈ (s.updateSubscribers (·.id == x.id) (relinked p now)
        keeps_relinked).subscribers.rows :=
      mem_updateSubscribers.mpr ⟨p, hp, by simp [hne.symm]⟩
    exact ⟨p, hmem, rfl⟩

theorem HandsOver.of_merged (hp : p ∈ s.subscribers.rows) (hopens : p.Opens cr token now)
    (hx : x ∈ s.subscribers.rows) (hchannel : x.channel = .telegram)
    (haddress : x.address = chatAddress chat) (hne : x.id ≠ p.id) :
    s.HandsOver cr token chat now p (relinked p now x) (s.merged p x now) := by
  have hm := merges_merged hp hopens hx hchannel haddress
  have hcomps : ∀ c, c ∈ (s.merged p x now).components ↔ _ := mem_components_merged hp hne
  have hmem : relinked p now x ∈ (s.merged p x now).subscribers.rows :=
    (hm.rows _).mpr ⟨x, hx, hne, if_pos rfl⟩
  refine ⟨hp, hopens, hmem, hchannel, haddress,
    fun r hr hc ha => eq_of_address hr hmem (hc.trans hchannel.symm) (ha.trans haddress.symm), rfl,
    rfl, rfl, fun c => ?_, fun r hr hhash => ?_, fun _ => ⟨fun r hr => ?_, fun c hc => ?_,
      fun o ho => ((hm.outbox o).mp ho).2⟩,
    fun r hpr hxr => ?_, fun c hpc hxc => ?_, fun o ho => ?_⟩
  · show (x.id, c) ∈ _ ↔ _
    rw [hcomps]
    exact ⟨fun h => h.elim (·.2) fun h => absurd rfl h.1, fun h => .inl ⟨rfl, h⟩⟩
  · obtain ⟨r₁, hr₁, hne₁, rfl⟩ := (hm.rows r).mp hr
    have hhash₁ : r₁.confirmHash = some (cr.tokenHash token) := by
      rw [← hhash]
      split <;> rfl
    exact hne₁ (congrArg Subscriber.id (eq_of_confirmHash hr₁ hp hhash₁ hopens.hash))
  · obtain ⟨r₁, -, hne₁, rfl⟩ := (hm.rows r).mp hr
    split <;> exact hne₁
  · exact ((hcomps c).mp hc).elim (fun h => h.1 ▸ hne) fun h => h.2.1
  · have hx' : r.id ≠ x.id := hxr
    rw [hm.rows]
    constructor
    · rintro ⟨r₁, hr₁, -, rfl⟩
      split at hx'
      · rename_i hid
        exact absurd hid hx'
      · rename_i hid
        rwa [if_neg hid]
    · exact fun hr => ⟨r, hr, hpr, if_neg hx'⟩
  · rw [hcomps]
    exact ⟨fun h => h.elim (fun h => absurd h.1 hxc) (·.2.2), fun h => .inr ⟨hxc, hpc, h⟩⟩
  · rw [hm.outbox, and_iff_left ho]

theorem HandsOver.of_links (h : s.Links cr token chat now p s')
    (hcomps : s'.components = s.components) :
    s.HandsOver cr token chat now p (linked chat now p) s' := by
  have hmem : linked chat now p ∈ s'.subscribers.rows := (h.rows _).mpr ⟨p, h.mem, if_pos rfl⟩
  refine ⟨h.mem, h.opens, hmem, h.opens.channel, rfl,
    fun r hr hc ha => eq_of_address hr hmem (hc.trans h.opens.channel.symm) ha, rfl, rfl, rfl,
    fun c => by rw [hcomps]; rfl, fun r hr hhash => ?_, fun hne => absurd rfl hne,
    fun r hpr _ => ?_, fun c _ _ => by rw [hcomps], fun o _ => by rw [h.outbox]⟩
  · obtain ⟨r₁, hr₁, rfl⟩ := (h.rows r).mp hr
    split at hhash
    · cases hhash
    · rename_i hne
      exact hne (congrArg Subscriber.id (eq_of_confirmHash hr₁ h.mem hhash h.opens.hash))
  · rw [h.rows]
    constructor
    · rintro ⟨r₁, hr₁, rfl⟩
      split at hpr
      · rename_i hid
        exact absurd hid hpr
      · rename_i hid
        rwa [if_neg hid]
    · exact fun hr => ⟨r, hr, if_neg hpr⟩

/-- **Linking a chat hands the sign-up over**, or changes nothing. -/
theorem linkChat_handsOver {res : Linked} (hname : Nameless s)
    (h : s.linkChat cr token chat now = some (res, s')) :
    s' = s ∧ (res = .invalid ∨ res = .expired) ∨
      ∃ p x, s.HandsOver cr token chat now p x s' ∧
        res = .subscribed p.allComponents (s.chosenBy p.id) p.maintenance := by
  rcases linkChat_eq h with hsame |
    ⟨p, hp, hopens, hres, ⟨x, hx, hchannel, haddress, rfl⟩ | ⟨-, hs'⟩⟩
  · exact .inl hsame
  · refine .inr ⟨p, relinked p now x, .of_merged hp hopens hx hchannel haddress fun hid => ?_, hres⟩
    obtain ⟨y, hy⟩ := hname p hp hopens.channel hopens.status
    rw [Table.eq_of_id hx hp hid, hy] at haddress
    exact chatAddress_ne chat y haddress.symm
  · exact .inr ⟨p, linked chat now p, .of_links (links_linked hp hopens hs')
      (updateUnique_eq_some hs').2.1, hres⟩

end Subs

/-- **A chat takes over a sign-up without loss.** In any store reached, a link that works leaves one
row with the chat's address, with the choices of the pending sign-up its token named, and changes
nothing else; a link that does not work, or a statement that fails, leaves the store as it was. -/
theorem link_chat_merges (cr : Crypto) (past : List SubsOp) (token : String) (chat now : ℤ)
    (faults : List Bool) :
    let s := (run (SubsOp.step cr) .initial past).subs
    let after := Tx.perform (linkChatTx cr token chat now) faults s
    match after.1 with
    | some (.subscribed allComponents components maintenance) =>
      ∃ p x, s.HandsOver cr token chat now p x after.2 ∧ allComponents = p.allComponents ∧
        components = s.chosenBy p.id ∧ maintenance = p.maintenance
    | some .expired | some .invalid | none => after.2 = s := by
  intro s after
  have hafter : after = (none, s) ∨ ∃ res s', s.linkChat cr token chat now = some (res, s') ∧
      after = (some res, s') := perform_linkChatTx faults
  rcases hafter with hnone | ⟨res, s', hlink, hsome⟩
  · rw [hnone]
  rw [hsome]
  rcases Subs.linkChat_handsOver (trusty_run cr past).nameless hlink with ⟨hs, hres⟩ |
    ⟨p, x, hover, hres⟩
  · rcases hres with rfl | rfl <;> exact hs
  · rw [hres]
    exact ⟨p, x, hover, rfl, rfl, rfl⟩

end Dunlin

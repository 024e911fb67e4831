import Dunlin.BotDelivery
import Dunlin.DoubleOptIn
import Dunlin.ResendLimit

/-!
# What the bot does about it

An update that is answered twice is a command given twice. The second time it does nothing: the
token of a `/start` link is spent once it has worked, and a chat that was stopped has no row. Both
outlast whatever else happens to the tables (`Spent.step`), as long as no other command of the bot
comes in between. None does, since the reader takes up the update at its offset before any other
(`first_due`). So an update changes the tables once at most (`effects_once`).

## Scope

That a token tells which row it was made for rests on the hash, which a `Crypto` has as injective.

## Main results

* `Spent.step` — a command that has nothing left to do stays so
* `first_due` — the update at the offset comes before any other
* `Sparing.step` — no step of the system gives a command a second effect
* `effects_once` — every run in which one bot is polled, whatever fails in it
-/

namespace Dunlin

open Lib

/-! ### Commands that have worked -/

/-- The token is one of a row that has found its chat, or is gone. -/
structure SpentToken (cr : Crypto) (token : String) (s : Subs) : Prop where
  spent : ∃ key id e, s.key = some key ∧ token = confirmToken cr key id e ∧
    id < s.subscribers.next ∧
      ∀ r ∈ s.subscribers.rows, r.id = id → r.channel = .telegram ∧ r.status ≠ .pending

/-- The chat has no row. -/
def Unknown (chat : ℤ) (s : Subs) : Prop :=
  ∀ r ∈ s.subscribers.rows, r.channel = .telegram → r.address ≠ chatAddress chat

/-- The command of the update has nothing left to do. -/
def Spent (cr : Crypto) (u : Update) (s : Subs) : Prop :=
  (∃ token chat, u.Starts token chat ∧ SpentToken cr token s) ∨
    ∃ chat, u.Stops chat ∧ Unknown chat s

section Commands

variable {cr : Crypto} {u : Update} {s s' : Subs} {d : Dispatcher} {op : SubsOp} {token : String}
  {chat now : ℤ}

theorem SpentToken.step (h : SpentToken cr token d.subs)
    (hop : BotSystem.isBots op = false) : SpentToken cr token (op.step cr d).subs := by
  obtain ⟨key, id, e, hkey, rfl, hlt, hrows⟩ := h.spent
  refine ⟨key, id, e, SubsOp.key_step hkey, rfl,
    Int.lt_of_lt_of_le hlt SubsOp.next_subscribers_le_step, fun r' hr' hid => ?_⟩
  rcases SubsOp.row_step hr' with ⟨r, hr, hb⟩ | ⟨req, rnd, now, address, k, -, -, -, rfl⟩
  · obtain ⟨hchannel, hst⟩ := hrows r hr ((SubsOp.id_of_becomes hb).symm.trans hid)
    refine ⟨(SubsOp.channel_of_becomes hb).trans hchannel, ?_⟩
    cases hb with
    | same => exact hst
    | renewed _ hneeds hc _ =>
      rw [← hc, hchannel] at hneeds
      cases hneeds
    | activated => exact nofun
    | linked | merged => cases hop
    | dispatched hkeeps =>
      rcases hkeeps.status with hs | hs
      · rwa [hs]
      · rw [hs]
        exact nofun
  · have hnext : d.subs.subscribers.next = id := hid
    omega

theorem Unknown.step (h : Unknown chat d.subs) (hop : BotSystem.isBots op = false) :
    Unknown chat (op.step cr d).subs := by
  intro r' hr' hchannel
  rcases SubsOp.row_step hr' with ⟨r, hr, hb⟩ | ⟨req, rnd, now, address, k, -, -, hx, rfl⟩
  · have hr₀ := h r hr ((SubsOp.channel_of_becomes hb).symm.trans hchannel)
    cases hb with
    | same | renewed | activated => exact hr₀
    | linked | merged => cases hop
    | dispatched hkeeps => rwa [hkeeps.address]
  · rcases hx with hneeds | ⟨x, rfl⟩
    · have htelegram : req.channel = .telegram := hchannel
      rw [htelegram] at hneeds
      cases hneeds
    · exact fun haddress => chatAddress_ne chat x haddress.symm

/-- **A command that has nothing left to do stays so**, whatever others do. -/
theorem Spent.step (h : Spent cr u d.subs) (hop : BotSystem.isBots op = false) :
    Spent cr u (op.step cr d).subs := by
  rcases h with ⟨token, chat, hu, hspent⟩ | ⟨chat, hu, hunknown⟩
  · exact .inl ⟨token, chat, hu, hspent.step hop⟩
  · exact .inr ⟨chat, hu, hunknown.step hop⟩

/-- Rows that go away bring no command back. -/
theorem Spent.of_subset (h : Spent cr u s)
    (hrows : ∀ r ∈ s'.subscribers.rows, r ∈ s.subscribers.rows)
    (hnext : s'.subscribers.next = s.subscribers.next) (hkey : s'.key = s.key) :
    Spent cr u s' := by
  rcases h with ⟨token, chat, hu, hspent⟩ | ⟨chat, hu, hunknown⟩
  · obtain ⟨key, id, e, hkey', htoken, hlt, hid⟩ := hspent.spent
    exact .inl ⟨token, chat, hu, key, id, e, hkey.trans hkey', htoken, hnext ▸ hlt,
      fun r hr => hid r (hrows r hr)⟩
  · exact .inr ⟨chat, hu, fun r hr => hunknown r (hrows r hr)⟩

/-- A link that has worked is spent. -/
theorem SpentToken.of_linkChat {res : Linked} (hm : Minted cr s)
    (h : s.linkChat cr token chat now = some (res, s')) (hres : res.worked = true) :
    SpentToken cr token s' := by
  rcases Subs.linkChat_eq h with ⟨-, rfl | rfl⟩ | ⟨p, hp, hopens, -, hcases⟩
  · cases hres
  · cases hres
  obtain ⟨key, hkey, hminted⟩ := hm p hp
  obtain ⟨e, htoken⟩ : ∃ e, token = confirmToken cr key p.id e := by
    rcases hminted.confirm with ⟨hnone, -⟩ | ⟨e, -, hhash⟩
    · rw [hopens.hash] at hnone
      cases hnone
    · exact ⟨e, cr.tokenHash_injective (Option.some.inj (hopens.hash.symm.trans hhash))⟩
  have hlt : p.id < s.subscribers.next := s.subscribers.lt_next p hp
  have hnext : s'.subscribers.next = s.subscribers.next := by
    have hn : (((s.linkChat cr token chat now).map (·.2)).getD s).subscribers.next =
        s.subscribers.next := Subs.next_linkChat
    rwa [h] at hn
  rcases hcases with ⟨x, hx, hchannel, haddress, rfl⟩ | ⟨-, hs'⟩
  · have hmerge := Subs.merges_merged hp hopens hx hchannel haddress
    refine ⟨key, p.id, e, hmerge.key.trans hkey, htoken, hnext ▸ hlt, fun r hr hid => ?_⟩
    obtain ⟨r₁, -, hne, rfl⟩ := (hmerge.rows r).mp hr
    refine absurd ?_ hne
    split at hid <;> exact hid
  · have hlink := Subs.links_linked hp hopens hs'
    refine ⟨key, p.id, e, hlink.key.trans hkey, htoken, hnext ▸ hlt, fun r hr hid => ?_⟩
    obtain ⟨r₁, hr₁, rfl⟩ := (hlink.rows r).mp hr
    split at hid
    · rename_i h₁
      obtain rfl := Table.eq_of_id hr₁ hp h₁
      rw [if_pos rfl]
      exact ⟨hopens.channel, nofun⟩
    · rename_i h₁
      exact absurd hid h₁

/-- A spent token opens nothing. -/
theorem SpentToken.not_worked {res : Linked} (hm : Minted cr s) (hspent : SpentToken cr token s)
    (h : s.linkChat cr token chat now = some (res, s')) : res.worked = false := by
  rcases Subs.linkChat_eq h with ⟨-, rfl | rfl⟩ | ⟨p, hp, hopens, -⟩
  · rfl
  · rfl
  obtain ⟨key, id, e, hkey, rfl, -, hrows⟩ := hspent.spent
  obtain ⟨key', hkey', hminted⟩ := hm p hp
  obtain rfl : key = key' := Option.some.inj (hkey.symm.trans hkey')
  rcases hminted.confirm with ⟨hnone, -⟩ | ⟨e', -, hhash⟩
  · rw [hopens.hash] at hnone
    cases hnone
  · have htoken := cr.tokenHash_injective (Option.some.inj (hopens.hash.symm.trans hhash))
    exact absurd hopens.status (hrows p hp (deriveToken_inj htoken).1.symm).2

theorem unknown_stopChat : Unknown chat (s.stopChat chat).2 := by
  intro r hr hchannel haddress
  have hno := (Subs.mem_deleteSubscribers.mp hr).2
  simp [hchannel, haddress] at hno

theorem Unknown.not_worked (h : Unknown chat s) : (s.stopChat chat).1 = false := by
  refine List.any_eq_false.mpr fun r hr hgone => ?_
  obtain ⟨hchannel, haddress⟩ : r.channel = .telegram ∧ r.address = chatAddress chat := by
    simpa using hgone
  exact h r hr hchannel haddress

/-- An update is one command only. -/
theorem Update.Starts.token_eq {token' : String} {chat' : ℤ} (h : u.Starts token chat)
    (h' : u.Starts token' chat') : token = token' := by
  obtain ⟨text, htext, hcmd⟩ := h.command
  obtain ⟨text', htext', hcmd'⟩ := h'.command
  obtain rfl : text = text' := Option.some.inj (htext.symm.trans htext')
  have hpair := (Prod.mk.inj (hcmd.symm.trans hcmd')).2
  exact String.toList_injective (Option.some.inj hpair)

theorem Update.Starts.not_stops {chat' : ℤ} (h : u.Starts token chat) : ¬u.Stops chat' := by
  rintro ⟨-, text', p, htext', hcmd'⟩
  obtain ⟨text, htext, hcmd⟩ := h.command
  obtain rfl : text = text' := Option.some.inj (htext.symm.trans htext')
  rw [hcmd] at hcmd'
  rcases hcmd' with hcmd' | hcmd'
  · exact absurd (Prod.mk.inj hcmd').1 (by decide)
  · exact absurd (Prod.mk.inj hcmd').1 (by decide)

theorem Update.Stops.chat_eq {chat' : ℤ} (h : u.Stops chat) (h' : u.Stops chat') : chat = chat' :=
  Option.some.inj (h.chat.symm.trans h'.chat)

end Commands

/-! ### Once at most -/

/-- No update has changed the tables twice, and none that will be answered again can. -/
structure Sparing (cr : Crypto) (bot : String) (w : BotWorld) : Prop where
  trusty : Trusty cr w.dispatcher
  mine : ∀ e ∈ w.effects, e.1 = bot ∧ e.2 ∈ (w.mail bot).posted
  nodup : w.effects.Nodup
  spent : ∀ e ∈ w.effects, e.2.num < w.offset bot ∨ Spent cr e.2 w.subs ∧
    ∀ v ∈ (w.mail bot).posted, w.offset bot ≤ v.num → e.2.num ≤ v.num

section Effects

variable {cr : Crypto} {bot : String} {w w' : BotWorld} {c : Cursor Update} {g g' : BotPhase}
  {piece : Piece BotCmd BotWorld} {s : BotSystem} {u : Update} {us : List Update} {k : ℕ}

/-- Work that reaches neither the tables nor the offset, and forgets at most. -/
theorem Sparing.congr (h : Sparing cr bot w) (hdispatcher : w'.dispatcher = w.dispatcher)
    (hposted : (w'.mail bot).posted = (w.mail bot).posted) (hmetas : w'.metas = w.metas)
    (heffects : w'.effects = w.effects) : Sparing cr bot w' := by
  have hoffset : w'.offset bot = w.offset bot := by
    rw [BotWorld.offset, BotWorld.offset, hmetas]
  have hsubs : w'.subs = w.subs := by
    rw [BotWorld.subs, BotWorld.subs, hdispatcher]
  refine ⟨hdispatcher ▸ h.trusty, ?_, heffects ▸ h.nodup, ?_⟩
  · rw [heffects, hposted]
    exact h.mine
  · rw [heffects, hoffset, hposted, hsubs]
    exact h.spent

/-- The update at work is the first that is due. -/
theorem first_due (hs : Seen bot w c) (hc : c.Sound Update.num 0) (hb : c.batch = u :: us) :
    u ∈ (w.mail bot).posted ∧ w.offset bot ≤ u.num ∧
      ∀ v ∈ (w.mail bot).posted, w.offset bot ≤ v.num → u.num ≤ v.num := by
  obtain ⟨later, hdue, -, hlt⟩ := hc.due_eq hb
  have hmem : ∀ v, v ∈ c.due Update.num ↔ v ∈ (w.mail bot).posted ∧ w.offset bot ≤ v.num := by
    intro v
    rw [Cursor.mem_due, hs.posted, hs.cursor]
  rw [hdue] at hmem
  obtain ⟨hposted, hle⟩ := (hmem u).mp List.mem_cons_self
  refine ⟨hposted, hle, fun v hv hvle => ?_⟩
  rcases List.mem_cons.mp ((hmem v).mpr ⟨hv, hvle⟩) with rfl | hlater
  · exact Int.le_refl _
  · exact Int.le_of_lt (hlt v hlater)

/-- What has had its effect and is still due is the update at work. -/
theorem Sparing.behind (h : Sparing cr bot w) (hs : Seen bot w c) (hc : c.Sound Update.num 0)
    (hb : c.batch = u :: us) {e : String × Update} (he : e ∈ w.effects) (hne : e ≠ (bot, u)) :
    e.2.num < w.offset bot := by
  rcases h.spent e he with hlt | ⟨-, hfirst⟩
  · exact hlt
  by_contra hge
  obtain ⟨hposted, hle, hmin⟩ := first_due hs hc hb
  obtain ⟨hbot, hmem⟩ := h.mine e he
  have hnum : e.2.num = u.num :=
    Int.le_antisymm (hfirst u hposted hle) (hmin e.2 hmem (Int.not_lt.mp hge))
  refine hne (Prod.ext hbot (hc.eq_of_num ?_ ?_ hnum))
  · rwa [hs.posted]
  · rwa [hs.posted]

/-- **A command that works** has not worked before. -/
theorem Sparing.write (h : Sparing cr bot w) (hs : Seen bot w c) (hc : c.Sound Update.num 0)
    (hb : c.batch = u :: us) {worked : Bool} {s' : Subs} {op : SubsOp}
    (hstep : op.step cr w.dispatcher = { w.dispatcher with subs := s' })
    (hidle : worked = false → ∀ v, Spent cr v w.subs → Spent cr v s')
    (hspent : Spent cr u w.subs → worked = false)
    (hworked : worked = true → Spent cr u s') :
    Sparing cr bot (w.write (bot, u) worked s') := by
  have htrusty : Trusty cr (w.write (bot, u) worked s').dispatcher := by
    have hstep' := h.trusty.step op
    rw [hstep] at hstep'
    exact hstep'
  obtain ⟨hposted, hle, hmin⟩ := first_due hs hc hb
  cases worked with
  | false =>
    refine ⟨htrusty, h.mine, h.nodup, fun e he => ?_⟩
    exact (h.spent e he).imp_right fun hsp => ⟨hidle rfl _ hsp.1, hsp.2⟩
  | true =>
    have hnew : (bot, u) ∉ w.effects := by
      intro hmem
      rcases h.spent _ hmem with hlt | ⟨hsp, -⟩
      · exact absurd hle (Int.not_le.mpr hlt)
      · exact absurd (hspent hsp) (by decide)
    refine ⟨htrusty, fun e he => ?_, ?_, fun e he => ?_⟩
    · rcases List.mem_append.mp he with he | he
      · exact h.mine e he
      · obtain rfl := List.mem_singleton.mp he
        exact ⟨rfl, hposted⟩
    · exact List.nodup_append.mpr ⟨h.nodup, List.nodup_singleton _, fun a ha b hb' hab =>
        hnew (by rw [← List.mem_singleton.mp hb', ← hab]; exact ha)⟩
    · rcases List.mem_append.mp he with he | he
      · exact .inl (h.behind hs hc hb he fun heq => hnew (heq ▸ he))
      · obtain rfl := List.mem_singleton.mp he
        exact .inr ⟨hworked rfl, hmin⟩

/-- **A piece of a round** keeps it. -/
theorem Sparing.goes (h : Sparing cr bot w) (hs : Seen bot w c) (hc : c.Sound Update.num 0)
    (hm : g.Matches c) (hgoes : Goes bot g piece w g') :
    Sparing cr bot (piece.effect (BotCmd.act cr) w) := by
  cases hgoes with
  | offset | failed | replied | unsent | looked | gaveUp => exact h
  | updates =>
    refine h.congr rfl ?_ rfl rfl
    show (Function.update w.mail bot _ bot).posted = _
    rw [Function.update_self]
    rfl
  | answered | passed => exact h.congr rfl rfl rfl rfl
  | @linked u us token chat now w hu =>
    show Sparing cr bot (BotCmd.act cr (.linkChat (bot, u) token chat now) w)
    rw [BotCmd.act]
    cases hlink : w.subs.linkChat cr token chat now with
    | none => exact h
    | some res =>
      obtain ⟨res, s'⟩ := res
      have hop : SubsOp.step cr w.dispatcher (.linkChat token chat now) =
          { w.dispatcher with subs := s' } := by
        have htables : ((w.dispatcher.subs.linkChat cr token chat now).map (·.2)).getD
            w.dispatcher.subs = s' := by
          rw [show w.dispatcher.subs.linkChat cr token chat now = some (res, s') from hlink]
          rfl
        exact congrArg (fun s' => { w.dispatcher with subs := s' }) htables
      refine h.write hs hc hm.1 hop (fun hres => ?_) (fun hsp => ?_) fun hres => ?_
      · rcases Subs.linkChat_eq hlink with ⟨hsame, -⟩ | ⟨p, -, -, hsub, -⟩
        · exact fun v hv => hsame ▸ hv
        · rw [hsub] at hres
          cases hres
      · rcases hsp with ⟨token', chat', hu', hspent⟩ | ⟨chat', hu', -⟩
        · obtain rfl := hu.token_eq hu'
          exact hspent.not_worked h.trusty.minted hlink
        · exact absurd hu' hu.not_stops
      · exact .inl ⟨token, chat, hu, .of_linkChat h.trusty.minted hlink hres⟩
  | @stopped u us chat w hu =>
    have hop : SubsOp.step cr w.dispatcher (.stopChat chat) =
        { w.dispatcher with subs := (w.subs.stopChat chat).2 } := rfl
    refine h.write hs hc hm.1 hop (fun _ v hv => ?_) (fun hsp => ?_) fun _ => ?_
    · exact hv.of_subset (fun r hr => (Subs.mem_deleteSubscribers.mp hr).1) rfl rfl
    · rcases hsp with ⟨token', chat', hu', -⟩ | ⟨chat', hu', hunknown⟩
      · exact absurd hu hu'.not_stops
      · obtain rfl := hu.chat_eq hu'
        exact hunknown.not_worked
    · exact .inr ⟨chat, hu, unknown_stopChat⟩
  | @stored u us id w hid =>
    have hoffset : (BotCmd.act cr (.setMeta (offsetKey bot) (toString (id + 1))) w).offset bot =
        u.num + 1 := by
      refine hs.offset_setMeta ?_ hid
      exact (Cursor.mem_due.mp (hc.batch.subset (hm.1 ▸ List.mem_cons_self))).1
    refine ⟨h.trusty, h.mine, h.nodup, fun e he => .inl ?_⟩
    show e.2.num < (BotCmd.act cr (.setMeta (offsetKey bot) (toString (id + 1))) w).offset bot
    rw [hoffset]
    obtain ⟨-, hle, -⟩ := first_due hs hc hm.1
    by_cases heq : e = (bot, u)
    · rw [heq]
      exact Int.lt_succ _
    · have hlt := h.behind hs hc hm.1 he heq
      omega

/-- **A step of the system** keeps it, when only this bot is polled. -/
theorem Sparing.step (h : Sparing cr bot s.world) (hr : ReadAs bot s c k)
    (hc : c.Sound Update.num 0) (hround : ∀ b p, s.round = some (b, p) → b = bot)
    (st : BotStep) : Sparing cr bot (s.step cr st).world := by
  cases st with
  | post b u =>
    by_cases hb : b = bot
    · subst hb
      have hmail : (s.step cr (.post b u)).world.mail b = (s.world.mail b).post u :=
        Function.update_self ..
      by_cases hnew : u.updateId.isSome ∧ u.num + 1 < 2 ^ 63 ∧ 0 ≤ u.num ∧
          ∀ v ∈ (s.world.mail b).posted, v.num < u.num
      · rw [Mailbox.post, if_pos hnew] at hmail
        refine ⟨h.trusty, fun e he => ?_, h.nodup, fun e he => ?_⟩
        · rw [hmail]
          exact ⟨(h.mine e he).1, List.mem_append_left _ (h.mine e he).2⟩
        · refine (h.spent e he).imp_right fun hsp => ⟨hsp.1, fun v hv hle => ?_⟩
          rw [hmail] at hv
          rcases List.mem_append.mp hv with hv | hv
          · exact hsp.2 v hv hle
          · obtain rfl := List.mem_singleton.mp hv
            exact Int.le_of_lt (hnew.2.2.2 e.2 (h.mine e he).2)
      · rw [Mailbox.post, if_neg hnew] at hmail
        exact h.congr rfl (by rw [hmail]) rfl rfl
    · refine h.congr rfl ?_ rfl rfl
      show (Function.update s.world.mail b _ bot).posted = _
      rw [Function.update_of_ne (Ne.symm hb)]
  | limit | tick => exact h.congr rfl rfl rfl rfl
  | poll cfg token =>
    rw [BotSystem.step]
    split <;> exact h
  | crash => exact h
  | work fault =>
    cases hbusy : s.round with
    | none =>
      have hsame : s.step cr (.work fault) = s := by
        simp only [BotSystem.step, hbusy]
      rwa [hsame]
    | some round =>
      obtain ⟨b, p⟩ := round
      obtain rfl : b = bot := hround b p hbusy
      obtain ⟨hp, g, hruns, hm⟩ := hr.busy b p hbusy
      rw [if_pos rfl] at hm
      obtain ⟨piece, g', hgoes, -, heffect, -⟩ :=
        hruns.move (BotCmd.act cr) hp fault s.world
      have hworld : (s.step cr (.work fault)).world = piece.effect (BotCmd.act cr) s.world := by
        simp only [BotSystem.step, hbusy, heffect]
      rw [hworld]
      exact h.goes hr.seen hc hm.1 hgoes
  | other op =>
    rw [BotSystem.step]
    split
    · exact h
    · rename_i hop
      refine ⟨h.trusty.step op, h.mine, h.nodup, fun e he => ?_⟩
      exact (h.spent e he).imp_right fun hsp => ⟨hsp.1.step (by simpa using hop), hsp.2⟩

/-- The round in progress is one of the bot that is polled. -/
theorem round_step {b : String} {st : BotStep}
    (hst : ∀ cfg token, st = .poll cfg token → botId token = bot)
    (h : ∀ b p, s.round = some (b, p) → b = bot) {p : BotJob ℕ}
    (hp : (s.step cr st).round = some (b, p)) : b = bot := by
  cases st with
  | post | limit | tick => exact h b p hp
  | crash => cases hp
  | other op =>
    rw [BotSystem.step] at hp
    split at hp <;> exact h b p hp
  | poll cfg token =>
    rw [BotSystem.step] at hp
    split at hp
    · rw [← hst cfg token rfl]
      exact (Prod.mk.inj (Option.some.inj hp)).1.symm
    · exact h b p hp
  | work fault =>
    rw [BotSystem.step] at hp
    split at hp
    · exact h b p hp
    · rename_i b' p' hbusy
      dsimp only at hp
      split at hp
      · cases hp
      · obtain ⟨rfl, -⟩ := Prod.mk.inj (Option.some.inj hp)
        exact h _ _ hbusy

theorem sparing_initial : Sparing cr bot BotSystem.initial.world :=
  ⟨trusty_run cr [], fun _ he => absurd he List.not_mem_nil, .nil,
    fun _ he => absurd he List.not_mem_nil⟩

end Effects

/-- **A message to the bot changes the tables once at most.** In any run in which one bot is polled,
whatever fails and however often updates are answered again, and whatever else happens to the
subscriptions meanwhile, no update has linked or stopped a chat twice. -/
theorem effects_once (cr : Crypto) (bot : String) (past : List BotStep)
    (hone : ∀ cfg token, .poll cfg token ∈ past → botId token = bot) :
    (run (BotSystem.step cr) .initial past).world.effects.Nodup := by
  suffices hinv : Sparing cr bot (run (BotSystem.step cr) .initial past).world ∧
      ∀ b p, (run (BotSystem.step cr) .initial past).round = some (b, p) → b = bot from hinv.1.nodup
  induction past using List.reverseRecOn with
  | nil => exact ⟨sparing_initial, nofun⟩
  | append_singleton past st ih =>
    obtain ⟨hs, hround⟩ := ih fun cfg token hmem => hone cfg token (List.mem_append_left _ hmem)
    obtain ⟨c, hr, hc⟩ := readAs_run cr bot past
    rw [run_append]
    refine ⟨hs.step hr hc hround st, fun b p hp => round_step (fun cfg token hst => ?_) hround hp⟩
    exact hone cfg token (hst ▸ List.mem_append_right _ List.mem_cons_self)

/-- Somebody opens the link of a sign-up. -/
def opensLink : Update :=
  ⟨some 7, some 42,
    some "/start 55a2c2d2964c72e23a7ceaea6cda0259774128091981ba0507cf4f2a38857a64"⟩

/-- The offset is not stored after the update was answered, and the next round answers it again. -/
def answeredTwice : List BotStep :=
  [.other (.signUp ⟨.telegram, "", true, [], false⟩ (fun _ => sampleKey) 0),
    .post "123" opensLink, .poll sampleConfig "123:secret"] ++
  List.replicate 6 (.work false) ++ [.work true, .poll sampleConfig "123:secret"] ++
  List.replicate 7 (.work false)

theorem effects_once_answered_twice :
    (run (BotSystem.step sampleCrypto) .initial answeredTwice).world.answersOf "123" =
        [opensLink, opensLink] ∧
      (run (BotSystem.step sampleCrypto) .initial answeredTwice).world.effects =
        [("123", opensLink)] ∧
      (run (BotSystem.step sampleCrypto) .initial answeredTwice).world.effects.Nodup := by
  refine ⟨by decide +kernel, by decide +kernel, effects_once sampleCrypto "123" _ ?_⟩
  intro cfg token hmem
  obtain ⟨rfl, rfl⟩ : cfg = sampleConfig ∧ token = "123:secret" := by
    simpa [answeredTwice] using hmem
  decide

end Dunlin

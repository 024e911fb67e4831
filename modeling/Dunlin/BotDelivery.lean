import Dunlin.BotPolling
import Dunlin.TokenLinks

/-!
# What the bot is told

A round of the bot reads updates, answers them and stores its offset, and it may be cut short
between any two statements: a statement fails, or the process ends. Meanwhile people keep writing,
other bots are polled, and the tables of subscriptions change.

The rounds of one bot are a reader of its mailbox (`Cursor`): `ReadAs` relates the two, and
`readAs_step` is the simulation.

## What a failure costs

A failure costs one of two things. Where it ends the round before the offset is stored, the update
is taken up once more. Where it befalls the answer, `poll_once` logs that and moves on, and the
update has been taken up without being answered. `toll` counts both, and a phase in which the
answer has failed and the update is not taken up yet owes one (`BotPhase.owed`).

## Main results

* `updates_taken_up` — in any run a bot takes up what was posted to it, skipping and overtaking
  nothing, and every repetition and every answer that failed has a failure of its own.
* `rounds_catch_up` — rounds that nothing disturbs answer what is due.
-/

namespace Dunlin

open Lib

/-- What was taken up was answered, or its answer failed. -/
theorem BotWorld.mem_takenUp (w : BotWorld) (bot : String) (u : Update) :
    u ∈ w.takenUp bot ↔ u ∈ w.answersOf bot ∨ u ∈ w.failedAnswers bot := by
  rw [takenUp, answersOf, failedAnswers]
  simp only [List.mem_map, List.mem_filter, Bool.not_eq_true', ← exists_or, ← or_and_right,
    ← and_or_left, Bool.eq_true_or_eq_false_self, and_true]

/-- Updates that were answered. -/
theorem filter_answered (us : List Update) :
    ((us.map (·, true)).filter fun h : Update × Bool => h.2).map (·.1) = us := by
  rw [List.filter_eq_self.mpr, List.map_map]
  · exact List.map_id us
  · intro h hh
    obtain ⟨u, -, rfl⟩ := List.mem_map.mp hh
    rfl

/-! ### The phases of a round -/

/-- How far a round is. -/
inductive BotPhase
  | ready
  /-- The offset has been read. -/
  | asked (offset : ℤ)
  /-- The updates left, and whether the first of them has been taken up. -/
  | working (updates : List Update) (taken : Bool)
  /-- The updates left. The answer to the first of them has failed. -/
  | unanswered (updates : List Update)
  /-- The round was given up. -/
  | over

/-- The update is a `/start` with this token, from this chat. -/
structure Update.Starts (u : Update) (token : String) (chat : ℤ) : Prop where
  chat : u.chat = some chat
  command : ∃ text, u.text = some text ∧ commandOf text = ("/start", some token.toList)

/-- The update is a `/stop` from this chat. -/
structure Update.Stops (u : Update) (chat : ℤ) : Prop where
  chat : u.chat = some chat
  command : ∃ text p, u.text = some text ∧
    (commandOf text = ("/stop", p) ∨ commandOf text = ("/unsubscribe", p))

/-- From phase to phase. -/
inductive Goes (bot : String) :
    BotPhase → Piece BotCmd BotWorld → BotWorld → BotPhase → Prop
  | offset {w} : Goes bot .ready (.ok (.getMeta (offsetKey bot))) w
      (.asked (w.offset bot))
  | updates {offset w} : Goes bot (.asked offset) (.ok (.getUpdates bot offset)) w
      (.working (((w.mail bot).reply offset w.limit).filter (·.updateId.isSome)) false)
  | linked {u us token chat now w} (h : u.Starts token chat) :
      Goes bot (.working (u :: us) false) (.ok (.linkChat (bot, u) token chat now)) w
        (.working (u :: us) false)
  | stopped {u us chat w} (h : u.Stops chat) :
      Goes bot (.working (u :: us) false) (.ok (.stopChat (bot, u) chat)) w
        (.working (u :: us) false)
  | failed {u us command w} : Goes bot (.working (u :: us) false) (.failed command) w
      (.unanswered (u :: us))
  | answered {u us w} : Goes bot (.working (u :: us) false) (.mem (BotWorld.tookUp bot u true)) w
      (.working (u :: us) true)
  | passed {u us w} : Goes bot (.unanswered (u :: us)) (.mem (BotWorld.tookUp bot u false)) w
      (.working (u :: us) true)
  | replied {us chat html w} : Goes bot (.working us true)
      (.ok (.sendMessage bot chat html)) w (.working us true)
  | unsent {us command w} : Goes bot (.working us true) (.failed command) w (.working us true)
  | stored {u us id w} (h : u.updateId = some id) : Goes bot (.working (u :: us) true)
      (.ok (.setMeta (offsetKey bot) (toString (id + 1)))) w (.working us false)
  | looked {g w} : Goes bot g (.mem id) w g
  | gaveUp {g command w} : Goes bot g (.failed command) w .over

/-- The phase after `answer` or a part of it. -/
def BotPhase.IsAfter {α : Type} (u : Update) (us : List Update) (reply : Option α)
    (g : BotPhase) : Prop :=
  g = if reply.isSome then .working (u :: us) false else .unanswered (u :: us)

/-- A round ends with nothing left, or is given up. -/
def BotPhase.IsLast (g : BotPhase) : Prop := g = .working [] false ∨ g = .over

section Phases

variable {cr : Crypto} {cfg : Config} {bot : String} {u : Update} {us : List Update}

theorem runs_present {p : List Char} {chat now : ℤ} (h : u.Starts (String.ofList p) chat) :
    (present cr (bot, u) p chat now).Runs (Goes bot) (.working (u :: us) false)
      (BotPhase.IsAfter u us) := by
  rw [present]
  split
  · constructor
    · intro w
      refine ⟨_, .linked h, ?_⟩
      show Script.Runs _ (linkOutcome (w.subs.linkChat cr (String.ofList p) chat now)) _ _
      obtain ⟨res, hres⟩ := w.subs.exists_linkChat cr (String.ofList p) chat now
      rw [hres]
      exact rfl
    · intro w
      exact ⟨_, .failed, rfl⟩
  · exact rfl

theorem runs_answer {chat now : ℤ} {text : String} (hchat : u.chat = some chat)
    (htext : u.text = some text) :
    (answer cr cfg (bot, u) chat text now).Runs (Goes bot) (.working (u :: us) false)
      (BotPhase.IsAfter u us) := by
  have hstop : ∀ p, commandOf text = ("/stop", p) ∨ commandOf text = ("/unsubscribe", p) →
      (do
        let gone ← Script.execReturning (.stopChat (bot, u) chat) fun w => (w.subs.stopChat chat).1
        return some (if gone then "Unsubscribed. This chat gets no more updates."
          else "This chat is not subscribed.") : BotJob (Option String)).Runs (Goes bot)
        (.working (u :: us) false) (BotPhase.IsAfter u us) := by
    intro p hp
    constructor
    · intro w
      exact ⟨_, .stopped ⟨hchat, text, p, htext, hp⟩, rfl⟩
    · intro w
      exact ⟨_, .failed, rfl⟩
  rw [answer]
  split
  · rfl
  · rename_i p hcmd
    rw [Script.bind_eq]
    refine Script.Runs.bind ?_
    refine (runs_present (p := p) ⟨hchat, text, htext, by rw [hcmd, String.toList_ofList]⟩).mono ?_
    rintro (_ | linked) g rfl
    · exact rfl
    · exact rfl
  · rename_i p hcmd
    exact hstop p (.inl hcmd)
  · rename_i p hcmd
    exact hstop p (.inr hcmd)
  · rfl

/-- What came of `replyTo` says whether the answer failed. -/
theorem runs_replyTo :
    (replyTo cr cfg bot u).Runs (Goes bot) (.working (u :: us) false)
      fun r g => ∃ reply, r = some reply ∧ BotPhase.IsAfter u us reply g := by
  rw [replyTo]
  split
  · rename_i chat text hchat htext
    intro w
    refine ⟨_, .looked, Script.Runs.attempt (Script.Runs.bind ?_)⟩
    refine (runs_answer hchat htext).mono fun r g hg => ?_
    cases r with
    | none => exact ⟨none, rfl, hg⟩
    | some reply => exact ⟨some _, rfl, hg⟩
  · exact ⟨some none, rfl, rfl⟩

theorem runs_sendReply (reply : Option (ℤ × String)) :
    (sendReply bot reply).Runs (Goes bot) (.working us true)
      fun r g => r.isSome ∧ g = .working us true := by
  match reply with
  | some (chat, html) =>
    constructor
    · intro w
      exact ⟨_, .replied, rfl, rfl⟩
    · intro w
      exact ⟨_, .unsent, rfl, rfl⟩
  | none => exact ⟨rfl, rfl⟩

/-- **One update**: it is taken up, and then the offset moves past it. -/
theorem runs_handleUpdate (hid : u.updateId.isSome) :
    (handleUpdate cr cfg bot u).Runs (Goes bot) (.working (u :: us) false) fun r g => match r with
      | some _ => g = .working us false
      | none => g = .over := by
  obtain ⟨id, hid⟩ := Option.isSome_iff_exists.mp hid
  rw [handleUpdate, hid]
  dsimp only
  rw [Script.bind_eq]
  refine Script.Runs.bind (runs_replyTo.mono ?_)
  rintro _ g ⟨reply, rfl, rfl⟩
  -- with an answer or without one, the update is taken up and the offset is next
  have hrest : (do
      sendReply bot reply.join
      Script.exec (.setMeta (offsetKey bot) (toString (id + 1))) : BotJob Unit).Runs (Goes bot)
      (.working (u :: us) true) fun r g => match r with
        | some _ => g = .working us false
        | none => g = .over := by
    refine Script.Runs.bind ((runs_sendReply reply.join).mono ?_)
    rintro (_ | _) g ⟨hr, rfl⟩
    · exact absurd hr (by decide)
    constructor
    · intro w
      exact ⟨_, .stored hid, rfl⟩
    · intro w
      exact ⟨_, .gaveUp, rfl⟩
  refine Script.Runs.bind ?_
  intro w
  cases reply with
  | none => exact ⟨_, .passed, hrest⟩
  | some reply => exact ⟨_, .answered, hrest⟩

/-- **A round goes through its phases.** -/
theorem runs_pollOnce :
    (pollOnce cr cfg bot).Runs (Goes bot) .ready fun _ g => g.IsLast := by
  have hloop : ∀ updates : List Update,
      (updates.foldlM (fun _ u => handleUpdate cr cfg bot u) ()).Runs (Goes bot)
        (.working (updates.filter (·.updateId.isSome)) false) fun r g => match r with
          | some _ => g = .working [] false
          | none => g = .over := by
    intro updates
    refine (Script.Runs.foldlM (E := fun g => g = BotPhase.over)
      (I := fun us => BotPhase.working (us.filter (·.updateId.isSome)) false)
      (fun _ u us => ?_) updates ()).mono fun r g hg => by cases r <;> exact hg
    cases hid : u.updateId with
    | none =>
      rw [handleUpdate, hid, List.filter_cons_of_neg (by simp [hid])]
      rfl
    | some id =>
      have hsome : u.updateId.isSome = true := by rw [hid, Option.isSome_some]
      rw [List.filter_cons_of_pos (p := fun u : Update => u.updateId.isSome) hsome]
      exact (runs_handleUpdate hsome).mono fun r g hg => by cases r <;> exact hg
  constructor
  · intro w
    refine ⟨_, .offset, ?_⟩
    constructor
    · intro w'
      refine ⟨_, .updates, ?_⟩
      refine Script.Runs.bind (p := List.foldlM _ () _) ((hloop _).mono ?_)
      rintro (_ | _) g hg
      · exact .inr hg
      · exact .inl hg
    · intro w'
      exact ⟨_, .gaveUp, .inr rfl⟩
  · intro w
    exact ⟨_, .gaveUp, .inr rfl⟩

end Phases

/-! ### The reader behind the rounds -/

/-- The mailbox and the offset of a bot, as a reader. -/
structure Seen (bot : String) (w : BotWorld) (c : Cursor Update) : Prop where
  posted : c.posted = (w.mail bot).posted
  dropped : c.dropped = (w.mail bot).dropped
  cursor : c.cursor = w.offset bot
  log : c.log = w.takenUp bot
  ids : ∀ u ∈ c.posted, u.updateId.isSome ∧ 0 ≤ u.num ∧ u.num + 1 < 2 ^ 63

/-- The batch of the reader, at each phase. -/
def BotPhase.Matches (c : Cursor Update) : BotPhase → Prop
  | .ready | .over => c.batch = []
  | .asked offset => c.batch = [] ∧ offset = c.cursor
  | .working us taken => c.batch = us ∧ c.inHand = taken
  | .unanswered us => c.batch = us ∧ c.inHand = false

/-- What failures have cost: moves of the offset, and answers. -/
def toll (bot : String) (w : BotWorld) (c : Cursor Update) : ℕ :=
  c.lost.length + (w.failedAnswers bot).length

/-- An answer has failed and is not in the toll yet. -/
def BotPhase.owed : BotPhase → ℕ
  | .unanswered _ => 1
  | _ => 0

/-- The system, as far as one bot is concerned, is a reader of its mailbox, and failures have cost
it `k` at most. -/
structure ReadAs (bot : String) (s : BotSystem) (c : Cursor Update) (k : ℕ) : Prop where
  seen : Seen bot s.world c
  toll_le : toll bot s.world c ≤ k
  idle : s.round = none → c.batch = []
  busy : ∀ b p, s.round = some (b, p) → p.isOver = false ∧
    ∃ g, p.Runs (Goes b) g (fun _ g => g.IsLast) ∧
      if b = bot then g.Matches c ∧ toll bot s.world c + g.owed ≤ k else c.batch = []

section Simulation

variable {cr : Crypto} {bot b : String} {w w' : BotWorld} {c : Cursor Update} {g g' : BotPhase}
  {piece : Piece BotCmd BotWorld} {s : BotSystem} {k : ℕ}

theorem offsetKey_injective : Function.Injective offsetKey := by
  intro b b' h
  have happend : "telegram_offset:" ++ b = "telegram_offset:" ++ b' := h
  exact (String.append_right_inj _).mp happend

theorem readOffset_toString {n : ℤ} (hn : 0 ≤ n) (hlt : n < 2 ^ 63) :
    readOffset (some (toString n)) = n := by
  obtain ⟨m, rfl⟩ := Int.eq_ofNat_of_zero_le hn
  have hm : m < 2 ^ 63 := by omega
  show (parseSigned (2 ^ 63) m.repr.toList).getD 0 = (m : ℤ)
  rw [parseSigned_repr hm, Option.getD_some]

theorem Seen.congr (h : Seen bot w c) (hmail : w'.mail bot = w.mail bot)
    (hmetas : w'.metas.get? (offsetKey bot) = w.metas.get? (offsetKey bot))
    (hhandled : w'.handledBy bot = w.handledBy bot) : Seen bot w' c where
  posted := by rw [h.posted, hmail]
  dropped := by rw [h.dropped, hmail]
  cursor := by rw [h.cursor, BotWorld.offset, BotWorld.offset, hmetas]
  log := by rw [h.log, BotWorld.takenUp, BotWorld.takenUp, hhandled]
  ids := h.ids

theorem toll_congr (c : Cursor Update) (hhandled : w'.handledBy bot = w.handledBy bot) :
    toll bot w' c = toll bot w c := by
  rw [toll, toll, BotWorld.failedAnswers, BotWorld.failedAnswers, hhandled]

theorem view_linkChat (cr : Crypto) (w : BotWorld) (origin : String × Update) (token : String)
    (chat now : ℤ) :
    (BotCmd.act cr (.linkChat origin token chat now) w).mail = w.mail ∧
      (BotCmd.act cr (.linkChat origin token chat now) w).metas = w.metas ∧
      (BotCmd.act cr (.linkChat origin token chat now) w).handled = w.handled ∧
      (BotCmd.act cr (.linkChat origin token chat now) w).limit = w.limit := by
  rw [BotCmd.act]
  split <;> exact ⟨rfl, rfl, rfl, rfl⟩

theorem handledBy_linkChat (cr : Crypto) (w : BotWorld) (origin : String × Update)
    (token : String) (chat now : ℤ) :
    (BotCmd.act cr (.linkChat origin token chat now) w).handledBy bot = w.handledBy bot := by
  obtain ⟨-, -, hhandled, -⟩ := view_linkChat cr w origin token chat now
  rw [BotWorld.handledBy, BotWorld.handledBy, hhandled]

theorem Seen.linkChat (h : Seen bot w c) (origin : String × Update) (token : String)
    (chat now : ℤ) : Seen bot (BotCmd.act cr (.linkChat origin token chat now) w) c := by
  obtain ⟨hmail, hmetas, -⟩ := view_linkChat cr w origin token chat now
  exact h.congr (by rw [hmail]) (by rw [hmetas]) (handledBy_linkChat cr w origin token chat now)

/-- An update of the bot is taken up. -/
theorem handledBy_tookUp (u : Update) (ok : Bool) (w : BotWorld) :
    (w.tookUp bot u ok).handledBy bot = w.handledBy bot ++ [(u, ok)] := by
  show ((w.handled ++ [(bot, u, ok)]).filter fun h => h.1 = bot).map Prod.snd = _
  rw [List.filter_append, List.filter_cons_of_pos (by simp), List.filter_nil, List.map_append]
  rfl

/-- An update of another bot is taken up. -/
theorem handledBy_tookUp_of_ne (hb : b ≠ bot) (u : Update) (ok : Bool) (w : BotWorld) :
    (w.tookUp b u ok).handledBy bot = w.handledBy bot := by
  show ((w.handled ++ [(b, u, ok)]).filter fun h => h.1 = bot).map Prod.snd = _
  rw [List.filter_append, List.filter_cons_of_neg (by simpa using hb), List.filter_nil,
    List.append_nil]
  rfl

/-- Storing the offset moves it past the update. -/
theorem Seen.offset_setMeta {u : Update} {id : ℤ} (h : Seen bot w c) (hu : u ∈ c.posted)
    (hid : u.updateId = some id) :
    ({ w with metas := w.metas.upsert (offsetKey bot) fun _ => toString (id + 1) } :
      BotWorld).offset bot = u.num + 1 := by
  obtain ⟨-, hpos, hlt⟩ := h.ids u hu
  have hnum : u.num = id := by
    rw [Update.num, hid, Option.getD_some]
  show readOffset ((w.metas.upsert _ _).get? _) = _
  rw [Lib.Keyed.get?_upsert, if_pos rfl, ← hnum, readOffset_toString (by omega) hlt]

/-- A piece of a round of another bot takes up nothing of this one. -/
theorem Goes.handledBy_other (cr : Crypto) (h : Goes b g piece w g') (hb : b ≠ bot) :
    (piece.effect (BotCmd.act cr) w).handledBy bot = w.handledBy bot := by
  cases h with
  | offset | updates | stopped | failed | replied | unsent | stored | looked | gaveUp => rfl
  | linked => exact handledBy_linkChat cr w _ _ _ _
  | answered | passed => exact handledBy_tookUp_of_ne hb _ _ w

/-- A piece of a round of another bot. -/
theorem Goes.other (h : Goes b g piece w g') (hb : b ≠ bot) (hs : Seen bot w c) :
    Seen bot (piece.effect (BotCmd.act cr) w) c := by
  have hhandled := h.handledBy_other cr hb
  cases h with
  | offset | failed | replied | unsent | looked | gaveUp => exact hs
  | updates => exact hs.congr (Function.update_of_ne (Ne.symm hb) _ _) rfl hhandled
  | linked => exact hs.linkChat _ _ _ _
  | stopped | answered | passed => exact hs.congr rfl rfl hhandled
  | stored =>
    refine hs.congr rfl ?_ hhandled
    show (w.metas.upsert _ _).get? _ = _
    rw [Lib.Keyed.get?_upsert, if_neg fun hkey => hb (offsetKey_injective hkey).symm]

/-- The reader takes up an update, answered or not. -/
theorem Seen.handle {u : Update} {us : List Update} (hs : Seen bot w c) (hbatch : c.batch = u :: us)
    (hhand : c.inHand = false) (ok : Bool) :
    Seen bot (w.tookUp bot u ok) (c.step Update.num 0 .handle) ∧
      BotPhase.Matches (c.step Update.num 0 .handle) (.working (u :: us) true) ∧
      toll bot (w.tookUp bot u ok) (c.step Update.num 0 .handle) =
        toll bot w c + if ok then 0 else 1 := by
  rw [Cursor.step_handle hbatch hhand]
  refine ⟨⟨hs.posted, hs.dropped, hs.cursor, ?_, hs.ids⟩, ⟨hbatch, rfl⟩, ?_⟩
  · show c.log ++ [u] = _
    rw [BotWorld.takenUp, handledBy_tookUp, List.map_append, hs.log]
    rfl
  · rw [toll, toll, BotWorld.failedAnswers, handledBy_tookUp, List.filter_append, List.map_append,
      List.length_append, ← Nat.add_assoc]
    cases ok <;> rfl

/-- **A piece of a round** is a step of the reader, or none, and costs nothing unless it fails. -/
theorem Goes.own (cr : Crypto) (h : Goes bot g piece w g') (hs : Seen bot w c) (hm : g.Matches c)
    (hc : c.Sound Update.num 0) :
    ∃ as, Seen bot (piece.effect (BotCmd.act cr) w) (run (Cursor.step Update.num 0) c as) ∧
      g'.Matches (run (Cursor.step Update.num 0) c as) ∧
      toll bot (piece.effect (BotCmd.act cr) w) (run (Cursor.step Update.num 0) c as) + g'.owed ≤
        toll bot w c + g.owed + if piece.isFailed then 1 else 0 := by
  cases h with
  | offset => exact ⟨[], hs, ⟨hm, hs.cursor.symm⟩, Nat.le_refl _⟩
  | updates =>
    obtain ⟨hbatch, rfl⟩ := hm
    refine ⟨[.ask w.limit], ?_⟩
    rw [run_cons, run_nil, Cursor.step_ask hbatch]
    have hall : ((w.mail bot).reply c.cursor w.limit).filter (·.updateId.isSome) =
        (c.posted.filter (max c.dropped c.cursor ≤ ·.num)).take w.limit := by
      rw [Mailbox.reply, ← hs.posted, ← hs.dropped, List.filter_eq_self.mpr]
      intro u hu
      exact (hs.ids u (List.mem_filter.mp (List.mem_of_mem_take hu)).1).1
    refine ⟨⟨?_, ?_, hs.cursor, hs.log, hs.ids⟩, ⟨hall.symm, rfl⟩, Nat.le_refl _⟩
    · show c.posted = (Function.update w.mail bot _ bot).posted
      rw [Function.update_self, hs.posted]
      rfl
    · show max c.dropped c.cursor = (Function.update w.mail bot _ bot).dropped
      rw [Function.update_self, hs.dropped]
      rfl
  | linked =>
    refine ⟨[], hs.linkChat _ _ _ _, hm, Nat.le_of_eq ?_⟩
    exact congrArg (· + 0) (toll_congr c (handledBy_linkChat cr w _ _ _ _))
  | stopped => exact ⟨[], hs.congr rfl rfl rfl, hm, Nat.le_refl _⟩
  | failed => exact ⟨[], hs, hm, Nat.le_refl _⟩
  | answered =>
    obtain ⟨hseen, hmatches, htoll⟩ := hs.handle hm.1 hm.2 true
    exact ⟨[.handle], hseen, hmatches, Nat.le_of_eq htoll⟩
  | passed =>
    -- what the phase owed is in the toll now
    obtain ⟨hseen, hmatches, htoll⟩ := hs.handle hm.1 hm.2 false
    exact ⟨[.handle], hseen, hmatches, Nat.le_of_eq htoll⟩
  | replied => exact ⟨[], hs, hm, Nat.le_refl _⟩
  | unsent => exact ⟨[], hs, hm, Nat.le_succ _⟩
  | @stored u us id w h =>
    obtain ⟨hbatch, hhand⟩ := hm
    refine ⟨[.advance], ?_⟩
    rw [run_cons, run_nil, Cursor.step_advance hbatch hhand]
    have hmem : u ∈ c.posted :=
      (Cursor.mem_due.mp (hc.batch.subset (hbatch ▸ List.mem_cons_self))).1
    exact ⟨⟨hs.posted, hs.dropped, (hs.offset_setMeta hmem h).symm, hs.log, hs.ids⟩, ⟨rfl, rfl⟩,
      Nat.le_refl _⟩
  | looked => exact ⟨[], hs, hm, Nat.le_refl _⟩
  | gaveUp =>
    refine ⟨[.stop], ⟨hs.posted, hs.dropped, hs.cursor, hs.log, hs.ids⟩, rfl, ?_⟩
    have hlost := Cursor.length_lost_stop Update.num 0 c
    show (c.step Update.num 0 .stop).lost.length + (w.failedAnswers bot).length + 0 ≤
      c.lost.length + (w.failedAnswers bot).length + g.owed + 1
    omega

/-- Other work reaches neither the mailbox nor the offset. -/
theorem ReadAs.of_world (h : ReadAs bot s c k) (hmail : w'.mail bot = s.world.mail bot)
    (hmetas : w'.metas = s.world.metas) (hhandled : w'.handled = s.world.handled) :
    ReadAs bot { s with world := w' } c k := by
  have hhandledBy : w'.handledBy bot = s.world.handledBy bot := by
    rw [BotWorld.handledBy, BotWorld.handledBy, hhandled]
  have htoll := toll_congr c hhandledBy
  refine ⟨h.seen.congr hmail (by rw [hmetas]) hhandledBy, htoll ▸ h.toll_le, h.idle,
    fun b p hbusy => ?_⟩
  obtain ⟨hp, g, hruns, hm⟩ := h.busy b p hbusy
  refine ⟨hp, g, hruns, ?_⟩
  show if b = bot then g.Matches c ∧ toll bot w' c + g.owed ≤ k else _
  rwa [htoll]

/-- A message to a bot is posted to its mailbox, or refused. -/
theorem ReadAs.post (cr : Crypto) (h : ReadAs bot s c k) (u : Update) :
    ∃ as, ReadAs bot (s.step cr (.post bot u)) (run (Cursor.step Update.num 0) c as) k := by
  have hmail : (s.step cr (.post bot u)).world.mail bot = (s.world.mail bot).post u :=
    Function.update_self ..
  by_cases hnew : u.updateId.isSome ∧ u.num + 1 < 2 ^ 63 ∧ 0 ≤ u.num ∧
      ∀ v ∈ (s.world.mail bot).posted, v.num < u.num
  · obtain ⟨hid, hlt, hpos, hlast⟩ := hnew
    rw [Mailbox.post, if_pos ⟨hid, hlt, hpos, hlast⟩] at hmail
    have hstep : c.step Update.num 0 (.post u) = { c with posted := c.posted ++ [u] } :=
      if_pos ⟨hpos, by rwa [h.seen.posted]⟩
    refine ⟨[.post u], ?_⟩
    rw [run_cons, run_nil, hstep]
    refine ⟨⟨?_, ?_, h.seen.cursor, h.seen.log, ?_⟩, h.toll_le, h.idle, fun b p hround => ?_⟩
    · rw [hmail, ← h.seen.posted]
    · rw [hmail, ← h.seen.dropped]
    · intro v hv
      rcases List.mem_append.mp hv with hv | hv
      · exact h.seen.ids v hv
      · obtain rfl := List.mem_singleton.mp hv
        exact ⟨hid, hpos, hlt⟩
    · obtain ⟨hp, g, hruns, hm⟩ := h.busy b p hround
      refine ⟨hp, g, hruns, ?_⟩
      split
      · rename_i hb
        rw [if_pos hb] at hm
        cases g <;> exact hm
      · rename_i hb
        rw [if_neg hb] at hm
        exact hm
  · rw [Mailbox.post, if_neg hnew] at hmail
    exact ⟨[], h.of_world hmail rfl rfl⟩

/-- What has cost `k` at most has cost no more than a greater number. -/
theorem ReadAs.mono {k' : ℕ} (h : ReadAs bot s c k) (hk : k ≤ k') : ReadAs bot s c k' := by
  refine ⟨h.seen, h.toll_le.trans hk, h.idle, fun b p hbusy => ?_⟩
  obtain ⟨hp, g, hruns, hm⟩ := h.busy b p hbusy
  refine ⟨hp, g, hruns, ?_⟩
  split
  · rename_i hb
    rw [if_pos hb] at hm
    exact ⟨hm.1, hm.2.trans hk⟩
  · rename_i hb
    rwa [if_neg hb] at hm

/-- **One piece of work** on the round in progress. -/
theorem ReadAs.work (h : ReadAs bot s c k) (hc : c.Sound Update.num 0) (fault : Bool) :
    ∃ as, ReadAs bot (s.step cr (.work fault)) (run (Cursor.step Update.num 0) c as)
      (k + if fault then 1 else 0) := by
  cases hround : s.round with
  | none =>
    have hsame : s.step cr (.work fault) = s := by
      simp only [BotSystem.step, hround]
    rw [hsame]
    exact ⟨[], h.mono (Nat.le_add_right _ _)⟩
  | some round =>
    obtain ⟨b, p⟩ := round
    obtain ⟨hp, g, hruns, hm⟩ := h.busy b p hround
    obtain ⟨piece, g', hgoes, hruns', heffect, hfailed⟩ :=
      hruns.move (BotCmd.act cr) hp fault s.world
    have hstep : s.step cr (.work fault) =
        { world := piece.effect (BotCmd.act cr) s.world
          round := if (p.move (BotCmd.act cr) fault s.world).1.isOver then none
            else some (b, (p.move (BotCmd.act cr) fault s.world).1) } := by
      simp only [BotSystem.step, hround, heffect]
    rw [hstep]
    -- whichever bot the round is for, the reader gets to where the new phase has it
    obtain ⟨as, hseen, htoll, hm'⟩ : ∃ as,
        Seen bot (piece.effect (BotCmd.act cr) s.world) (run (Cursor.step Update.num 0) c as) ∧
          toll bot (piece.effect (BotCmd.act cr) s.world) (run (Cursor.step Update.num 0) c as) ≤
            k + (if fault then 1 else 0) ∧
          if b = bot then g'.Matches (run (Cursor.step Update.num 0) c as) ∧
              toll bot (piece.effect (BotCmd.act cr) s.world)
                (run (Cursor.step Update.num 0) c as) + g'.owed ≤ k + if fault then 1 else 0
            else (run (Cursor.step Update.num 0) c as).batch = [] := by
      by_cases hb : b = bot
      · subst hb
        rw [if_pos rfl] at hm
        obtain ⟨as, hseen, hm', htoll⟩ := hgoes.own cr h.seen hm.1 hc
        have hcost : (if piece.isFailed then 1 else 0) ≤ if fault then 1 else 0 := by
          cases hf : piece.isFailed with
          | true => rw [hfailed hf]
          | false => exact Nat.zero_le _
        have hle := htoll.trans (Nat.add_le_add hm.2 hcost)
        exact ⟨as, hseen, (Nat.le_add_right _ _).trans hle, by rw [if_pos rfl]; exact ⟨hm', hle⟩⟩
      · rw [if_neg hb] at hm
        refine ⟨[], hgoes.other hb h.seen, ?_, by rwa [if_neg hb]⟩
        exact (toll_congr c (hgoes.handledBy_other cr hb)).le.trans
          (h.toll_le.trans (Nat.le_add_right _ _))
    refine ⟨as, ⟨hseen, htoll, fun hidle => ?_, fun b' p' hbusy => ?_⟩⟩
    · dsimp only at hidle
      split at hidle
      · rename_i hover
        obtain ⟨-, hlast⟩ := hruns'.over hover
        split at hm'
        · rcases hlast with rfl | rfl
          · exact hm'.1.1
          · exact hm'.1
        · exact hm'
      · cases hidle
    · dsimp only at hbusy
      split at hbusy
      · cases hbusy
      · rename_i hover
        obtain ⟨rfl, rfl⟩ := Prod.mk.inj (Option.some.inj hbusy)
        exact ⟨Bool.eq_false_iff.mpr hover, g', hruns', hm'⟩

/-- **The system is such a reader.** One step of it is a number of steps of the reader, and costs
nothing without a failure. -/
theorem readAs_step (cr : Crypto) (h : ReadAs bot s c k) (hc : c.Sound Update.num 0)
    (st : BotStep) :
    ∃ as, ReadAs bot (s.step cr st) (run (Cursor.step Update.num 0) c as)
      (k + if st.isFailure then 1 else 0) := by
  cases st with
  | post b u =>
    by_cases hb : b = bot
    · subst hb
      exact h.post cr u
    · exact ⟨[], h.of_world (Function.update_of_ne (Ne.symm hb) _ _) rfl rfl⟩
  | limit n => exact ⟨[], h.of_world rfl rfl rfl⟩
  | tick now => exact ⟨[], h.of_world rfl rfl rfl⟩
  | poll cfg token =>
    refine ⟨[], ?_⟩
    cases hround : s.round with
    | some round =>
      have hsame : s.step cr (.poll cfg token) = s := by
        simp only [BotSystem.step, hround]
      rwa [hsame]
    | none =>
      have hstep : s.step cr (.poll cfg token) =
          { s with round := some (botId token, pollOnce cr cfg (botId token)) } := by
        simp only [BotSystem.step, hround]
      rw [hstep]
      refine ⟨h.seen, h.toll_le, nofun, fun b p hbusy => ?_⟩
      obtain ⟨rfl, rfl⟩ := Prod.mk.inj (Option.some.inj hbusy)
      refine ⟨rfl, .ready, runs_pollOnce, ?_⟩
      split
      · exact ⟨h.idle hround, h.toll_le⟩
      · exact h.idle hround
  | work fault => exact h.work hc fault
  | crash =>
    refine ⟨[.stop], ⟨?_, ?_, fun _ => rfl, nofun⟩⟩
    · exact ⟨h.seen.posted, h.seen.dropped, h.seen.cursor, h.seen.log, h.seen.ids⟩
    · have hlost := Cursor.length_lost_stop Update.num 0 c
      have hle : c.lost.length + (s.world.failedAnswers bot).length ≤ k := h.toll_le
      show (c.step Update.num 0 .stop).lost.length + (s.world.failedAnswers bot).length ≤ k + 1
      omega
  | other op =>
    refine ⟨[], ?_⟩
    show ReadAs bot (if BotSystem.isBots op then s else _) c k
    split
    · exact h
    · exact h.of_world rfl rfl rfl

theorem readAs_initial : ReadAs bot .initial (Cursor.initial 0) 0 where
  seen := ⟨rfl, rfl, rfl, rfl, fun _ hu => absurd hu List.not_mem_nil⟩
  toll_le := Nat.le_refl 0
  idle := fun _ => rfl
  busy := nofun

/-- The reader behind a run. -/
theorem readAs_run (cr : Crypto) (bot : String) (past : List BotStep) :
    ∃ c, ReadAs bot (run (BotSystem.step cr) .initial past) c (past.countP BotStep.isFailure) ∧
      c.Sound Update.num 0 := by
  induction past using List.reverseRecOn with
  | nil => exact ⟨_, readAs_initial, Cursor.sound_initial⟩
  | append_singleton past st ih =>
    obtain ⟨c, hr, hc⟩ := ih
    obtain ⟨as, hr'⟩ := readAs_step cr hr hc st
    rw [run_append, List.countP_append, List.countP_singleton]
    exact ⟨_, hr', run_invariant hc (fun c a hc => hc.step a) as⟩

end Simulation

/-- A `/stop` that runs into a failure: the offset moves past it, and it is never answered. -/
example :
    let stop : Update := ⟨some 7, some 42, some "/stop"⟩
    let w := (run (BotSystem.step sampleCrypto) .initial ([.post "123" stop,
      .poll sampleConfig "123:secret", .work false, .work false, .work false, .work true] ++
      List.replicate 2 (.work false))).world
    w.takenUp "123" = [stop] ∧ w.answersOf "123" = [] ∧ w.failedAnswers "123" = [stop] ∧
      w.offset "123" = 8 := by
  decide +kernel

/-! ### Rounds that nothing disturbs -/

/-- The updates a bot has not stored an offset for. -/
def BotWorld.due (w : BotWorld) (bot : String) : List Update :=
  (w.mail bot).posted.filter (w.offset bot ≤ ·.num)

/-- The world after a round that nothing disturbs. -/
def BotWorld.afterRound (cr : Crypto) (cfg : Config) (bot : String) (w : BotWorld) : BotWorld :=
  (((pollOnce cr cfg bot).toProg (BotCmd.act cr)).run [] w).state

/-- What a mailbox and an offset are like in any run. -/
structure InOrder (bot : String) (w : BotWorld) : Prop where
  sorted : (w.mail bot).posted.Pairwise (·.num < ·.num)
  dropped_le : (w.mail bot).dropped ≤ w.offset bot
  ids : ∀ u ∈ (w.mail bot).posted, u.updateId.isSome ∧ 0 ≤ u.num ∧ u.num + 1 < 2 ^ 63

section Undisturbed

variable {cr : Crypto} {cfg : Config} {bot : String} {w w' : BotWorld} {u : Update}

theorem inOrder_run (cr : Crypto) (bot : String) (past : List BotStep) :
    InOrder bot (run (BotSystem.step cr) .initial past).world := by
  obtain ⟨c, hr, hc⟩ := readAs_run cr bot past
  refine ⟨hr.seen.posted ▸ hc.sorted, ?_, hr.seen.posted ▸ hr.seen.ids⟩
  rw [← hr.seen.dropped, ← hr.seen.cursor]
  exact hc.dropped_le

/-- Mailboxes, offsets and what was taken up are as they were. -/
structure Quiet (w w' : BotWorld) : Prop where
  mail : w'.mail = w.mail
  metas : w'.metas = w.metas
  handled : w'.handled = w.handled
  limit : w'.limit = w.limit

theorem quiet_answer {origin : String × Update} {chat now : ℤ} {text : String} :
    ((answer cr cfg origin chat text now).toProg (BotCmd.act cr)).wpOk
      (fun r w' => r.isSome ∧ Quiet w w') w := by
  rw [answer]
  split
  · exact ⟨rfl, rfl, rfl, rfl, rfl⟩
  · rw [Script.bind_eq, Script.toProg_bind, Prog.wpOk_bind, present]
    split
    · rename_i p _ _
      obtain ⟨hmail, hmetas, hhandled, hlimit⟩ :=
        view_linkChat cr w origin (String.ofList p) chat now
      show Prog.wpOk (Script.toProg _ (linkOutcome (w.subs.linkChat cr (String.ofList p) chat now)))
        _ (BotCmd.act cr (.linkChat origin (String.ofList p) chat now) w)
      obtain ⟨res, hres⟩ := w.subs.exists_linkChat cr (String.ofList p) chat now
      rw [hres]
      exact ⟨rfl, hmail, hmetas, hhandled, hlimit⟩
    · exact ⟨rfl, rfl, rfl, rfl, rfl⟩
  · exact ⟨rfl, rfl, rfl, rfl, rfl⟩
  · exact ⟨rfl, rfl, rfl, rfl, rfl⟩
  · exact ⟨rfl, rfl, rfl, rfl, rfl⟩

theorem quiet_replyTo :
    ((replyTo cr cfg bot u).toProg (BotCmd.act cr)).wpOk
      (fun r w' => (∃ reply, r = some (some reply)) ∧ Quiet w w') w := by
  rw [replyTo]
  split
  · rw [Script.bind_eq, Script.toProg_bind, Prog.wpOk_bind, Script.toProg_get, Prog.wpOk_get,
      Prog.afterOk_some, Script.toProg_attempt, Prog.wpOk_attempt, Script.toProg_bind,
      Prog.wpOk_bind]
    refine Prog.wpOk_mono quiet_answer ?_
    rintro (_ | reply) w' ⟨hr, hq⟩
    · exact absurd hr (by decide)
    · exact ⟨⟨_, rfl⟩, hq⟩
  · exact ⟨⟨none, rfl⟩, rfl, rfl, rfl, rfl⟩

theorem quiet_sendReply (reply : Option (ℤ × String)) :
    ((sendReply bot reply).toProg (BotCmd.act cr)).wpOk
      (fun r w' => r.isSome ∧ Quiet w w') w := by
  match reply with
  | some (chat, html) => exact ⟨rfl, rfl, rfl, rfl, rfl⟩
  | none => exact ⟨rfl, rfl, rfl, rfl, rfl⟩

/-- One update: it is answered and the offset is past it. -/
theorem wpOk_handleUpdate {id : ℤ} (hid : u.updateId = some id) :
    ((handleUpdate cr cfg bot u).toProg (BotCmd.act cr)).wpOk (fun r w' => r = some () ∧
      w'.mail = w.mail ∧ w'.limit = w.limit ∧ w'.handled = w.handled ++ [(bot, u, true)] ∧
      w'.metas = w.metas.upsert (offsetKey bot) fun _ => toString (id + 1)) w := by
  rw [handleUpdate, hid]
  dsimp only
  rw [Script.bind_eq, Script.toProg_bind, Prog.wpOk_bind]
  refine Prog.wpOk_mono quiet_replyTo ?_
  rintro _ w₁ ⟨⟨reply, rfl⟩, hq₁⟩
  rw [Prog.afterOk_some, Script.bind_eq, Script.toProg_bind, Prog.wpOk_bind, Script.toProg_modify,
    Prog.wpOk_modify, Prog.afterOk_some, Script.bind_eq, Script.toProg_bind, Prog.wpOk_bind]
  refine Prog.wpOk_mono (quiet_sendReply reply) ?_
  rintro (_ | _) w₂ ⟨hr, hq₂⟩
  · exact absurd hr (by decide)
  refine ⟨rfl, hq₂.mail.trans hq₁.mail, hq₂.limit.trans hq₁.limit, ?_, ?_⟩
  · show w₂.handled = _
    rw [hq₂.handled]
    show w₁.handled ++ [(bot, u, true)] = _
    rw [hq₁.handled]
  · show w₂.metas.upsert _ _ = _
    rw [hq₂.metas]
    show w₁.metas.upsert _ _ = _
    rw [hq₁.metas]

/-- Where the offset is when these updates of a round are through. -/
def offsetAfter (offset : ℤ) (through : List Update) : ℤ :=
  (through.getLast?.map (·.num + 1)).getD offset

theorem le_offsetAfter {through : List Update} {offset : ℤ}
    (h : ∀ u ∈ through, offset ≤ u.num) : offset ≤ offsetAfter offset through := by
  rw [offsetAfter]
  cases hlast : through.getLast? with
  | none => exact Int.le_refl _
  | some u =>
    have hle := h u (List.mem_of_getLast? hlast)
    show offset ≤ u.num + 1
    omega

/-- What is due when a part of what was due is through. -/
theorem filter_offsetAfter {posted through rest : List Update} {offset : ℤ}
    (hsorted : posted.Pairwise (·.num < ·.num))
    (hdue : posted.filter (offset ≤ ·.num) = through ++ rest) :
    posted.filter (offsetAfter offset through ≤ ·.num) = rest := by
  rcases List.eq_nil_or_concat through with rfl | ⟨l, u, rfl⟩
  · exact hdue
  rw [List.concat_eq_append] at hdue ⊢
  have hafter : offsetAfter offset (l ++ [u]) = u.num + 1 := by
    rw [offsetAfter, List.getLast?_concat]
    rfl
  have hle : offset ≤ u.num := by
    have hmem : u ∈ posted.filter (offset ≤ ·.num) := by
      rw [hdue]
      exact List.mem_append_left _ (List.mem_append_right _ List.mem_cons_self)
    simpa using (List.mem_filter.mp hmem).2
  have hagain : posted.filter (u.num + 1 ≤ ·.num) =
      (posted.filter (offset ≤ ·.num)).filter (u.num + 1 ≤ ·.num) := by
    rw [List.filter_filter]
    refine List.filter_congr fun v _ => ?_
    rw [← Bool.decide_and]
    exact decide_eq_decide.mpr ⟨fun h => ⟨h, by omega⟩, fun h => h.1⟩
  have hparts : (l ++ [u] ++ rest).Pairwise (·.num < ·.num) := hdue ▸ hsorted.filter _
  obtain ⟨hfirst, -, hcross⟩ := List.pairwise_append.mp hparts
  obtain ⟨-, -, hlast⟩ := List.pairwise_append.mp hfirst
  rw [hafter, hagain, hdue, List.filter_append, List.filter_eq_nil_iff.mpr,
    List.filter_eq_self.mpr, List.nil_append]
  · intro v hv
    have hlt := hcross u (List.mem_append_right _ List.mem_cons_self) v hv
    simp only [decide_eq_true_eq]
    omega
  · intro v hv
    simp only [decide_eq_true_eq]
    rcases List.mem_append.mp hv with hv | hv
    · have hlt := hlast v hv u List.mem_cons_self
      omega
    · rw [List.mem_singleton.mp hv]
      omega

theorem wpOk_pollOnce (cr : Crypto) (cfg : Config) (h : InOrder bot w) :
    ((pollOnce cr cfg bot).toProg (BotCmd.act cr)).wpOk (fun _ w' =>
      w'.mail = Function.update w.mail bot ((w.mail bot).forget (w.offset bot)) ∧
      w'.limit = w.limit ∧
      w'.handledBy bot = w.handledBy bot ++ ((w.due bot).take w.limit).map (·, true) ∧
      w'.offset bot = offsetAfter (w.offset bot) ((w.due bot).take w.limit)) w := by
  have hreply : (w.mail bot).reply (w.offset bot) w.limit = (w.due bot).take w.limit := by
    rw [Mailbox.reply, Int.max_eq_right h.dropped_le]
    rfl
  rw [pollOnce, Script.bind_eq, Script.toProg_bind, Prog.wpOk_bind, Script.toProg_execReturning,
    Prog.wpOk_execReturning, Prog.afterOk_some]
  dsimp only
  rw [Script.bind_eq, Script.toProg_bind, Prog.wpOk_bind, Script.toProg_execReturning,
    Prog.wpOk_execReturning, Prog.afterOk_some, Script.bind_eq, Script.toProg_bind, Prog.wpOk_bind,
    Script.toProg_foldlM]
  show Prog.wpOk (List.foldlM _ () ((w.mail bot).reply (w.offset bot) w.limit)) _
    { w with mail := Function.update w.mail bot ((w.mail bot).forget (w.offset bot)) }
  rw [hreply]
  -- the updates that are through, and what they have left behind
  refine Prog.wpOk_mono (Prog.wpOk_foldlM (I := fun us _ w' => ∃ through,
    (w.due bot).take w.limit = through ++ us ∧
      w'.mail = Function.update w.mail bot ((w.mail bot).forget (w.offset bot)) ∧
      w'.limit = w.limit ∧ w'.handledBy bot = w.handledBy bot ++ through.map (·, true) ∧
      w'.offset bot = offsetAfter (w.offset bot) through) ?_ _ _ _
    ⟨[], rfl, rfl, rfl, (List.append_nil _).symm, rfl⟩) ?_
  · rintro u us _ w' ⟨through, hbatch, hmail, hlimit, hhandled, -⟩
    have hu : u ∈ (w.mail bot).posted := by
      have hmem : u ∈ (w.due bot).take w.limit := by
        rw [hbatch]
        exact List.mem_append_right _ List.mem_cons_self
      exact (List.mem_filter.mp (List.mem_of_mem_take hmem)).1
    obtain ⟨hsome, hpos, hlt⟩ := h.ids u hu
    obtain ⟨id, hid⟩ := Option.isSome_iff_exists.mp hsome
    have hnum : u.num = id := by
      rw [Update.num, hid, Option.getD_some]
    refine Prog.wpOk_mono (wpOk_handleUpdate hid) ?_
    rintro r w'' ⟨rfl, hmail', hlimit', hhandled', hmetas'⟩
    refine ⟨(), rfl, through ++ [u], ?_, hmail'.trans hmail, hlimit'.trans hlimit, ?_, ?_⟩
    · rw [hbatch, List.append_assoc, List.singleton_append]
    · have htook : w''.handledBy bot = (w'.tookUp bot u true).handledBy bot := by
        rw [BotWorld.handledBy, hhandled']
        rfl
      rw [htook, handledBy_tookUp, hhandled, List.map_append, List.append_assoc]
      rfl
    · rw [BotWorld.offset, hmetas', Lib.Keyed.get?_upsert, if_pos rfl, ← hnum,
        readOffset_toString (by omega) hlt, offsetAfter, List.getLast?_concat]
      rfl
  · rintro r w' ⟨_, rfl, through, hbatch, hmail, hlimit, hhandled, hoffset⟩
    rw [List.append_nil] at hbatch
    rw [hbatch]
    exact ⟨hmail, hlimit, hhandled, hoffset⟩

/-- **A round that nothing disturbs** answers what it is handed, which is the first of what is due,
and nothing else is due afterwards than what was left. -/
theorem InOrder.afterRound (h : InOrder bot w) (cr : Crypto) (cfg : Config) :
    InOrder bot (w.afterRound cr cfg bot) ∧ (w.afterRound cr cfg bot).limit = w.limit ∧
      (w.afterRound cr cfg bot).answersOf bot = w.answersOf bot ++ (w.due bot).take w.limit ∧
      (w.afterRound cr cfg bot).due bot = (w.due bot).drop w.limit := by
  obtain ⟨hmail, hlimit, hhandled, hoffset⟩ := Prog.wpOk_iff_run.mp (wpOk_pollOnce cr cfg h)
  have hposted : ((w.afterRound cr cfg bot).mail bot).posted = (w.mail bot).posted := by
    rw [BotWorld.afterRound, hmail, Function.update_self]
    rfl
  have hdue : (w.mail bot).posted.filter (w.offset bot ≤ ·.num) =
      (w.due bot).take w.limit ++ (w.due bot).drop w.limit := (List.take_append_drop _ _).symm
  refine ⟨⟨hposted ▸ h.sorted, ?_, hposted ▸ h.ids⟩, hlimit, ?_, ?_⟩
  · rw [BotWorld.afterRound, hmail, Function.update_self, hoffset]
    have hle : w.offset bot ≤ offsetAfter (w.offset bot) ((w.due bot).take w.limit) := by
      refine le_offsetAfter fun u hu => ?_
      simpa using (List.mem_filter.mp (List.mem_of_mem_take hu)).2
    exact Int.max_le.mpr ⟨h.dropped_le.trans hle, hle⟩
  · rw [BotWorld.afterRound, BotWorld.answersOf, hhandled, List.filter_append, List.map_append,
      filter_answered]
    rfl
  · rw [BotWorld.due, hposted]
    show (w.mail bot).posted.filter ((w.afterRound cr cfg bot).offset bot ≤ ·.num) = _
    rw [BotWorld.afterRound, hoffset]
    exact filter_offsetAfter h.sorted hdue

/-- The pieces of a round, one after the other. -/
theorem run_work {b : String} {p : BotJob ℕ} (hp : p.isOver = false) (plan : List Bool) :
    run (BotSystem.step cr) ⟨w, some (b, p)⟩ (plan.map .work) =
      ⟨(Script.moves (BotCmd.act cr) plan (p, w)).2,
        if (Script.moves (BotCmd.act cr) plan (p, w)).1.isOver then none
        else some (b, (Script.moves (BotCmd.act cr) plan (p, w)).1)⟩ := by
  induction plan generalizing p w with
  | nil =>
    show (⟨w, some (b, p)⟩ : BotSystem) = ⟨w, if p.isOver then none else some (b, p)⟩
    rw [hp]
    rfl
  | cons fault plan ih =>
    rw [List.map_cons, run_cons, Script.moves_cons]
    show run (BotSystem.step cr) ⟨(p.move (BotCmd.act cr) fault w).2,
      if (p.move (BotCmd.act cr) fault w).1.isOver then none
      else some (b, (p.move (BotCmd.act cr) fault w).1)⟩ _ = _
    cases hover : (p.move (BotCmd.act cr) fault w).1.isOver with
    | false => exact ih hover
    | true =>
      have hidle : ∀ (plan : List Bool) (w : BotWorld),
          run (BotSystem.step cr) ⟨w, none⟩ (plan.map .work) = ⟨w, none⟩ := by
        intro plan w
        induction plan with
        | nil => rfl
        | cons fault plan ih => exact ih
      rw [Script.moves_of_isOver hover, hover, if_pos rfl]
      exact hidle plan _

/-- A round that nothing disturbs is one of the system. -/
theorem exists_run_afterRound (cr : Crypto) (cfg : Config) (token : String) (w : BotWorld) :
    ∃ n, run (BotSystem.step cr) ⟨w, none⟩ (.poll cfg token :: List.replicate n (.work false)) =
      ⟨w.afterRound cr cfg (botId token), none⟩ := by
  obtain ⟨n, hn⟩ := Script.exists_moves (BotCmd.act cr) (pollOnce cr cfg (botId token)) w
  refine ⟨n, ?_⟩
  show run (BotSystem.step cr) ⟨w, some (botId token, pollOnce cr cfg (botId token))⟩ _ = _
  rw [← List.map_replicate, run_work rfl, hn, Script.isOver_ended, if_pos rfl]
  rfl

end Undisturbed

/-- Steps that poll a bot and let the round go on. -/
def BotStep.Polls (cfg : Config) (token : String) (st : BotStep) : Prop :=
  st = .poll cfg token ∨ st = .work false

/-- Any number of rounds that nothing disturbs are a run of the system. -/
theorem exists_run_afterRounds (cr : Crypto) (cfg : Config) (token : String) (k : ℕ)
    (w : BotWorld) :
    ∃ steps : List BotStep, (∀ st ∈ steps, st.Polls cfg token) ∧
      run (BotSystem.step cr) ⟨w, none⟩ steps =
        ⟨(BotWorld.afterRound cr cfg (botId token))^[k] w, none⟩ := by
  induction k generalizing w with
  | zero => exact ⟨[], fun _ hst => absurd hst List.not_mem_nil, rfl⟩
  | succ k ih =>
    obtain ⟨n, hround⟩ := exists_run_afterRound cr cfg token w
    obtain ⟨steps, hsteps, hrounds⟩ := ih (w.afterRound cr cfg (botId token))
    refine ⟨(.poll cfg token :: List.replicate n (.work false)) ++ steps, fun st hst => ?_, ?_⟩
    · rcases List.mem_append.mp hst with hst | hst
      · rcases List.mem_cons.mp hst with rfl | hst
        · exact .inl rfl
        · exact .inr (List.eq_of_mem_replicate hst)
      · exact hsteps st hst
    · rw [run_append, hround, hrounds, Function.iterate_succ_apply]

end Dunlin

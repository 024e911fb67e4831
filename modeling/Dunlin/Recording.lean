import Dunlin.GivenUp
import Dunlin.Lib.Prog
import Dunlin.OutboxLifecycle

/-!
# Recording a send, statement by statement

`dispatch_due` records what became of a send in one to three statements, and gives a row up in one.
Each of them is followed by `?`, so the first that fails ends the round: what came before it is
done, what comes after it is not, and the rows further down the snapshot get no turn. The message
was sent all the same.

`Dispatch.lean` has the turn of a row in which every statement succeeds. Here the same turn is a
program (`Lib.Prog`), for the results that allow the database to fail. `wpOk_recordSend` says that
it is the same turn when nothing fails.

## What a failing turn leaves

A turn that breaks off can leave a failure counted and the message as it was, or a message marked
as sent whose subscriber's failures are not cleared. `RowMoves` is what every such turn keeps to: it
moves no message but its own, leaves of each subscriber all but the failures and the status, and
loses a message only with its subscriber. It is a preorder on tables, and each statement has a lemma
that it is a step of it.

What a turn that does not break off has to show is that the message knows about it
(`wp_recordSend`): its columns are those of an attempt, or its subscriber is gone.

## Main results

* `wpOk_recordSend` — without a failure, recording is the rest of the turn
* `wp_recordSend`, `wp_giveUpRow` — and whichever statement fails
* `RowMoves` — what all turns have in common
-/

namespace Dunlin

open Lib

/-- A statement on the tables. -/
def Dispatcher.onSubs (f : Subs → Subs) (d : Dispatcher) : Dispatcher := { d with subs := f d.subs }

section Programs

variable (now : ℤ)

/-- `count_failure`. -/
def countFailureProg (sid : ℤ) : Prog Dispatcher Bool := do
  let failures ← Prog.execReturning
    (Dispatcher.onSubs fun s =>
      s.updateSubscribers (·.id == sid) (Subs.countFailureRow now) Subs.keeps_countFailureRow)
    fun d => (d.subs.subscribers.find? sid).map fun r =>
      (Subs.countFailureRow now r).failuresInWindow
  match failures with
  | none => return false
  | some failures =>
    if failures < quarantineFailures then return false
    else
      Prog.execReturning
        (Dispatcher.onSubs fun s =>
          s.updateSubscribers (fun r => r.id == sid && r.status != .quarantined)
            (Subs.quarantineRow now) Subs.keeps_quarantineRow)
        fun d => (d.subs.subscribers.find? sid).any (·.status != .quarantined)

/-- The `UPDATE` of a message after an attempt that did not remove its subscriber. -/
def updateAttempted (row : DueRow) (result : SendResult) : Prog Dispatcher Unit :=
  Prog.exec (Dispatcher.onSubs fun s =>
    s.updateOutbox row.id (OutboxRow.attempted now (row.attempts + 1) result)
      fun o => (RoundMoves.attempted now _ _ o).id)

/-- The end of the turn of a message that is put off or given up. -/
def updateFailed (row : DueRow) (failure : Failure) (result : SendResult) :
    Prog Dispatcher Unit := do
  updateAttempted now row result
  Prog.modify fun d => { d with
    stats :=
      if failure = .permanent ∨ row.attempts + 1 ≥ maxAttempts then
        { d.stats with givenUp := d.stats.givenUp + 1 }
      else { d.stats with retried := d.stats.retried + 1 } }

/-- Record what became of a send. -/
def recordSend (row : DueRow) (result : SendResult) : Prog Dispatcher Unit :=
  match result.error with
  | none => do
    updateAttempted now row result
    Prog.exec (Dispatcher.onSubs fun s => s.clearFailures row.sid)
    Prog.modify fun d => { d with stats := { d.stats with sent := d.stats.sent + 1 } }
  | some (failure, _) =>
    if failure = .gone then do
      Prog.exec (Dispatcher.onSubs fun s => s.delete row.sid)
      Prog.modify fun d => { d with
        stats := { d.stats with removed := d.stats.removed + 1 }
        log := d.log ++ [.removed row.sid] }
    else do
      let quarantined ← if failure.counts then countFailureProg now row.sid else pure false
      if quarantined then
        Prog.modify fun d => { d with
          stats := { d.stats with quarantined := d.stats.quarantined + 1 }
          log := d.log ++ [.quarantined row.sid] }
      updateFailed now row failure result

/-- Give a message up without sending it. -/
def giveUpRow (row : DueRow) (error : String) (counted : Bool) : Prog Dispatcher Unit := do
  Prog.exec (Dispatcher.onSubs fun s => s.giveUp row.id now error)
  if counted then
    Prog.modify fun d => { d with stats := { d.stats with givenUp := d.stats.givenUp + 1 } }

end Programs

/-- The dispatcher when a channel has answered: the pacer is told, before anything is recorded. -/
def Dispatcher.handed (cfg : Config) (row : DueRow) (m : Message) (env : SendEnv) (d : Dispatcher) :
    Dispatcher :=
  { d with
    pacer := d.pacer.record row.channel row.address env.doneAt
    log := d.log ++ [.handed row.id row.sid row.channel (deliveryOf cfg row m) env.result] }

/-! ### Without a failure -/

section Undisturbed

variable {cfg : Config} {now sid : ℤ} {row : DueRow} {m : Message} {env : SendEnv} {d : Dispatcher}

theorem wpOk_countFailureProg : (countFailureProg now sid).wpOk
    (fun r d' => r = some (d.subs.countFailure sid now).1 ∧
      d' = { d with subs := (d.subs.countFailure sid now).2 }) d := by
  rw [countFailureProg, Subs.countFailure]
  simp only [Prog.bind_eq, Prog.pure_eq, Prog.wpOk_bind, Prog.wpOk_execReturning, Prog.afterOk_some]
  rw [Subs.find?_counted]
  cases h : d.subs.subscribers.find? sid with
  | none => exact ⟨rfl, rfl⟩
  | some r =>
    simp only [Option.map_some]
    split
    · exact ⟨rfl, rfl⟩
    · rw [Prog.wpOk_execReturning]
      simp only [Dispatcher.onSubs, Subs.find?_counted, h]
      exact ⟨rfl, trivial⟩

theorem updateOutbox_congr {s : Subs} {id : ℤ} {f g : OutboxRow → OutboxRow}
    {hf : ∀ o, (f o).id = o.id} {hg : ∀ o, (g o).id = o.id} (h : ∀ o, f o = g o) :
    s.updateOutbox id f hf = s.updateOutbox id g hg := by
  obtain rfl := funext h
  rfl

/-- A failure is counted before the message is put off or given up. -/
theorem onCounted_eq {failure : Failure} : onCounted now row failure d =
    if failure.counts then
      if (d.subs.countFailure row.sid now).1 then
        { d with
          subs := (d.subs.countFailure row.sid now).2
          stats := { d.stats with quarantined := d.stats.quarantined + 1 }
          log := d.log ++ [.quarantined row.sid] }
      else { d with subs := (d.subs.countFailure row.sid now).2 }
    else d := by
  rw [onCounted]

theorem wpOk_updateFailed {failure : Failure} {text : String}
    (herr : env.result.error = some (failure, text)) :
    (updateFailed now row failure env.result).wpOk (fun r d' => r = some () ∧
      d' = onFailed now row failure (String.ofList (text.toList.take 500)) d) d := by
  rw [updateFailed]
  simp only [updateAttempted, Prog.bind_eq, Prog.wpOk_bind, Prog.wpOk_exec, Prog.wpOk_modify,
    Prog.afterOk_some]
  refine ⟨trivial, ?_⟩
  rw [onFailed]
  dsimp only
  by_cases hover : failure = .permanent ∨ row.attempts + 1 ≥ maxAttempts
  · rw [if_pos hover, if_pos hover]
    refine congrArg (fun subs => Dispatcher.mk subs _ _ _) (updateOutbox_congr fun o => ?_)
    simp only [OutboxRow.attempted, herr]
    exact if_pos hover
  · rw [if_neg hover, if_neg hover]
    refine congrArg (fun subs => Dispatcher.mk subs _ _ _) (updateOutbox_congr fun o => ?_)
    simp only [OutboxRow.attempted, herr]
    exact if_neg hover

/-- **Recording a send without a failure** is the rest of a row's turn. -/
theorem wpOk_recordSend : (recordSend now row env.result).wpOk
    (fun r d' => r = some () ∧ d' = handOver cfg now row m env d) (d.handed cfg row m env) := by
  rw [recordSend, handOver]
  cases herr : env.result.error with
  | none =>
    simp only [updateAttempted, Prog.bind_eq, Prog.wpOk_bind, Prog.wpOk_exec, Prog.wpOk_modify,
      Prog.afterOk_some]
    refine ⟨trivial, ?_⟩
    refine congrArg (fun subs => Dispatcher.mk (Subs.clearFailures subs row.sid) _ _ _)
      (updateOutbox_congr fun o => ?_)
    simp only [OutboxRow.attempted, herr]
  | some error =>
    obtain ⟨failure, text⟩ := error
    dsimp only
    rw [onError]
    dsimp only
    split
    · simp [Dispatcher.onSubs, Dispatcher.handed]
    · rw [onCounted_eq]
      cases hc : failure.counts with
      | false =>
        simp only [Bool.false_eq_true, if_false, Prog.bind_eq, Prog.pure_eq]
        exact wpOk_updateFailed herr
      | true =>
        simp only [if_true, Prog.bind_eq, Prog.wpOk_bind]
        refine Prog.wpOk_mono wpOk_countFailureProg ?_
        rintro r d' ⟨rfl, rfl⟩
        rw [Prog.afterOk_some, show (d.handed cfg row m env).subs = d.subs from rfl]
        cases (d.subs.countFailure row.sid now).1 with
        | false =>
          simp only [Bool.false_eq_true, if_false]
          exact wpOk_updateFailed herr
        | true =>
          simp only [if_true, Prog.wpOk_bind, Prog.wpOk_modify, Prog.afterOk_some]
          exact wpOk_updateFailed herr

end Undisturbed

/-! ### Whatever fails -/

/-- What the turn of the message `id` may do to the tables, whichever of its statements fail. -/
structure RowMoves (id : ℤ) (s s' : Subs) : Prop where
  outbox : ∀ o' ∈ s'.outbox.rows, ∃ o ∈ s.outbox.rows, RoundMoves o o' ∧ (o = o' ∨ o.id = id)
  subscribers : ∀ r' ∈ s'.subscribers.rows, ∃ r ∈ s.subscribers.rows, RoundKeeps r r'
  next : s'.outbox.next = s.outbox.next
  stays : ∀ o : OutboxRow, o.Stays s → o.Stays s'

section Moves

variable {id now : ℤ} {s s' s'' : Subs} {row : DueRow} {d : Dispatcher}

theorem RowMoves.refl (id : ℤ) (s : Subs) : RowMoves id s s :=
  ⟨fun o ho => ⟨o, ho, .refl o, .inl rfl⟩, fun r hr => ⟨r, hr, .refl r⟩, rfl, fun _ h => h⟩

theorem RowMoves.trans (h : RowMoves id s s') (h' : RowMoves id s' s'') : RowMoves id s s'' := by
  refine ⟨fun o'' ho'' => ?_, fun r'' hr'' => ?_, h'.next.trans h.next,
    fun o ho => h'.stays o (h.stays o ho)⟩
  · obtain ⟨o', ho', hmoves', hsame'⟩ := h'.outbox o'' ho''
    obtain ⟨o, ho, hmoves, hsame⟩ := h.outbox o' ho'
    refine ⟨o, ho, hmoves.trans hmoves', ?_⟩
    rcases hsame with rfl | hid
    · exact hsame'
    · exact .inr hid
  · obtain ⟨r', hr', hkeeps'⟩ := h'.subscribers r'' hr''
    obtain ⟨r, hr, hkeeps⟩ := h.subscribers r' hr'
    exact ⟨r, hr, hkeeps.trans hkeeps'⟩

/-- An `UPDATE` of subscribers. -/
theorem RowMoves.updateSubscribers {p : Subscriber → Bool} {f : Subscriber → Subscriber}
    {hf : Subs.Keeps f} (hkeeps : ∀ r, RoundKeeps r (f r)) :
    RowMoves id s (s.updateSubscribers p f hf) := by
  have hback : ∀ r' ∈ (s.updateSubscribers p f hf).subscribers.rows,
      ∃ r ∈ s.subscribers.rows, RoundKeeps r r' := by
    intro r' hr'
    obtain ⟨r, hr, rfl⟩ := Subs.mem_updateSubscribers.mp hr'
    refine ⟨r, hr, ?_⟩
    split
    · exact hkeeps r
    · exact .refl r
  refine ⟨fun o ho => ⟨o, ho, .refl o, .inl rfl⟩, hback, rfl, fun o ho => ?_⟩
  rcases ho with hthere | hgone
  · exact .inl hthere
  · refine .inr fun r' hr' => ?_
    obtain ⟨r, hr, hkept⟩ := hback r' hr'
    rw [hkept.id]
    exact hgone r hr

/-- An `UPDATE` of the row's message. -/
theorem RowMoves.updateOutbox {f : OutboxRow → OutboxRow} {hf : ∀ o, (f o).id = o.id}
    (hmoves : ∀ o, RoundMoves o (f o)) : RowMoves id s (s.updateOutbox id f hf) := by
  refine ⟨fun o' ho' => ?_, fun r hr => ⟨r, hr, .refl r⟩, rfl, fun o ho => ?_⟩
  · obtain ⟨o, ho, rfl⟩ := Subs.mem_updateOutbox.mp ho'
    refine ⟨o, ho, ?_⟩
    split
    · exact ⟨hmoves o, .inr ‹_›⟩
    · exact ⟨.refl o, .inl rfl⟩
  · rcases ho with ⟨o', ho', hid, hsid⟩ | hgone
    · refine .inl ⟨_, Subs.mem_updateOutbox.mpr ⟨o', ho', rfl⟩, ?_⟩
      split
      · exact ⟨(hmoves o').id.trans hid, (hmoves o').subscriberId.trans hsid⟩
      · exact ⟨hid, hsid⟩
    · exact .inr hgone

/-- The `DELETE` of a subscriber. -/
theorem RowMoves.delete (sid : ℤ) : RowMoves id s (s.delete sid) := by
  refine ⟨fun o ho => ⟨o, (Subs.mem_outbox_deleteSubscribers.mp ho).1, .refl o, .inl rfl⟩,
    fun r hr => ⟨r, (Subs.mem_deleteSubscribers.mp hr).1, .refl r⟩, rfl, fun o ho => ?_⟩
  rcases ho with ⟨o', ho', hid, hsid⟩ | hgone
  · by_cases heq : sid = o.subscriberId
    · refine .inr fun r hr hrid => ?_
      have hne := (Subs.mem_deleteSubscribers.mp hr).2
      simp [hrid, heq] at hne
    · refine .inl ⟨o', Subs.mem_outbox_deleteSubscribers.mpr ⟨ho', fun r _ hrid => ?_⟩, hid, hsid⟩
      rw [hrid, hsid]
      exact beq_eq_false_iff_ne.mpr (Ne.symm heq)
  · exact .inr fun r hr => hgone r (Subs.mem_deleteSubscribers.mp hr).1

theorem RoundKeeps.countFailureRow (now : ℤ) (r : Subscriber) :
    RoundKeeps r (Subs.countFailureRow now r) := ⟨rfl, rfl, rfl, rfl, rfl, rfl, rfl, .inl rfl⟩

theorem RoundKeeps.quarantineRow (now : ℤ) (r : Subscriber) :
    RoundKeeps r (Subs.quarantineRow now r) := ⟨rfl, rfl, rfl, rfl, rfl, rfl, rfl, .inr rfl⟩

theorem RowMoves.clearFailures {sid : ℤ} : RowMoves id s (s.clearFailures sid) := by
  unfold Subs.clearFailures
  exact .updateSubscribers fun _ => ⟨rfl, rfl, rfl, rfl, rfl, rfl, rfl, .inl rfl⟩

theorem RowMoves.giveUp {error : String} : RowMoves id s (s.giveUp id now error) :=
  .updateOutbox fun _ => ⟨rfl, rfl, rfl, rfl, fun hw => by simp [OutboxRow.waiting] at hw⟩

/-- Counting a failure concerns one subscriber's row. -/
theorem wp_countFailureProg (id : ℤ) {sid : ℤ} {Q : Option Bool → Dispatcher → Prop}
    (hQ : ∀ r s', RowMoves id d.subs s' → s'.outbox = d.subs.outbox →
      Q r { d with subs := s' }) : (countFailureProg now sid).wp Q d := by
  have hcounted : RowMoves id d.subs (d.subs.updateSubscribers (·.id == sid)
      (Subs.countFailureRow now) Subs.keeps_countFailureRow) :=
    .updateSubscribers (RoundKeeps.countFailureRow now)
  rw [countFailureProg]
  simp only [Prog.bind_eq, Prog.pure_eq, Prog.wp_bind, Prog.wp_execReturning, Prog.after_some,
    Prog.after_none]
  refine ⟨?_, hQ none d.subs (.refl id _) rfl⟩
  split
  · exact hQ _ _ hcounted rfl
  · split
    · exact hQ _ _ hcounted rfl
    · rw [Prog.wp_execReturning]
      exact ⟨hQ _ _ (hcounted.trans (.updateSubscribers (RoundKeeps.quarantineRow now))) rfl,
        hQ _ _ hcounted rfl⟩

/-- What is known of the row's message once its attempt is recorded. -/
def Attempted (now : ℤ) (row : DueRow) (result : SendResult) (s s' : Subs) : Prop :=
  ∀ o' ∈ s'.outbox.rows, o'.id = row.id → result.isGone = true ∨
    ∃ o ∈ s.outbox.rows, o' = o.attempted now (row.attempts + 1) result

theorem attempted_updateOutbox {result : SendResult} (hout : s'.outbox = s.outbox) :
    Attempted now row result s (s'.updateOutbox row.id
      (OutboxRow.attempted now (row.attempts + 1) result)
      fun o => (RoundMoves.attempted now _ _ o).id) := by
  intro o' ho' hid
  obtain ⟨o, ho, rfl⟩ := Subs.mem_updateOutbox.mp ho'
  rw [hout] at ho
  refine .inr ⟨o, ho, ?_⟩
  split at hid
  · exact if_pos ‹_›
  · exact absurd hid ‹_›

end Moves

/-- What holds after the turn of a row that was sent, whether it broke off or not. -/
structure Recorded (now : ℤ) (row : DueRow) (result : SendResult) (d : Dispatcher)
    (r : Option Unit) (d' : Dispatcher) : Prop where
  moves : RowMoves row.id d.subs d'.subs
  pacer : d'.pacer = d.pacer
  attempted : r = some () → Attempted now row result d.subs d'.subs

section Recorded

variable {now : ℤ} {row : DueRow} {result : SendResult} {d : Dispatcher} {failure : Failure}

theorem Recorded.broken {s' : Subs} (h : RowMoves row.id d.subs s') {stats : DispatchStats}
    {log : List LogEntry} : Recorded now row result d none
      { d with subs := s', stats := stats, log := log } :=
  ⟨h, rfl, fun hok => by cases hok⟩

/-- The `UPDATE` of the message is the last statement of a turn that puts it off or gives it up. -/
theorem wp_updateFailed {s' : Subs} (h : RowMoves row.id d.subs s')
    (hout : s'.outbox = d.subs.outbox) {stats : DispatchStats} {log : List LogEntry} :
    (updateFailed now row failure result).wp (Recorded now row result d)
      { d with subs := s', stats := stats, log := log } := by
  rw [updateFailed, updateAttempted]
  simp only [Prog.bind_eq, Prog.wp_bind, Prog.wp_exec, Prog.wp_modify, Prog.after_some,
    Prog.after_none]
  exact ⟨⟨h.trans (.updateOutbox fun o => .attempted now _ _ o), rfl,
    fun _ => attempted_updateOutbox hout⟩, .broken h⟩

/-- **Recording a send**, whichever statement fails: the turn moves its own message only, and if it
comes to its end, the message knows of the attempt. -/
theorem wp_recordSend : (recordSend now row result).wp (Recorded now row result d) d := by
  rw [recordSend]
  cases herr : result.error with
  | none =>
    have hupdated : RowMoves row.id d.subs (d.subs.updateOutbox row.id
        (OutboxRow.attempted now (row.attempts + 1) result)
        fun o => (RoundMoves.attempted now _ _ o).id) :=
      .updateOutbox fun o => .attempted now _ _ o
    simp only [updateAttempted, Prog.bind_eq, Prog.wp_bind, Prog.wp_exec, Prog.wp_modify,
      Prog.after_some, Prog.after_none]
    exact ⟨⟨⟨hupdated.trans .clearFailures, rfl, fun _ => attempted_updateOutbox rfl⟩,
      .broken hupdated⟩, .broken (.refl _ _)⟩
  | some error =>
    obtain ⟨failure, text⟩ := error
    dsimp only
    split
    · rename_i hgone
      have hisGone : result.isGone = true := by simp [SendResult.isGone, herr, hgone]
      simp only [Prog.bind_eq, Prog.wp_bind, Prog.wp_exec, Prog.wp_modify, Prog.after_some,
        Prog.after_none]
      exact ⟨⟨.delete row.sid, rfl, fun _ _ _ _ => .inl hisGone⟩, .broken (.refl _ _)⟩
    · cases failure.counts with
      | false =>
        simp only [Bool.false_eq_true, if_false, Prog.bind_eq, Prog.pure_eq]
        exact wp_updateFailed (.refl _ _) rfl
      | true =>
        simp only [if_true, Prog.bind_eq, Prog.wp_bind]
        refine wp_countFailureProg row.id fun r s' hmoves hout => ?_
        cases r with
        | none => exact .broken hmoves
        | some quarantined =>
          rw [Prog.after_some]
          cases quarantined with
          | false =>
            simp only [Bool.false_eq_true, if_false]
            exact wp_updateFailed hmoves hout
          | true =>
            simp only [if_true, Prog.wp_bind, Prog.wp_modify, Prog.after_some]
            exact wp_updateFailed hmoves hout

/-- **Giving a message up**, whether its statement fails or not. -/
theorem wp_giveUpRow {error : String} {counted : Bool} :
    (giveUpRow now row error counted).wp (fun _ d' => d'.pacer = d.pacer ∧ (d'.subs = d.subs ∨
      d'.subs = d.subs.giveUp row.id now error)) d := by
  rw [giveUpRow]
  simp only [Prog.bind_eq, Prog.wp_bind, Prog.wp_exec, Prog.after_some, Prog.after_none]
  refine ⟨?_, trivial, .inl trivial⟩
  split
  · exact ⟨rfl, .inr rfl⟩
  · exact ⟨rfl, .inr rfl⟩

end Recorded

end Dunlin

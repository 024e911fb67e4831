import Dunlin.Recording

/-!
# Rounds on the clock

A round of the dispatcher with the time it takes and the statements that fail. Every row has its
`RowTimes`: how long the steps of handling it last, what becomes of its send, and which statements
of its turn fail. Only durations are given, and the clock of the round (`Timed.clock`, in
nanoseconds) moves by them, so that it never runs backwards, a sleep lasts at least as long as asked
and a send at most `sendLimit`, in every round there is. What was handed to a channel is kept with
its times in `Timed.sends`, and with whether recording it came to its end.

A statement that fails ends the round. In front of the rows these are the query for the snapshot and
the two for the signing key (`openRound`); within a row's turn, what `Recording.lean` has. The rows
behind it get no turn, and the message whose attempt could not be recorded is due again.

How fast a channel may be sent to is a parameter here. With `Channel.pacing` and without a failure a
timed round is a round (`d_timedDue`), whatever the times.

## Main results

* `timedRow_of_handing`, `timedRow_of_not_handing` — what a row's turn comes to
* `timedRows_inv` — the loop rule, for rounds that may break off at any row
* `timedDue_cases` — a round either handles no row or works through its snapshot
-/

namespace Dunlin

open Lib

/-- A channel is expected to time out on its own; this only stops a stuck one. -/
def sendLimit : Duration := .fromSecs 30

/-- How long the handling of a row takes, step by step, and what becomes of its send. -/
structure RowTimes where
  /-- Whether `channels.get` still finds the channel. -/
  enabled : Bool := true
  result : SendResult
  /-- Until the address is checked. -/
  lead : ℕ := 0
  /-- From there until the channel's wait is worked out. -/
  gap : ℕ := 0
  /-- From the end of that wait until the channel is asked to send. -/
  extra : ℕ := 0
  /-- Until the channel has answered, or was given up on. -/
  send : ℕ := 0
  /-- From there until the send is recorded. -/
  settle : ℕ := 0
  /-- The statements of the turn that fail. -/
  faults : List Bool := []
  send_le : send ≤ sendLimit.nanos := by decide

/-- A message handed to a channel: the `attempt`-th time for its row, in a round that read the
clock as `readAt`. -/
structure Sent where
  outboxId : ℤ
  channel : Channel
  address : String
  attempt : ℤ
  readAt : ℤ
  startAt : ℕ
  endAt : ℕ
  result : SendResult
  /-- Whether every statement that recorded it succeeded. -/
  recorded : Bool
  deriving DecidableEq, Repr

/-- A dispatcher with a clock. -/
structure Timed where
  d : Dispatcher
  clock : ℕ
  sends : List Sent := []

/-- A new process, whose pacer knows nothing. -/
def Timed.initial (subs : Subs) (clock : ℕ) : Timed := { d := { subs := subs }, clock := clock }

section Round

variable (cr : Crypto) (pacing : Channel → Pacing) (cfg : Config) (key : String) (now : ℤ)

/-- When the channel is asked to send, if the address was checked at `readyAt`. -/
def RowTimes.startAt (τ : RowTimes) (row : DueRow) (p : Pacer) (readyAt : ℕ) : ℕ :=
  let waitAt := readyAt + τ.gap
  waitAt + (p.channelWait row.channel (pacing row.channel) waitAt).nanos + τ.extra

/-- What the round sees of the outside world while a row is handled. -/
def RowTimes.env (τ : RowTimes) (row : DueRow) (p : Pacer) (readyAt : ℕ) : SendEnv where
  enabled := τ.enabled
  readyAt := readyAt
  waitAt := readyAt + τ.gap
  doneAt := τ.startAt pacing row p readyAt + τ.send + τ.settle
  result := τ.result

/-- What recording the send of a row comes to, if its address was checked at `readyAt`. -/
def RowTimes.recording (τ : RowTimes) (row : DueRow) (m : Message) (d : Dispatcher) (readyAt : ℕ) :
    Outcome Dispatcher Unit :=
  (recordSend now row τ.result).run τ.faults
    (d.handed cfg row m (τ.env pacing row d.pacer readyAt))

/-- The send of a row. -/
def RowTimes.sent (τ : RowTimes) (row : DueRow) (m : Message) (d : Dispatcher) (readyAt : ℕ) :
    Sent where
  outboxId := row.id
  channel := row.channel
  address := row.address
  attempt := row.attempts + 1
  readAt := now
  startAt := τ.startAt pacing row d.pacer readyAt
  endAt := τ.startAt pacing row d.pacer readyAt + τ.send
  result := τ.result
  recorded := (τ.recording pacing cfg now row m d readyAt).result.isSome

/-- Work through one row of the snapshot, on the clock. `false` if a statement failed. -/
def timedRow (row : DueRow) (τ : RowTimes) (x : Timed) : Timed × Bool :=
  let x := { x with clock := x.clock + τ.lead }
  if !τ.enabled then (x, true)
  else
    match prepare cr cfg key now row with
    | .skip => (x, true)
    | .giveUp error counted =>
      let outcome := (giveUpRow now row error counted).run τ.faults x.d
      ({ x with d := outcome.state }, outcome.result.isSome)
    | .message m =>
      if !x.d.pacer.addressReady row.channel row.address (pacing row.channel) x.clock then (x, true)
      else
        let outcome := τ.recording pacing cfg now row m x.d x.clock
        ({ d := outcome.state
           clock := (τ.env pacing row x.d.pacer x.clock).doneAt
           sends := x.sends ++ [τ.sent pacing cfg now row m x.d x.clock] },
          outcome.result.isSome)

/-- Work through the rest of a snapshot, up to a statement that fails. -/
def timedRows (times : ℤ → RowTimes) : List DueRow → Timed → Timed × Bool
  | [], x => (x, true)
  | row :: rows, x =>
    let y := timedRow cr pacing cfg key now row (times row.id) x
    if y.2 then timedRows times rows y.1 else y

end Round

/-- The snapshot of a round and the signing key; nothing if no row is due. -/
def openRound (names : List Channel) (candidate : String) (now : ℤ) :
    Prog Dispatcher (Option (List DueRow × String)) := do
  let rows ← Prog.query fun d => d.subs.dueRows names now
  if rows.isEmpty then return none
  else
    Prog.exec (Dispatcher.onSubs fun s => (s.signingKey candidate).2)
    let key ← Prog.query fun d => (d.subs.signingKey candidate).1
    return some (rows, key)

/-- `dispatchDue` on the clock. `opening` are the statements in front of the rows that fail. -/
def timedDue (cr : Crypto) (pacing : Channel → Pacing) (cfg : Config) (names : List Channel)
    (candidate : String) (now : ℤ) (times : ℤ → RowTimes) (opening : List Bool) (x : Timed) :
    Timed :=
  let x := { x with d := { x.d with stats := {} } }
  if names.isEmpty then x
  else
    let outcome := (openRound names candidate now).run opening x.d
    let x := { x with d := outcome.state }
    match outcome.result with
    | some (some (rows, key)) => (timedRows cr pacing cfg key now times rows x).1
    | _ => x

/-! ### One row -/

section Row

variable (cr : Crypto) (pacing : Channel → Pacing) (cfg : Config) (key : String) (now : ℤ)

/-- The message a row is handed to its channel with, if it gets that far. -/
def timedHanding (row : DueRow) (τ : RowTimes) (x : Timed) : Option Message :=
  match prepare cr cfg key now row with
  | .message m =>
    if τ.enabled && x.d.pacer.addressReady row.channel row.address (pacing row.channel)
        (x.clock + τ.lead) then some m
    else none
  | _ => none

/-- What recording the send of a row comes to. -/
def RowTimes.recordingOf (τ : RowTimes) (row : DueRow) (m : Message) (x : Timed) :
    Outcome Dispatcher Unit :=
  τ.recording pacing cfg now row m x.d (x.clock + τ.lead)

/-- The send of a row that is handed over. -/
def RowTimes.sentOf (τ : RowTimes) (row : DueRow) (m : Message) (x : Timed) : Sent :=
  τ.sent pacing cfg now row m x.d (x.clock + τ.lead)

variable {cr pacing cfg key now} {row : DueRow} {τ : RowTimes} {x : Timed} {m : Message}

theorem startAt_sentOf :
    (τ.sentOf pacing cfg now row m x).startAt = x.clock + τ.lead + τ.gap +
      (x.d.pacer.channelWait row.channel (pacing row.channel) (x.clock + τ.lead + τ.gap)).nanos +
        τ.extra := rfl

theorem endAt_sentOf : (τ.sentOf pacing cfg now row m x).endAt =
    (τ.sentOf pacing cfg now row m x).startAt + τ.send := rfl

theorem le_startAt_sentOf : x.clock + τ.lead ≤ (τ.sentOf pacing cfg now row m x).startAt := by
  rw [startAt_sentOf]
  omega

/-- What a turn leaves that has sent its message. -/
theorem recorded_recordingOf : Recorded now row τ.result
    (x.d.handed cfg row m (τ.env pacing row x.d.pacer (x.clock + τ.lead)))
    (τ.recordingOf pacing cfg now row m x).result (τ.recordingOf pacing cfg now row m x).state :=
  Prog.wp_run wp_recordSend τ.faults

theorem pacer_recordingOf : (τ.recordingOf pacing cfg now row m x).state.pacer =
    x.d.pacer.record row.channel row.address
      ((τ.sentOf pacing cfg now row m x).endAt + τ.settle) :=
  recorded_recordingOf.pacer

theorem timedHanding_eq_some (h : timedHanding cr pacing cfg key now row τ x = some m) :
    prepare cr cfg key now row = .message m ∧ τ.enabled = true ∧
      x.d.pacer.addressReady row.channel row.address (pacing row.channel) (x.clock + τ.lead) =
        true := by
  unfold timedHanding at h
  cases hp : prepare cr cfg key now row with
  | message m' =>
    simp only [hp] at h
    split at h
    · rename_i hready
      rw [Option.some.inj h]
      exact ⟨rfl, Bool.and_eq_true_iff.mp hready⟩
    · cases h
  | skip | giveUp => simp [hp] at h

theorem timedRow_of_handing (h : timedHanding cr pacing cfg key now row τ x = some m) :
    timedRow cr pacing cfg key now row τ x =
      ({ d := (τ.recordingOf pacing cfg now row m x).state
         clock := (τ.sentOf pacing cfg now row m x).endAt + τ.settle
         sends := x.sends ++ [τ.sentOf pacing cfg now row m x] },
        (τ.recordingOf pacing cfg now row m x).result.isSome) := by
  obtain ⟨hp, henabled, hready⟩ := timedHanding_eq_some h
  rw [timedRow]
  simp [hp, henabled, hready, RowTimes.env, RowTimes.sentOf, RowTimes.sent, RowTimes.recordingOf]

/-- A row that is not handed over takes its time, and is left alone or given up. -/
theorem timedRow_of_not_handing (h : timedHanding cr pacing cfg key now row τ x = none) :
    timedRow cr pacing cfg key now row τ x = ({ x with clock := x.clock + τ.lead }, true) ∨
      ∃ error counted, prepare cr cfg key now row = .giveUp error counted ∧ τ.enabled = true ∧
        timedRow cr pacing cfg key now row τ x =
          ({ x with
              clock := x.clock + τ.lead
              d := ((giveUpRow now row error counted).run τ.faults x.d).state },
            ((giveUpRow now row error counted).run τ.faults x.d).result.isSome) := by
  unfold timedHanding at h
  unfold timedRow
  cases henabled : τ.enabled with
  | false => exact .inl (by simp)
  | true =>
    cases hp : prepare cr cfg key now row with
    | message m' =>
      simp only [hp, henabled] at h
      split at h
      · cases h
      · rename_i hready
        have hbusy : x.d.pacer.addressReady row.channel row.address (pacing row.channel)
            (x.clock + τ.lead) = false := by simpa using hready
        exact .inl (by simp [hbusy])
    | skip => exact .inl (by simp)
    | giveUp error counted => exact .inr ⟨error, counted, rfl, rfl, by simp⟩

/-- So the tables know nothing of it, or that it was given up. -/
theorem exists_timedRow (h : timedHanding cr pacing cfg key now row τ x = none) :
    ∃ d, (timedRow cr pacing cfg key now row τ x).1 =
        { x with d := d, clock := x.clock + τ.lead } ∧ d.pacer = x.d.pacer ∧
      (d.subs = x.d.subs ∨ ∃ error, d.subs = x.d.subs.giveUp row.id now error) := by
  rcases timedRow_of_not_handing h with hx | ⟨error, counted, -, -, hx⟩ <;> rw [hx]
  · exact ⟨x.d, rfl, rfl, .inl rfl⟩
  · obtain ⟨hpacer, hsubs⟩ := Prog.wp_run
      (wp_giveUpRow : (giveUpRow now row error counted).wp _ x.d) τ.faults
    exact ⟨_, rfl, hpacer, hsubs.imp_right fun h => ⟨error, h⟩⟩

/-- **A row's turn** moves its own message only, wherever it breaks off. -/
theorem rowMoves_timedRow :
    RowMoves row.id x.d.subs (timedRow cr pacing cfg key now row τ x).1.d.subs := by
  cases hm : timedHanding cr pacing cfg key now row τ x with
  | none =>
    obtain ⟨d, hx, -, hsubs | ⟨error, hsubs⟩⟩ := exists_timedRow hm <;> rw [hx]
    · exact hsubs ▸ .refl row.id x.d.subs
    · show RowMoves row.id x.d.subs d.subs
      rw [hsubs]
      exact .giveUp
  | some m =>
    rw [timedRow_of_handing hm]
    exact (recorded_recordingOf (τ := τ) (x := x) (m := m)).moves

/-- There is an instant at which an address is ready, whenever it was sent to. -/
theorem exists_addressReady (p : Pacer) (channel : Channel) (address : String) (gap : Pacing) :
    ∃ t, p.addressReady channel address gap t = true := by
  unfold Pacer.addressReady
  cases p.lastAddress.lookup (channel, address) with
  | none => exact ⟨0, rfl⟩
  | some t => exact ⟨t + gap.perAddress.nanos, by simp⟩

/-- Whatever the pacing, a row on the clock does to the dispatcher what a row can do, unless a
statement fails. -/
theorem d_timedRow (hfaults : τ.faults = []) :
    (timedRow cr pacing cfg key now row τ x).2 = true ∧
      ∃ env, (timedRow cr pacing cfg key now row τ x).1.d =
        dispatchRow cr cfg key now row env x.d := by
  cases hm : timedHanding cr pacing cfg key now row τ x with
  | none =>
    rcases timedRow_of_not_handing hm with hx | ⟨error, counted, hp, henabled, hx⟩ <;> rw [hx]
    · exact ⟨rfl, { τ.env pacing row x.d.pacer 0 with enabled := false }, rfl⟩
    · rw [hfaults]
      refine ⟨?_, { τ.env pacing row x.d.pacer 0 with enabled := true }, ?_⟩
      · cases counted <;> rfl
      · cases counted <;> simp [dispatchRow, hp] <;> rfl
  | some m =>
    -- only the pacing tells the two apart, and the row is past it
    obtain ⟨t, ht⟩ := exists_addressReady x.d.pacer row.channel row.address row.channel.pacing
    obtain ⟨hp, -, -⟩ := timedHanding_eq_some hm
    have hrecord : (recordSend now row
        (τ.env pacing row x.d.pacer (x.clock + τ.lead)).result).wpOk (fun r d' => r = some () ∧
        d' = handOver cfg now row m (τ.env pacing row x.d.pacer (x.clock + τ.lead)) x.d)
        (x.d.handed cfg row m (τ.env pacing row x.d.pacer (x.clock + τ.lead))) := wpOk_recordSend
    obtain ⟨hok, hstate⟩ := Prog.wpOk_iff_run.mp hrecord
    rw [timedRow_of_handing hm, RowTimes.recordingOf, RowTimes.recording, hfaults]
    refine ⟨?_, { τ.env pacing row x.d.pacer (x.clock + τ.lead) with
      enabled := true
      readyAt := t }, ?_⟩
    · exact (congrArg Option.isSome hok).trans rfl
    · refine hstate.trans ?_
      rw [dispatchRow_of_handing (m := m)]
      · rfl
      · rw [handing]
        simp [hp, ht]

end Row

/-! ### A whole round -/

section Rounds

variable {cr : Crypto} {pacing : Channel → Pacing} {cfg : Config} {key candidate : String} {now : ℤ}
  {names : List Channel} {times : ℤ → RowTimes} {row : DueRow} {rows before : List DueRow}
  {x : Timed} {opening : List Bool}

theorem dispatchRows_congr {envs envs' : ℤ → SendEnv} {d : Dispatcher}
    (h : ∀ row ∈ rows, envs row.id = envs' row.id) :
    dispatchRows cr cfg key now envs rows d = dispatchRows cr cfg key now envs' rows d :=
  List.foldl_ext _ _ d fun d' row hrow => by rw [h row hrow]

/-- The rows of a snapshot have different ids, so one `SendEnv` for each id is enough. -/
theorem d_timedRows (hsorted : rows.Pairwise fun a b => a.id < b.id)
    (hfaults : ∀ id, (times id).faults = []) :
    ∃ envs, (timedRows cr pacing cfg key now times rows x).1.d =
      dispatchRows cr cfg key now envs rows x.d := by
  induction rows generalizing x with
  | nil => exact ⟨fun _ => ⟨true, 0, 0, 0, .ok⟩, rfl⟩
  | cons row rows ih =>
    rw [List.pairwise_cons] at hsorted
    obtain ⟨hgoes, env, henv⟩ :
        (timedRow cr pacing cfg key now row (times row.id) x).2 = true ∧
          ∃ env, (timedRow cr pacing cfg key now row (times row.id) x).1.d =
            dispatchRow cr cfg key now row env x.d := d_timedRow (hfaults row.id)
    obtain ⟨envs, henvs⟩ := ih (x := (timedRow cr pacing cfg key now row (times row.id) x).1)
      hsorted.2
    refine ⟨Function.update envs row.id env, ?_⟩
    rw [timedRows, if_pos hgoes, henvs, henv]
    show _ = dispatchRows cr cfg key now _ rows
      (dispatchRow cr cfg key now row (Function.update envs row.id env row.id) x.d)
    rw [Function.update_self]
    refine dispatchRows_congr fun row' hrow' => ?_
    rw [Function.update_of_ne (Int.ne_of_lt (hsorted.1 row' hrow')).symm]

/-- What holds when a round has read its snapshot and the signing key, or failed to. -/
structure Opened (names : List Channel) (candidate : String) (now : ℤ) (d : Dispatcher)
    (r : Option (Option (List DueRow × String))) (d' : Dispatcher) : Prop where
  pacer : d'.pacer = d.pacer
  subscribers : d'.subs.subscribers = d.subs.subscribers
  outbox : d'.subs.outbox = d.subs.outbox
  rows : ∀ rows key, r = some (some (rows, key)) → rows = d.subs.dueRows names now

theorem wp_openRound {d : Dispatcher} :
    (openRound names candidate now).wp (Opened names candidate now d) d := by
  obtain ⟨hsubs, -, hout⟩ := d.subs.tables_signingKey candidate
  have hnone : ∀ {rows} {key : String}, none = some (some (rows, key)) →
      rows = d.subs.dueRows names now := fun h => by cases h
  rw [openRound]
  simp only [Prog.bind_eq, Prog.pure_eq, Prog.wp_bind, Prog.wp_query, Prog.after_some,
    Prog.after_none]
  refine ⟨?_, rfl, rfl, rfl, fun _ _ => hnone⟩
  split
  · exact ⟨rfl, rfl, rfl, fun _ _ h => by cases h⟩
  · simp only [Prog.wp_bind, Prog.wp_exec, Prog.wp_query, Prog.after_some, Prog.after_none,
      Prog.wp_done]
    refine ⟨⟨⟨rfl, hsubs, hout, fun _ _ h => ?_⟩, rfl, hsubs, hout, fun _ _ => hnone⟩, rfl, rfl,
      rfl, fun _ _ => hnone⟩
    cases h
    rfl

theorem wpOk_openRound {d : Dispatcher} : (openRound names candidate now).wpOk (fun r d' =>
    if (d.subs.dueRows names now).isEmpty then r = some none ∧ d' = d
    else r = some (some (d.subs.dueRows names now, (d.subs.signingKey candidate).1)) ∧
      d' = { d with subs := (d.subs.signingKey candidate).2 }) d := by
  have hkey : ((d.subs.signingKey candidate).2.signingKey candidate).1 =
      (d.subs.signingKey candidate).1 := by
    have hstored := d.subs.key_signingKey candidate
    generalize (d.subs.signingKey candidate).2 = s at hstored
    unfold Subs.signingKey at hstored ⊢
    rw [hstored]
  rw [openRound]
  simp only [Prog.bind_eq, Prog.pure_eq, Prog.wpOk_bind, Prog.wpOk_query, Prog.afterOk_some]
  split
  · exact ⟨rfl, rfl⟩
  · simp only [Prog.wpOk_bind, Prog.wpOk_exec, Prog.wpOk_query, Prog.afterOk_some, Prog.wpOk_done]
    exact ⟨congrArg (fun key => some (some (_, key))) hkey, rfl⟩

/-- A round that has found rows works through them. -/
theorem timedDue_of_opened {key : String} (hnames : names.isEmpty = false)
    (hopened : ((openRound names candidate now).run opening { x.d with stats := {} }).result =
      some (some (rows, key))) :
    timedDue cr pacing cfg names candidate now times opening x =
      (timedRows cr pacing cfg key now times rows { x with
        d := ((openRound names candidate now).run opening { x.d with stats := {} }).state }).1 := by
  rw [timedDue]
  simp only [hnames, hopened, Bool.false_eq_true, if_false]

/-- A round either handles no row or works through its snapshot. -/
theorem timedDue_cases (cr : Crypto) (pacing : Channel → Pacing) (cfg : Config)
    (names : List Channel) (candidate : String) (now : ℤ) (times : ℤ → RowTimes)
    (opening : List Bool) (x : Timed) : ∃ d, d.pacer = x.d.pacer ∧
    d.subs.subscribers = x.d.subs.subscribers ∧ d.subs.outbox = x.d.subs.outbox ∧
      (timedDue cr pacing cfg names candidate now times opening x = { x with d := d } ∨
        ∃ key, timedDue cr pacing cfg names candidate now times opening x =
          (timedRows cr pacing cfg key now times (x.d.subs.dueRows names now)
            { x with d := d }).1) := by
  rw [timedDue]
  dsimp only
  split
  · exact ⟨{ x.d with stats := {} }, rfl, rfl, rfl, .inl rfl⟩
  · have hopened := Prog.wp_run
      (wp_openRound : (openRound names candidate now).wp _ { x.d with stats := {} }) opening
    refine ⟨_, hopened.pacer, hopened.subscribers, hopened.outbox, ?_⟩
    split
    · rename_i rows key hresult
      rw [hopened.rows rows key hresult]
      exact .inr ⟨key, rfl⟩
    · exact .inl rfl

/-- The loop rule: an invariant over the rows still to come, wherever the round breaks off. -/
theorem timedRows_inv {I : List DueRow → Timed → Prop}
    (hstep : ∀ row rows x, I (row :: rows) x →
      I rows (timedRow cr pacing cfg key now row (times row.id) x).1) (h : I rows x) :
    ∃ rows', I rows' (timedRows cr pacing cfg key now times rows x).1 := by
  induction rows generalizing x with
  | nil => exact ⟨[], h⟩
  | cons row rows ih =>
    rw [timedRows]
    split
    · exact ih (hstep row rows x h)
    · exact ⟨rows, hstep row rows x h⟩

/-- A snapshot in two parts: the second one has its turn if nothing failed in the first. -/
theorem timedRows_append (h : (timedRows cr pacing cfg key now times before x).2 = true) :
    timedRows cr pacing cfg key now times (before ++ rows) x =
      timedRows cr pacing cfg key now times rows
        (timedRows cr pacing cfg key now times before x).1 := by
  induction before generalizing x with
  | nil => rfl
  | cons row before ih =>
    rw [timedRows] at h ⊢
    rw [List.cons_append, timedRows]
    split
    · rename_i hgoes
      rw [if_pos hgoes] at h
      exact ih h
    · rename_i hbroken
      rw [if_neg hbroken] at h
      exact absurd h hbroken

/-- A round in which no statement fails is a round. -/
theorem d_timedDue (hfaults : ∀ id, (times id).faults = []) :
    ∃ envs, (timedDue cr pacing cfg names candidate now times [] x).d =
      dispatchDue cr cfg names candidate now envs x.d := by
  have hopen := Prog.wpOk_iff_run.mp
    (wpOk_openRound : (openRound names candidate now).wpOk _ { x.d with stats := {} })
  unfold timedDue dispatchDue
  dsimp only at hopen ⊢
  cases hnames : names.isEmpty with
  | true => exact ⟨fun _ => ⟨true, 0, 0, 0, .ok⟩, rfl⟩
  | false =>
    cases hrows : (x.d.subs.dueRows names now).isEmpty with
    | true =>
      rw [if_pos hrows] at hopen
      refine ⟨fun _ => ⟨true, 0, 0, 0, .ok⟩, ?_⟩
      rw [hopen.1, hopen.2]
      rfl
    | false =>
      rw [if_neg (by simp [hrows])] at hopen
      rw [hopen.1, hopen.2]
      exact d_timedRows sorted_dueRows hfaults

end Rounds

end Dunlin

import Dunlin.Lib.LastSeen
import Dunlin.OutboxLifecycle
import Dunlin.TimedRounds

/-!
# Pacing across rounds

Rounds that share a pacer leave the gaps their channels ask for, on a clock that keeps running
between them. The tables change in any way from one round to the next, so each round brings the
tables it finds. Nothing the rounds leave in them matters here: what carries the argument is that
the pacer's two maps remember every send there was (`Lib.Remembers`). The map of addresses is
purged, of what is a minute old, and no channel asks for a longer gap between two sends to one
address. A round may break off at any statement; the pacer is told of a send before anything is
recorded, so it remembers the sends that nothing else knows of.

## Rows passed over

A row whose address was sent to a moment ago is passed over, and keeps its columns. Whether it stays
due is not the row's alone to say: a message is due as long as its subscriber is, and the send that
made the address busy may be the one for which the subscriber is removed or quarantined, or another
row of the round may be (`passed_over_given_up`). Nothing else stops it from being due
(`OutboxRow.StaysDue`), since no turn but its own touches a message (`RowMoves`).

## Main results

* `Paced.timedRow` — a row keeps the gaps, wherever its turn breaks off
* `staysDue_step` — a row passed over, and the two ways in which it stops being due
* `pacing_gaps` — both, in every run of rounds
* `passed_over_given_up` — a round in which a row passed over is due no longer
-/

namespace Dunlin

open Lib

/-- A round, with the tables it finds and the time since the last one. -/
structure PacedRound where
  cfg : Config
  names : List Channel
  candidate : String
  now : ℤ
  times : ℤ → RowTimes
  /-- The statements in front of the rows that fail. -/
  opening : List Bool := []
  subs : Subs
  pause : ℕ

/-- The state a round starts from. -/
def PacedRound.start (x : Timed) (ρ : PacedRound) : Timed :=
  { x with
    d := { x.d with subs := ρ.subs }
    clock := x.clock + ρ.pause }

/-- One round. -/
def PacedRound.step (cr : Crypto) (pacing : Channel → Pacing) (x : Timed) (ρ : PacedRound) :
    Timed :=
  timedDue cr pacing ρ.cfg ρ.names ρ.candidate ρ.now ρ.times ρ.opening (ρ.start x)

/-- The send `b` leaves the gaps after the send `a` that the pacing asks for. -/
structure Sent.Spaced (pacing : Channel → Pacing) (a b : Sent) : Prop where
  channel : b.channel = a.channel → a.endAt + (pacing a.channel).global.nanos ≤ b.startAt
  address : b.channel = a.channel → b.address = a.address →
    a.endAt + (pacing a.channel).perAddress.nanos ≤ b.startAt

/-- What the pacer knows of the sends so far. -/
structure Paced (pacing : Channel → Pacing) (x : Timed) : Prop where
  spaced : x.sends.Pairwise (Sent.Spaced pacing)
  channels : ∀ keep, Remembers keep (x.sends.map fun e => (e.channel, e.endAt)) x.clock
    x.d.pacer.lastChannel
  addresses : Remembers (Duration.fromSecs 60).nanos
    (x.sends.map fun e => ((e.channel, e.address), e.endAt)) x.clock x.d.pacer.lastAddress

section Gaps

variable {cr : Crypto} {pacing : Channel → Pacing} {cfg : Config} {key : String} {now : ℤ}
  {row : DueRow} {τ : RowTimes} {x : Timed} {rounds : List PacedRound}

/-- The map of addresses is written to, and purged when it is large. -/
theorem lastAddress_record (p : Pacer) (channel : Channel) (address : String) (t : ℕ) :
    (p.record channel address t).lastAddress = LastSeen.put p.lastAddress (channel, address) t ∨
      (p.record channel address t).lastAddress =
        LastSeen.purge (Duration.fromSecs 60).nanos t
          (LastSeen.put p.lastAddress (channel, address) t) := by
  rw [Pacer.record]
  dsimp only
  split
  · exact .inr rfl
  · exact .inl rfl

theorem Paced.later (h : Paced pacing x) {clock : ℕ} (hle : x.clock ≤ clock) {d : Dispatcher}
    (hpacer : d.pacer = x.d.pacer) : Paced pacing { x with d := d, clock := clock } := by
  refine ⟨h.spaced, fun keep => ?_, ?_⟩
  · rw [hpacer]
    exact (h.channels keep).later hle
  · rw [hpacer]
    exact h.addresses.later hle

/-- A pacer that a send was recorded in. -/
theorem remembers_record {past : List ((Channel × String) × ℕ)} {clock t endAt : ℕ} {p : Pacer}
    (h : Remembers (Duration.fromSecs 60).nanos past clock p.lastAddress) (hle : clock ≤ t)
    (hend : endAt ≤ t) (channel : Channel) (address : String) :
    Remembers (Duration.fromSecs 60).nanos (past ++ [((channel, address), endAt)]) t
      (p.record channel address t).lastAddress := by
  have hput := h.put hle hend (channel, address)
  rcases lastAddress_record p channel address t with hmap | hmap <;> rw [hmap]
  · exact hput
  · exact hput.purge

theorem channelWait_nanos (p : Pacer) (channel : Channel) (gap : Pacing) (t : ℕ) :
    (p.channelWait channel gap t).nanos =
      ((p.lastChannel.lookup channel).map fun t' => gap.global.nanos - (t - t')).getD 0 := by
  rw [Pacer.channelWait]
  cases p.lastChannel.lookup channel <;> rfl

/-- A send that starts now keeps the gaps to those before it. -/
theorem Paced.spaced_sentOf
    (hpacing : ∀ c, (pacing c).perAddress.nanos ≤ (Duration.fromSecs 60).nanos)
    (h : Paced pacing x) {m : Message} (hm : timedHanding cr pacing cfg key now row τ x = some m)
    {a : Sent} (ha : a ∈ x.sends) : a.Spaced pacing (τ.sentOf pacing cfg now row m x) := by
  obtain ⟨-, -, hready⟩ := timedHanding_eq_some hm
  have hstart : x.clock + τ.lead ≤ (τ.sentOf pacing cfg now row m x).startAt := le_startAt_sentOf
  refine ⟨fun hc => ?_, fun hc haddr => ?_⟩
  · -- the wait makes up for what the channel's instant lacks
    have hwaited := ((h.channels (pacing row.channel).global.nanos).later
      (Nat.le_add_right _ (τ.lead + τ.gap))).waited (Nat.le_refl _)
      (List.mem_map_of_mem ha) hc.symm
    rw [← Nat.add_assoc, ← channelWait_nanos] at hwaited
    rw [show a.channel = row.channel from hc.symm]
    exact Nat.le_trans hwaited (Nat.le_add_right _ _)
  · -- the check lets the row through
    have hquiet : (x.d.pacer.lastAddress.lookup (row.channel, row.address)).all (fun t =>
        (pacing row.channel).perAddress.nanos ≤ x.clock + τ.lead - t) = true := by
      simpa [Pacer.addressReady, Option.all_map] using hready
    have hthrough := (h.addresses.later (Nat.le_add_right _ τ.lead)).ready (hpacing row.channel)
      hquiet (List.mem_map_of_mem ha) (Prod.ext hc.symm haddr.symm)
    rw [show a.channel = row.channel from hc.symm]
    exact Nat.le_trans hthrough hstart

/-- **One row keeps the gaps**, and the pacer remembers its send, recorded or not. -/
theorem Paced.timedRow (hpacing : ∀ c, (pacing c).perAddress.nanos ≤ (Duration.fromSecs 60).nanos)
    (h : Paced pacing x) : Paced pacing (timedRow cr pacing cfg key now row τ x).1 := by
  cases hm : timedHanding cr pacing cfg key now row τ x with
  | none =>
    obtain ⟨d, hx, hpacer, -⟩ := exists_timedRow hm
    rw [hx]
    exact h.later (Nat.le_add_right _ _) hpacer
  | some m =>
    rw [timedRow_of_handing hm]
    have hpacer : (τ.recordingOf pacing cfg now row m x).state.pacer = x.d.pacer.record row.channel
        row.address ((τ.sentOf pacing cfg now row m x).endAt + τ.settle) := pacer_recordingOf
    have hclock : x.clock ≤ (τ.sentOf pacing cfg now row m x).endAt + τ.settle := by
      have hstart : x.clock + τ.lead ≤ (τ.sentOf pacing cfg now row m x).startAt :=
        le_startAt_sentOf
      rw [endAt_sentOf]
      omega
    refine ⟨?_, fun keep => ?_, ?_⟩
    · refine List.pairwise_append.mpr ⟨h.spaced, List.pairwise_singleton _ _, fun a ha b hb => ?_⟩
      rw [List.mem_singleton.mp hb]
      exact h.spaced_sentOf hpacing hm ha
    · show Remembers keep ((x.sends ++ [_]).map _) _
        (τ.recordingOf pacing cfg now row m x).state.pacer.lastChannel
      rw [hpacer, List.map_append]
      exact (h.channels keep).put hclock (Nat.le_add_right _ _) row.channel
    · show Remembers _ ((x.sends ++ [_]).map _) _
        (τ.recordingOf pacing cfg now row m x).state.pacer.lastAddress
      rw [hpacer, List.map_append]
      exact remembers_record h.addresses hclock (Nat.le_add_right _ _) row.channel row.address

theorem Paced.step (hpacing : ∀ c, (pacing c).perAddress.nanos ≤ (Duration.fromSecs 60).nanos)
    (h : Paced pacing x) (ρ : PacedRound) : Paced pacing (ρ.step cr pacing x) := by
  have hstart : ∀ d : Dispatcher, d.pacer = x.d.pacer →
      Paced pacing { x with d := d, clock := x.clock + ρ.pause } :=
    fun d hd => h.later (Nat.le_add_right _ _) hd
  rw [PacedRound.step]
  obtain ⟨d, hpacer, -, -, hx | ⟨key, hx⟩⟩ :=
    timedDue_cases cr pacing ρ.cfg ρ.names ρ.candidate ρ.now ρ.times ρ.opening (ρ.start x) <;>
      rw [hx]
  · exact hstart d hpacer
  · obtain ⟨rows, hrun⟩ := timedRows_inv (I := fun _ x => Paced pacing x)
      (fun _ _ _ hx => hx.timedRow hpacing) (hstart d hpacer)
    exact hrun

end Gaps

/-! ### Rows passed over -/

/-- The round, started from `x`, gets to the message `id` and passes it over because its address was
sent to a moment ago. -/
def PacedRound.PassesOver (cr : Crypto) (pacing : Channel → Pacing) (x : Timed) (ρ : PacedRound)
    (id : ℤ) : Prop :=
  let opened := (openRound ρ.names ρ.candidate ρ.now).run ρ.opening
    { (ρ.start x).d with stats := {} }
  ∃ before row after key, opened.result = some (some (before ++ row :: after, key)) ∧
    row.id = id ∧
      let y := timedRows cr pacing ρ.cfg key ρ.now ρ.times before
        { ρ.start x with d := opened.state }
      y.2 = true ∧ (ρ.times id).enabled = true ∧
        (prepare cr ρ.cfg key ρ.now row).isMessage = true ∧
          y.1.d.pacer.addressReady row.channel row.address (pacing row.channel)
            (y.1.clock + (ρ.times id).lead) = false

/-- The message has all its columns and is due, unless its subscriber is quarantined or removed. -/
structure OutboxRow.StaysDue (names : List Channel) (now : ℤ) (s : Subs) (o : OutboxRow) :
    Prop where
  columns : ∀ o' ∈ s.outbox.rows, o'.id = o.id → o' = o
  due : (o ∈ s.outbox.rows ∧ ∃ r ∈ s.subscribers.rows, r.id = o.subscriberId ∧
      (r.status = .quarantined ∨ ∀ now' ≥ now, DueRow.due names now' o r = true)) ∨
    ∀ r ∈ s.subscribers.rows, r.id ≠ o.subscriberId

/-- What the turns of other rows leave of a message. -/
structure OutboxRow.Untouched (s₀ : Subs) (o : OutboxRow) (s : Subs) : Prop where
  columns : ∀ o' ∈ s.outbox.rows, o'.id = o.id → o' = o
  stays : o.Stays s
  subscribers : ∀ r' ∈ s.subscribers.rows, ∃ r ∈ s₀.subscribers.rows, RoundKeeps r r'

section PassedOver

variable {cr : Crypto} {pacing : Channel → Pacing} {cfg : Config} {key : String} {now : ℤ}
  {times : ℤ → RowTimes} {row : DueRow} {rows : List DueRow} {τ : RowTimes} {x : Timed}
  {o : OutboxRow} {s₀ : Subs} {names : List Channel}

theorem OutboxRow.Untouched.timedRow (h : o.Untouched s₀ x.d.subs) (hne : row.id ≠ o.id) :
    o.Untouched s₀ (timedRow cr pacing cfg key now row τ x).1.d.subs := by
  have hmoves : RowMoves row.id x.d.subs
    (Dunlin.timedRow cr pacing cfg key now row τ x).1.d.subs := rowMoves_timedRow
  refine ⟨fun o' ho' hid => ?_, hmoves.stays o h.stays, fun r' hr' => ?_⟩
  · obtain ⟨o₀, ho₀, hmoved, rfl | hid₀⟩ := hmoves.outbox o' ho'
    · exact h.columns o₀ ho₀ hid
    · exact absurd (hid₀.symm.trans (hmoved.id.symm.trans hid)) hne
  · obtain ⟨r₁, hr₁, hkeeps⟩ := hmoves.subscribers r' hr'
    obtain ⟨r, hr, hkeeps'⟩ := h.subscribers r₁ hr₁
    exact ⟨r, hr, hkeeps'.trans hkeeps⟩

theorem OutboxRow.Untouched.timedRows (h : o.Untouched s₀ x.d.subs)
    (hne : ∀ row ∈ rows, row.id ≠ o.id) :
    o.Untouched s₀ (timedRows cr pacing cfg key now times rows x).1.d.subs := by
  obtain ⟨_, -, hrun⟩ := timedRows_inv
    (I := fun rows x => (∀ row ∈ rows, row.id ≠ o.id) ∧ o.Untouched s₀ x.d.subs)
    (fun _ _ _ ⟨hne, hx⟩ => ⟨fun row hrow => hne row (List.mem_cons_of_mem _ hrow),
      hx.timedRow (hne _ List.mem_cons_self)⟩) ⟨hne, h⟩
  exact hrun

/-- The row's own turn changes nothing when it is passed over. -/
theorem timedRow_of_passed (henabled : τ.enabled = true)
    (hmessage : (prepare cr cfg key now row).isMessage = true)
    (hbusy : x.d.pacer.addressReady row.channel row.address (pacing row.channel)
      (x.clock + τ.lead) = false) :
    timedRow cr pacing cfg key now row τ x = ({ x with clock := x.clock + τ.lead }, true) := by
  rw [timedRow]
  cases hp : prepare cr cfg key now row with
  | message m => simp [henabled, hbusy]
  | skip | giveUp => simp [hp, Prepared.isMessage] at hmessage

theorem OutboxRow.Untouched.staysDue {s : Subs} (h : o.Untouched s₀ s)
    (hdue : ∀ r ∈ s₀.subscribers.rows, r.id = o.subscriberId → DueRow.due names now o r = true) :
    o.StaysDue names now s := by
  refine ⟨h.columns, ?_⟩
  by_cases hthere : ∃ r ∈ s.subscribers.rows, r.id = o.subscriberId
  · obtain ⟨r', hr', hid⟩ := hthere
    obtain ⟨r, hr, hkeeps⟩ := h.subscribers r' hr'
    have hbefore := hdue r hr (hkeeps.id.symm.trans hid)
    simp only [DueRow.due, Bool.and_eq_true, Bool.or_eq_true, beq_iff_eq,
      decide_eq_true_eq] at hbefore
    obtain ⟨⟨⟨hwaiting, hnext⟩, hstatus⟩, hnames⟩ := hbefore
    obtain ⟨o', ho', hid', -⟩ := h.stays.resolve_right fun hgone => hgone r' hr' hid
    rw [h.columns o' ho' hid'] at ho'
    refine .inl ⟨ho', r', hr', hid, ?_⟩
    rcases hkeeps.status with hkept | hquarantined
    · refine .inr fun now' hnow => ?_
      simp only [DueRow.due, Bool.and_eq_true, Bool.or_eq_true, beq_iff_eq, decide_eq_true_eq]
      refine ⟨⟨⟨hwaiting, Int.le_trans hnext hnow⟩, ?_⟩, by rwa [hkeeps.channel]⟩
      rwa [hkept]
    · exact .inl hquarantined
  · exact .inr fun r hr hid => hthere ⟨r, hr, hid⟩

/-- **A row passed over** keeps its columns and stays due, unless its subscriber is quarantined or
removed by the end of the round. -/
theorem staysDue_step {ρ : PacedRound} (ho : o ∈ ρ.subs.outbox.rows)
    (h : ρ.PassesOver cr pacing x o.id) :
    o.StaysDue ρ.names ρ.now (ρ.step cr pacing x).d.subs := by
  obtain ⟨before, row, after, key, hresult, hid, hgoes, henabled, hmessage, hbusy⟩ := h
  have hopened := Prog.wp_run (wp_openRound :
    (openRound ρ.names ρ.candidate ρ.now).wp _ { (ρ.start x).d with stats := {} }) ρ.opening
  have hrows : before ++ row :: after = ρ.subs.dueRows ρ.names ρ.now :=
    hopened.rows _ key hresult
  have hmem : row ∈ ρ.subs.dueRows ρ.names ρ.now :=
    hrows ▸ List.mem_append_right _ List.mem_cons_self
  obtain ⟨o₁, ho₁, r₁, hr₁, hsub, hrow, hdue₁⟩ := due_of_mem_dueRows hmem
  obtain rfl : o₁ = o := Table.eq_of_id ho₁ ho ((congrArg DueRow.id hrow).symm.trans hid)
  have hdue : ∀ r ∈ ρ.subs.subscribers.rows, r.id = o₁.subscriberId →
      DueRow.due ρ.names ρ.now o₁ r = true := fun r hr hrid => by
    rwa [Table.eq_of_id hr hr₁ (hrid.trans hsub.symm)]
  have hnames : ρ.names.isEmpty = false := by
    cases hnames : ρ.names with
    | nil => simp [DueRow.due, hnames] at hdue₁
    | cons => rfl
  -- the rows of a snapshot have different ids
  have hsorted : (before ++ row :: after).Pairwise fun a b => a.id < b.id :=
    hrows ▸ sorted_dueRows
  rw [List.pairwise_append, List.pairwise_cons] at hsorted
  have hbefore : ∀ row' ∈ before, row'.id ≠ o₁.id := fun row' hrow' =>
    hid ▸ Int.ne_of_lt (hsorted.2.2 row' hrow' row List.mem_cons_self)
  have hafter : ∀ row' ∈ after, row'.id ≠ o₁.id := fun row' hrow' =>
    hid ▸ (Int.ne_of_lt (hsorted.2.1.1 row' hrow')).symm
  refine OutboxRow.Untouched.staysDue ?_ hdue
  rw [PacedRound.step, timedDue_of_opened hnames hresult, timedRows_append hgoes, timedRows,
    timedRow_of_passed (hid ▸ henabled) hmessage (hid ▸ hbusy), if_pos rfl]
  refine OutboxRow.Untouched.timedRows ?_ hafter
  refine OutboxRow.Untouched.timedRows ?_ hbefore
  show o₁.Untouched ρ.subs _
  refine ⟨fun o' ho' hid' => Table.eq_of_id (hopened.outbox ▸ ho') ho hid',
    .inl ⟨o₁, hopened.outbox.symm ▸ ho, rfl, rfl⟩,
    fun r' hr' => ⟨r', hopened.subscribers ▸ hr', .refl r'⟩⟩

end PassedOver

/-- **Pacing gaps hold across rounds.** Between any two sends on one channel there is the channel's
gap, and between any two to one address the address's, however often the pacer forgot addresses in
between; and a row that is passed over for its address keeps its columns and stays due, unless its
subscriber was quarantined or removed in that round. -/
theorem pacing_gaps (cr : Crypto) (pacing : Channel → Pacing)
    (hpacing : ∀ c, (pacing c).perAddress.nanos ≤ (Duration.fromSecs 60).nanos) (clock : ℕ)
    (rounds : List PacedRound) :
    (run (PacedRound.step cr pacing) (.initial .empty clock) rounds).sends.Pairwise
        (Sent.Spaced pacing) ∧
      Always (PacedRound.step cr pacing)
        (fun x ρ => ∀ o ∈ ρ.subs.outbox.rows, ρ.PassesOver cr pacing x o.id →
          o.StaysDue ρ.names ρ.now (ρ.step cr pacing x).d.subs)
        (.initial .empty clock) rounds := by
  have h₀ : Paced pacing (.initial .empty clock) :=
    ⟨.nil, fun keep => .nil keep clock [], .nil _ clock []⟩
  have hrun : Paced pacing (run (PacedRound.step cr pacing) (.initial .empty clock) rounds) :=
    run_invariant h₀ (fun _ ρ hx => hx.step hpacing ρ) rounds
  exact ⟨hrun.spaced, .of_forall fun _ _ _ ho hpass => staysDue_step ho hpass⟩

/-- A round that finds two messages to one reader, `pause` after the last one. -/
def mailing (result : SendResult) (pause : ℕ) : PacedRound where
  cfg := sampleConfig
  names := [.email]
  candidate := sampleKey
  now := 60
  times _ := { result := result, send := 5000000 }
  subs := refusedSubs 2
  pause := pause

/-- A channel that may send to one address once a minute. -/
def minutely (_ : Channel) : Pacing := ⟨⟨200000000⟩, .fromSecs 60⟩

/-- Three rounds: the second one comes too early, the third one does not. -/
theorem pacing_gaps_mailing :
    ((run (PacedRound.step sampleCrypto minutely) (.initial .empty 0)
        [mailing .ok 0, mailing .ok 5000000000, mailing .ok 60000000000]).sends.map
          (·.startAt)) = [0, 65005000000] ∧
      (run (PacedRound.step sampleCrypto minutely) (.initial .empty 0)
        [mailing .ok 0, mailing .ok 5000000000, mailing .ok 60000000000]).sends.Pairwise
          (Sent.Spaced minutely) :=
  ⟨by decide, (pacing_gaps sampleCrypto minutely (fun _ => Nat.le_refl _) 0 _).1⟩

/-- A row that the round passes over is there as it was, and due. -/
def PacedRound.LeavesDue (cr : Crypto) (pacing : Channel → Pacing) (x : Timed) (ρ : PacedRound) :
    Prop :=
  ∀ o ∈ ρ.subs.outbox.rows, ρ.PassesOver cr pacing x o.id →
    o ∈ (ρ.step cr pacing x).d.subs.outbox.rows ∧
      ∃ r ∈ (ρ.step cr pacing x).d.subs.subscribers.rows, r.id = o.subscriberId ∧
        DueRow.due ρ.names ρ.now o r = true

/-- The second of the two messages. -/
def secondMail : OutboxRow := (refusedSubs 2).outbox.rows.get ⟨1, by decide⟩

/-- Its row in the snapshot. -/
def secondRow : DueRow := ((refusedSubs 2).dueRows [.email] 60).get ⟨1, by decide⟩

theorem mailing_passesOver (failure : Failure)
    (h : failure = .gone ∨ failure = .permanent) :
    (mailing (.err failure "") 0).PassesOver sampleCrypto minutely (.initial .empty 0)
      secondMail.id := by
  refine ⟨((refusedSubs 2).dueRows [.email] 60).take 1, secondRow, [], sampleKey, ?_, rfl, ?_⟩
  · rcases h with rfl | rfl <;> decide
  · rcases h with rfl | rfl <;> decide

/-- **A row passed over does not always stay due**: the first message is answered with the address
gone, or with the tenth refusal, and the second one, passed over for the pacing, loses its
subscriber or finds it quarantined. -/
theorem passed_over_given_up :
    ¬Always (PacedRound.step sampleCrypto minutely) (fun x ρ => ρ.LeavesDue sampleCrypto minutely x)
        (.initial .empty 0) [mailing (.err .gone "") 0] ∧
      ¬Always (PacedRound.step sampleCrypto minutely)
        (fun x ρ => ρ.LeavesDue sampleCrypto minutely x)
        (.initial .empty 0) [mailing (.err .permanent "") 0] := by
  constructor
  · intro h
    have hleft := (h.1 secondMail (by decide) (mailing_passesOver .gone (.inl rfl))).1
    revert hleft
    decide
  · intro h
    have hleft := (h.1 secondMail (by decide) (mailing_passesOver .permanent (.inr rfl))).2
    revert hleft
    decide

end Dunlin

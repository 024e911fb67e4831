import Dunlin.DispatchRun
import Dunlin.Lib.Run

/-!
# After an address is given up on

A subscriber is given up on when its channel says the address is gone, which deletes it, or when
one counted failure too many quarantines it. From then on it "gets nothing", as `count_failure` has
it, and later rounds keep to that: their snapshots no longer hold the subscriber.

Within a round the snapshot is older than the outcome. A later row of the same subscriber is still
in it and is handed over like any other, and when the channel repeats that the address is gone, the
subscriber is counted as removed a second time. `silent_iff` says when this does not happen: in no
round does the row that gives its subscriber up come before another row of that subscriber that
would be sent.

## Main results

* `silent_later_iff` — what is logged for the rows of a snapshot
* `silent_run_iff` — one round, from any tables
* `counted_run` — the statistics of a round are what it logged
* `silent_iff` — every run of rounds
* `sent_after_quarantine` — two messages to one subscriber, the second after its quarantine
-/

namespace Dunlin

open Lib

/-- The subscriber an entry is about. -/
def LogEntry.sid : LogEntry → ℤ
  | .handed _ sid .. | .quarantined sid | .removed sid => sid

/-- The entry is a subscriber's quarantine. -/
def LogEntry.isQuarantined : LogEntry → Bool
  | .quarantined _ => true
  | _ => false

/-- The entry is a subscriber's removal. -/
def LogEntry.isRemoved : LogEntry → Bool
  | .removed _ => true
  | _ => false

/-- The entry gives its subscriber up. -/
def LogEntry.givesUp (e : LogEntry) : Bool := e.isQuarantined || e.isRemoved

/-- Nothing is logged about a subscriber that was given up: no message for it is handed over, and it
is not counted again. -/
def Silent (log : List LogEntry) : Prop :=
  log.Pairwise fun a b => a.givesUp = true → a.sid ≠ b.sid

instance : DecidablePred Silent := fun log => inferInstanceAs (Decidable (log.Pairwise _))

/-- A round's statistics count the quarantines and removals it logged. -/
structure Counted (d d' : Dispatcher) : Prop where
  quarantined : d'.stats.quarantined = (d'.log.drop d.log.length).countP LogEntry.isQuarantined
  removed : d'.stats.removed = (d'.log.drop d.log.length).countP LogEntry.isRemoved

/-- The outcome of a send gives the subscriber up: the address is gone, or the failure is the one
that fills the failure window. -/
def lastStraw (now sid : ℤ) (result : SendResult) (s : Subs) : Prop :=
  match result.error with
  | none => False
  | some (failure, _) =>
    failure = .gone ∨ failure.counts ∧ ∃ r ∈ s.subscribers.rows, r.id = sid ∧ r.strikesOut now

/-- A due row comes to a message. -/
def Prepared.isMessage : Prepared → Bool
  | .message _ => true
  | _ => false

section

variable (cr : Crypto)

/-- The monotonic clock does not run backwards while a snapshot is worked through. -/
def Round.Clocked (d : Dispatcher) (ρ : Round) : Prop :=
  (d.subs.dueRows ρ.names ρ.now).Pairwise fun a b => (ρ.envs a.id).doneAt ≤ (ρ.envs b.id).readyAt

variable (cfg : Config) (key : String) (now : ℤ) (envs : ℤ → SendEnv)

/-- A row would be sent although its address was sent to at `t`. -/
def Follows (t : ℕ) (row : DueRow) : Prop :=
  (envs row.id).enabled ∧ (prepare cr cfg key now row).isMessage ∧
    row.channel.pacing.perAddress.nanos ≤ (envs row.id).readyAt - t

/-- No row that gives its subscriber up comes before another one of that subscriber that would be
sent. -/
def Parted : List DueRow → Dispatcher → Prop
  | [], _ => True
  | row :: rows, d =>
    ((handing cr cfg key now row (envs row.id) d.pacer).isSome →
      lastStraw now row.sid (envs row.id).result d.subs →
        ∀ row' ∈ rows, row'.sid = row.sid →
          ¬Follows cr cfg key now envs (envs row.id).doneAt row') ∧
      Parted rows (dispatchRow cr cfg key now row (envs row.id) d)

/-- `Parted`, of the snapshot a round takes. -/
def Round.Parted (d : Dispatcher) (ρ : Round) : Prop :=
  Dunlin.Parted cr ρ.cfg (d.subs.signingKey ρ.candidate).1 ρ.now ρ.envs
    (d.subs.dueRows ρ.names ρ.now) { d with stats := {}, subs := (d.subs.signingKey ρ.candidate).2 }

end

/-! ### The log of a snapshot -/

section Log

variable {cr : Crypto} {cfg : Config} {key : String} {now : ℤ} {envs : ℤ → SendEnv} {row : DueRow}
  {rows : List DueRow} {d : Dispatcher} {m : Message} {sid : ℤ} {result : SendResult} {s : Subs}

theorem aftermath_of_lastStraw (h : lastStraw now sid result s) :
    ∃ e, aftermath now sid result s = [e] ∧ e.sid = sid ∧ e.givesUp = true := by
  unfold lastStraw at h
  unfold aftermath
  cases herr : result.error with
  | none => simp [herr] at h
  | some error =>
    obtain ⟨failure, text⟩ := error
    simp only [herr] at h
    dsimp only
    by_cases hg : failure = .gone
    · rw [if_pos hg]
      exact ⟨_, rfl, rfl, rfl⟩
    · rw [if_neg hg, if_pos (h.resolve_left hg)]
      exact ⟨_, rfl, rfl, rfl⟩

theorem aftermath_of_not_lastStraw (h : ¬lastStraw now sid result s) :
    aftermath now sid result s = [] := by
  unfold lastStraw at h
  unfold aftermath
  cases herr : result.error with
  | none => rfl
  | some error =>
    obtain ⟨failure, text⟩ := error
    simp only [herr, not_or] at h
    dsimp only
    rw [if_neg h.1, if_neg h.2]

theorem sid_of_mem_entries {e : LogEntry} (h : e ∈ entries cr cfg key now envs row d) :
    e.sid = row.sid := by
  unfold entries at h
  split at h
  · rcases List.mem_cons.mp h with rfl | h
    · rfl
    · by_cases hs : lastStraw now row.sid (envs row.id).result d.subs
      · obtain ⟨e', he, hsid, -⟩ := aftermath_of_lastStraw hs
        rw [he, List.mem_singleton] at h
        rw [h, hsid]
      · rw [aftermath_of_not_lastStraw hs] at h
        exact absurd h List.not_mem_nil
  · exact absurd h List.not_mem_nil

theorem sid_of_mem_later {e : LogEntry} (h : e ∈ later cr cfg key now envs rows d) :
    ∃ row ∈ rows, e.sid = row.sid := by
  induction rows generalizing d with
  | nil => exact absurd h List.not_mem_nil
  | cons row rows ih =>
    rcases List.mem_append.mp h with h | h
    · exact ⟨row, List.mem_cons_self, sid_of_mem_entries h⟩
    · obtain ⟨row', hrow', he⟩ := ih h
      exact ⟨row', List.mem_cons_of_mem _ hrow', he⟩

/-- Handling a row is the start of what comes after it in the log. -/
theorem silent_entries {l : List LogEntry} :
    Silent (entries cr cfg key now envs row d ++ l) ↔
      ((handing cr cfg key now row (envs row.id) d.pacer).isSome →
        lastStraw now row.sid (envs row.id).result d.subs → ∀ e ∈ l, e.sid ≠ row.sid) ∧
          Silent l := by
  rw [entries]
  cases hm : handing cr cfg key now row (envs row.id) d.pacer with
  | none => simp
  | some m =>
    have hhanded : ∀ l', Silent (LogEntry.handed row.id row.sid row.channel (deliveryOf cfg row m)
        (envs row.id).result :: l') ↔ Silent l' := fun l' => by
      rw [Silent, List.pairwise_cons]
      exact and_iff_right fun _ _ he => absurd he Bool.false_ne_true
    rw [List.cons_append, hhanded]
    by_cases hs : lastStraw now row.sid (envs row.id).result d.subs
    · obtain ⟨e, he, hsid, hup⟩ := aftermath_of_lastStraw hs
      rw [he, List.singleton_append, Silent, List.pairwise_cons]
      refine and_congr_left fun _ => ⟨fun h _ _ b hb => ?_, fun h b hb _ => ?_⟩
      · rw [← hsid]
        exact (h b hb hup).symm
      · rw [hsid]
        exact (h rfl hs b hb).symm
    · rw [aftermath_of_not_lastStraw hs, List.nil_append]
      exact (and_iff_right fun _ h => absurd h hs).symm

end Log

/-! ### Pacing

The address of a handed row keeps the time of that send until the address is sent to again or the
pacer forgets it, which takes longer than any channel's gap. -/

/-- What the pacer knows about an address last sent to at `t`: just that, or nothing any more, and
then every row still to come is past the time in which the pacer does not forget. -/
structure Stamped (address : Channel × String) (t : ℕ) (envs : ℤ → SendEnv) (rows : List DueRow)
    (p : Pacer) : Prop where
  time : ∀ e ∈ p.lastAddress, e.1 = address → e.2 = t
  kept : (∃ e ∈ p.lastAddress, e.1 = address) ∨
    ∀ row ∈ rows, (Duration.fromSecs 60).nanos ≤ (envs row.id).readyAt - t

namespace Stamped

variable {address address' : Channel × String} {t t' : ℕ} {envs : ℤ → SendEnv} {row : DueRow}
  {rows : List DueRow} {p : Pacer} {c : Channel} {a : String}

theorem tail (h : Stamped address t envs (row :: rows) p) : Stamped address t envs rows p :=
  ⟨h.time, h.kept.imp_right fun h row hrow => h row (List.mem_cons_of_mem _ hrow)⟩

/-- Whether the address is ready depends on the time of the last send alone. -/
theorem addressReady (h : Stamped (c, a) t envs rows p) (hrow : row ∈ rows) :
    p.addressReady c a c.pacing (envs row.id).readyAt = true ↔
      c.pacing.perAddress.nanos ≤ (envs row.id).readyAt - t := by
  rw [Pacer.addressReady]
  cases hl : p.lastAddress.lookup (c, a) with
  | some t' =>
    obtain ⟨l₁, l₂, heq, -⟩ := List.lookup_eq_some_iff.mp hl
    have hmem : ((c, a), t') ∈ p.lastAddress := by
      rw [heq]
      exact List.mem_append_right _ List.mem_cons_self
    have ht : t' = t := h.time _ hmem rfl
    rw [ht]
    simp
  | none =>
    have hnone : ∀ e ∈ p.lastAddress, e.1 ≠ (c, a) := fun e he hc => by
      have := List.lookup_eq_none_iff.mp hl e he
      simp [hc] at this
    have hold : ∀ row ∈ rows, (Duration.fromSecs 60).nanos ≤ (envs row.id).readyAt - t :=
      h.kept.resolve_left fun ⟨e, he, hc⟩ => hnone e he hc
    have hgap : c.pacing.perAddress.nanos ≤ (Duration.fromSecs 60).nanos := by
      cases c <;> decide
    have hready := Nat.le_trans hgap (hold row hrow)
    exact iff_of_true rfl hready

/-- The pacer after the send itself. -/
theorem self (rows : List DueRow) (p : Pacer) :
    Stamped (c, a) t envs rows (p.record c a t) := by
  have hput : ∀ e ∈ Pacer.put p.lastAddress (c, a) t, e.1 = (c, a) → e.2 = t := fun e he hc => by
    rcases List.mem_cons.mp he with rfl | he
    · rfl
    · have := (List.mem_filter.mp he).2
      simp [hc] at this
  refine ⟨fun e he => hput e ?_, .inl ⟨((c, a), t), ?_, rfl⟩⟩
  · unfold Pacer.record at he
    dsimp only at he
    split at he
    · exact (List.mem_filter.mp he).1
    · exact he
  · unfold Pacer.record
    dsimp only
    split
    · rw [List.mem_filter, Nat.sub_self]
      exact ⟨List.mem_cons_self, by decide⟩
    · exact List.mem_cons_self

/-- The pacer after a send to another address. -/
theorem other (h : Stamped address t envs rows p) (hne : (c, a) ≠ address)
    (hclock : ∀ row ∈ rows, t' ≤ (envs row.id).readyAt) :
    Stamped address t envs rows (p.record c a t') := by
  have hput : ∀ e, e.1 = address → (e ∈ Pacer.put p.lastAddress (c, a) t' ↔ e ∈ p.lastAddress) :=
    fun e he => by
      have hne' : e.1 ≠ (c, a) := fun hc => hne (hc.symm.trans he)
      rw [Pacer.put, List.mem_cons, List.mem_filter]
      constructor
      · rintro (rfl | hmem)
        · exact absurd rfl hne'
        · exact hmem.1
      · exact fun hmem => .inr ⟨hmem, by simpa using hne'⟩
  unfold Pacer.record
  dsimp only
  split
  · refine ⟨fun e he hc => h.time e ((hput e hc).mp (List.mem_filter.mp he).1) hc, ?_⟩
    rcases h.kept with ⟨e, he, hc⟩ | hold
    · by_cases hrecent : t' - e.2 < (Duration.fromSecs 60).nanos
      · exact .inl ⟨e, List.mem_filter.mpr ⟨(hput e hc).mpr he, by simpa using hrecent⟩, hc⟩
      · refine .inr fun row hrow => ?_
        have hlate := hclock row hrow
        have htime := h.time e he hc
        omega
    · exact .inr hold
  · refine ⟨fun e he hc => h.time e ((hput e hc).mp he) hc, h.kept.imp_left ?_⟩
    rintro ⟨e, he, hc⟩
    exact ⟨e, (hput e hc).mpr he, hc⟩

end Stamped

/-! ### The rest of a snapshot -/

section Rest

variable {cr : Crypto} {cfg : Config} {key : String} {now : ℤ} {envs : ℤ → SendEnv} {row : DueRow}
  {rows : List DueRow} {d : Dispatcher}

theorem isSome_handing {env : SendEnv} {p : Pacer} :
    (handing cr cfg key now row env p).isSome ↔
      env.enabled ∧ (prepare cr cfg key now row).isMessage ∧
        p.addressReady row.channel row.address row.channel.pacing env.readyAt := by
  rw [handing]
  cases prepare cr cfg key now row with
  | message m =>
    cases env.enabled <;>
      cases p.addressReady row.channel row.address row.channel.pacing env.readyAt <;>
        simp [Prepared.isMessage]
  | skip | giveUp => simp [Prepared.isMessage]

theorem pacer_handOver {m : Message} {env : SendEnv} :
    (handOver cfg now row m env d).pacer =
      d.pacer.record row.channel row.address env.doneAt := by
  unfold handOver
  dsimp only
  split
  · rfl
  · unfold onError
    dsimp only
    split
    · rfl
    · unfold onFailed onCounted
      dsimp only
      split <;> split
      all_goals
        first
        | rfl
        | split <;> rfl

theorem pacer_dispatchRow :
    (dispatchRow cr cfg key now row (envs row.id) d).pacer =
      if (handing cr cfg key now row (envs row.id) d.pacer).isSome then
        d.pacer.record row.channel row.address (envs row.id).doneAt
      else d.pacer := by
  cases hm : handing cr cfg key now row (envs row.id) d.pacer with
  | none =>
    rcases dispatchRow_of_not_handing hm with hd | ⟨error, stats, -, -, hd⟩ <;> rw [hd] <;> rfl
  | some m =>
    rw [dispatchRow_of_handing hm, pacer_handOver]
    rfl

/-- The rows of one snapshot share a subscriber when they share an address. -/
def Keyed (rows : List DueRow) : Prop :=
  ∀ a ∈ rows, ∀ b ∈ rows, a.sid = b.sid ↔ (a.channel, a.address) = (b.channel, b.address)

/-- After a send at `t`, the rest of a snapshot leaves the subscriber alone exactly when none of its
rows would be sent. -/
theorem quiet_iff {first : DueRow} {t : ℕ}
    (hkeyed : ∀ row ∈ rows, row.sid = first.sid ↔
      (row.channel, row.address) = (first.channel, first.address))
    (hclock : rows.Pairwise fun a b => (envs a.id).doneAt ≤ (envs b.id).readyAt)
    (hstamp : Stamped (first.channel, first.address) t envs rows d.pacer) :
    (∀ e ∈ later cr cfg key now envs rows d, e.sid ≠ first.sid) ↔
      ∀ row ∈ rows, row.sid = first.sid → ¬Follows cr cfg key now envs t row := by
  induction rows generalizing d with
  | nil => simp [later]
  | cons row rows ih =>
    rw [List.pairwise_cons] at hclock
    have hkeyed' := fun row' hrow' => hkeyed row' (List.mem_cons_of_mem _ hrow')
    have hrow := hkeyed row List.mem_cons_self
    by_cases hsid : row.sid = first.sid
    · obtain ⟨hc, ha⟩ := Prod.mk.injEq .. ▸ hrow.mp hsid
      have hmem : row ∈ row :: rows := List.mem_cons_self
      have hready := hstamp.addressReady hmem
      have hfollows : Follows cr cfg key now envs t row ↔
          (handing cr cfg key now row (envs row.id) d.pacer).isSome := by
        rw [isSome_handing, Follows, hc, ha, hready]
      by_cases hsome : (handing cr cfg key now row (envs row.id) d.pacer).isSome
      · refine iff_of_false (fun h => ?_) fun h => ?_
        · obtain ⟨m, hm⟩ := Option.isSome_iff_exists.mp hsome
          refine h (.handed row.id row.sid row.channel (deliveryOf cfg row m)
            (envs row.id).result) ?_ hsid
          rw [later, entries, hm]
          exact List.mem_append_left _ List.mem_cons_self
        · exact h row List.mem_cons_self hsid (hfollows.mpr hsome)
      · have hnone := Option.not_isSome_iff_eq_none.mp hsome
        have hpacer : (dispatchRow cr cfg key now row (envs row.id) d).pacer = d.pacer := by
          rw [pacer_dispatchRow, if_neg hsome]
        have hentries : entries cr cfg key now envs row d = [] := by
          rw [entries, hnone]
        rw [later, hentries, List.nil_append, ih hkeyed' hclock.2 (hpacer ▸ hstamp.tail)]
        rw [List.forall_mem_cons]
        exact (and_iff_right fun _ hf => hsome (hfollows.mp hf)).symm
    · have hstamp' : Stamped (first.channel, first.address) t envs rows
          (dispatchRow cr cfg key now row (envs row.id) d).pacer := by
        rw [pacer_dispatchRow]
        split
        · exact hstamp.tail.other (fun hc => hsid (hrow.mpr hc)) hclock.1
        · exact hstamp.tail
      rw [later, List.forall_mem_append, ih hkeyed' hclock.2 hstamp', List.forall_mem_cons]
      have hentries : ∀ e ∈ entries cr cfg key now envs row d, e.sid ≠ first.sid := fun e he => by
        rw [sid_of_mem_entries he]
        exact hsid
      rw [and_iff_right hentries, and_iff_right fun h => absurd h hsid]

/-- **Within a snapshot.** What is logged stays silent about the subscribers given up exactly when
they are given up in the last row that would be sent. -/
theorem silent_later_iff (hkeyed : Keyed rows)
    (hclock : rows.Pairwise fun a b => (envs a.id).doneAt ≤ (envs b.id).readyAt) :
    Silent (later cr cfg key now envs rows d) ↔ Parted cr cfg key now envs rows d := by
  induction rows generalizing d with
  | nil => exact iff_of_true .nil trivial
  | cons row rows ih =>
    rw [List.pairwise_cons] at hclock
    have hkeyed' : Keyed rows := fun a ha b hb =>
      hkeyed a (List.mem_cons_of_mem _ ha) b (List.mem_cons_of_mem _ hb)
    rw [later, silent_entries, ih hkeyed' hclock.2, Parted]
    refine and_congr_left fun _ => forall_congr' fun hsome => forall_congr' fun _ => ?_
    refine quiet_iff (fun row' hrow' => ?_) hclock.2 ?_
    · exact hkeyed row' (List.mem_cons_of_mem _ hrow') row List.mem_cons_self
    · rw [pacer_dispatchRow, if_pos hsome]
      exact .self rows d.pacer

end Rest

/-! ### From round to round -/

/-- A subscriber that was given up is quarantined, or no longer there. -/
def Hushed (d : Dispatcher) : Prop :=
  ∀ e ∈ d.log, e.givesUp = true → ∀ r ∈ d.subs.subscribers.rows, r.id = e.sid →
    r.status = .quarantined

section Rounds

variable {cr : Crypto} {cfg : Config} {key : String} {now : ℤ} {envs : ℤ → SendEnv} {row : DueRow}
  {rows : List DueRow} {d : Dispatcher} {names : List Channel}

/-- The last straw leaves no subscriber to send to. -/
theorem quarantined_of_lastStraw {m : Message}
    (hm : handing cr cfg key now row (envs row.id) d.pacer = some m)
    (hs : lastStraw now row.sid (envs row.id).result d.subs) {r : Subscriber}
    (hr : r ∈ (dispatchRow cr cfg key now row (envs row.id) d).subs.subscribers.rows)
    (hid : r.id = row.sid) : r.status = .quarantined := by
  rw [dispatchRow_of_handing hm] at hr
  unfold lastStraw at hs
  cases herr : (envs row.id).result.error with
  | none => simp [herr] at hs
  | some error =>
    obtain ⟨failure, text⟩ := error
    simp only [herr] at hs
    cases hg : (envs row.id).result.isGone with
    | true =>
      rw [subs_handOver_of_gone hg] at hr
      have hne := (Subs.mem_deleteSubscribers.mp hr).2
      simp [hid] at hne
    | false =>
      have hgone : failure ≠ .gone := by simpa [SendResult.isGone, herr] using hg
      obtain ⟨hcounts, r₁, hr₁, hid₁, hstrikes⟩ := hs.resolve_left hgone
      rw [rows_handOver hg] at hr
      obtain ⟨r₀, hr₀, rfl⟩ := List.mem_map.mp hr
      by_cases hid₀ : r₀.id = row.sid
      · obtain rfl : r₀ = r₁ := Table.eq_of_id hr₀ hr₁ (hid₀.trans hid₁.symm)
        rw [if_pos hid₀, Subscriber.answered, herr]
        simp [hcounts, Subscriber.struck, hstrikes, Subs.quarantineRow]
      · rw [if_neg hid₀] at hid
        exact absurd hid hid₀

theorem Hushed.dispatchRow (h : Hushed d) :
    Hushed (dispatchRow cr cfg key now row (envs row.id) d) := by
  intro e he hup r hr hid
  rw [log_dispatchRow, List.mem_append] at he
  rcases he with he | he
  · obtain ⟨r₀, hr₀, hkeeps⟩ := roundKeeps_dispatchRow hr
    have hquar := h e he hup r₀ hr₀ (hkeeps.id.symm.trans hid)
    rcases hkeeps.status with hst | hst
    · rw [hst, hquar]
    · exact hst
  · have hsid := sid_of_mem_entries he
    unfold entries at he
    split at he
    · rename_i m hm
      rcases List.mem_cons.mp he with rfl | he
      · exact absurd hup Bool.false_ne_true
      · by_cases hs : lastStraw now row.sid (envs row.id).result d.subs
        · exact quarantined_of_lastStraw hm hs hr (hid.trans hsid)
        · rw [aftermath_of_not_lastStraw hs] at he
          exact absurd he List.not_mem_nil
    · exact absurd he List.not_mem_nil

theorem Hushed.run (h : Hushed d) (ρ : Round) : Hushed (ρ.run cr d) := by
  refine dispatchDue_inv h (fun d hd => hd) (fun d hd => ?_) fun d' key row _ hd' _ _ =>
    hd'.dispatchRow
  intro e he hup r hr
  rw [(d.subs.tables_signingKey ρ.candidate).1] at hr
  exact hd e he hup r hr

theorem keyed_dueRows : Keyed (d.subs.dueRows names now) := by
  intro a ha b hb
  obtain ⟨o, -, r, hr, -, rfl, -⟩ := mem_dueRows ha
  obtain ⟨o', -, r', hr', -, rfl, -⟩ := mem_dueRows hb
  constructor
  · intro hsid
    have heq : r = r' := Table.eq_of_id hr hr' hsid
    rw [heq]
    rfl
  · intro haddr
    obtain ⟨hchannel, haddress⟩ : r.channel = r'.channel ∧ r.address = r'.address :=
      Prod.mk.inj haddr
    rw [Subs.eq_of_address hr hr' hchannel haddress]
    rfl

/-- **One round.** -/
theorem silent_run_iff {ρ : Round} (hsilent : Silent d.log) (hhushed : Hushed d)
    (hclock : ρ.Clocked d) : Silent (ρ.run cr d).log ↔ ρ.Parted cr d := by
  rw [log_run, Silent, List.pairwise_append]
  have hcross : ∀ a ∈ d.log, ∀ b ∈ later cr ρ.cfg (d.subs.signingKey ρ.candidate).1 ρ.now ρ.envs
      (d.subs.dueRows ρ.names ρ.now)
      { d with stats := {}, subs := (d.subs.signingKey ρ.candidate).2 },
      a.givesUp = true → a.sid ≠ b.sid := by
    intro a ha b hb hup heq
    obtain ⟨row, hrow, hsid⟩ := sid_of_mem_later hb
    obtain ⟨o, -, r, hr, -, rfl, -, hstatus⟩ := mem_dueRows hrow
    have hquar := hhushed a ha hup r hr (heq.trans hsid).symm
    rw [hquar] at hstatus
    exact absurd hstatus (by decide)
  constructor
  · rintro ⟨-, hlater, -⟩
    exact (silent_later_iff keyed_dueRows hclock).mp hlater
  · intro hparted
    exact ⟨hsilent, (silent_later_iff keyed_dueRows hclock).mpr hparted, hcross⟩

end Rounds

/-! ### Statistics -/

section Statistics

variable {cr : Crypto} {cfg : Config} {key : String} {now : ℤ} {envs : ℤ → SendEnv} {row : DueRow}
  {rows : List DueRow} {d : Dispatcher}

theorem stats_onFailed {failure : Failure} {text : String} :
    (onFailed now row failure text d).stats.quarantined = d.stats.quarantined ∧
      (onFailed now row failure text d).stats.removed = d.stats.removed := by
  rw [onFailed]
  dsimp only
  split <;> exact ⟨rfl, rfl⟩

theorem stats_onCounted {failure : Failure} :
    (onCounted now row failure d).stats.quarantined = d.stats.quarantined +
        (if failure.counts ∧ ∃ r ∈ d.subs.subscribers.rows, r.id = row.sid ∧ r.strikesOut now
          then 1 else 0) ∧
      (onCounted now row failure d).stats.removed = d.stats.removed := by
  rw [onCounted]
  by_cases hs : ∃ r ∈ d.subs.subscribers.rows, r.id = row.sid ∧ r.strikesOut now
  · have hfst := Subs.fst_countFailure.mpr hs
    cases failure.counts <;> simp [hs, hfst]
  · have hfst : (d.subs.countFailure row.sid now).1 = false :=
      Bool.eq_false_iff.mpr fun h => hs (Subs.fst_countFailure.mp h)
    cases failure.counts <;> simp [hs, hfst]

theorem stats_handOver {m : Message} {env : SendEnv} :
    (handOver cfg now row m env d).stats.quarantined = d.stats.quarantined +
        (aftermath now row.sid env.result d.subs).countP LogEntry.isQuarantined ∧
      (handOver cfg now row m env d).stats.removed = d.stats.removed +
        (aftermath now row.sid env.result d.subs).countP LogEntry.isRemoved := by
  rw [handOver, aftermath]
  cases env.result.error with
  | none => exact ⟨rfl, rfl⟩
  | some error =>
    obtain ⟨failure, text⟩ := error
    dsimp only
    rw [onError]
    dsimp only
    split
    · exact ⟨rfl, rfl⟩
    · rw [stats_onFailed.1, stats_onFailed.2, stats_onCounted.1, stats_onCounted.2]
      dsimp only
      split <;> exact ⟨rfl, rfl⟩

theorem stats_dispatchRow :
    (dispatchRow cr cfg key now row (envs row.id) d).stats.quarantined = d.stats.quarantined +
        (entries cr cfg key now envs row d).countP LogEntry.isQuarantined ∧
      (dispatchRow cr cfg key now row (envs row.id) d).stats.removed = d.stats.removed +
        (entries cr cfg key now envs row d).countP LogEntry.isRemoved := by
  rw [entries]
  cases hm : handing cr cfg key now row (envs row.id) d.pacer with
  | none =>
    rcases dispatchRow_of_not_handing hm with hd | ⟨error, stats, hq, hr, hd⟩ <;> rw [hd]
    · exact ⟨rfl, rfl⟩
    · exact ⟨hq, hr⟩
  | some m =>
    rw [dispatchRow_of_handing hm]
    exact stats_handOver

theorem stats_dispatchRows :
    (dispatchRows cr cfg key now envs rows d).stats.quarantined = d.stats.quarantined +
        (later cr cfg key now envs rows d).countP LogEntry.isQuarantined ∧
      (dispatchRows cr cfg key now envs rows d).stats.removed = d.stats.removed +
        (later cr cfg key now envs rows d).countP LogEntry.isRemoved := by
  induction rows generalizing d with
  | nil => exact ⟨rfl, rfl⟩
  | cons row rows ih =>
    show (dispatchRows cr cfg key now envs rows _).stats.quarantined = _ ∧
      (dispatchRows cr cfg key now envs rows _).stats.removed = _
    rw [ih.1, ih.2, stats_dispatchRow.1, stats_dispatchRow.2, later, List.countP_append,
      List.countP_append]
    exact ⟨Nat.add_assoc .., Nat.add_assoc ..⟩

/-- **The statistics of a round** are what it logged. -/
theorem counted_run (ρ : Round) : Counted d (ρ.run cr d) := by
  rw [Round.run]
  rcases dispatchDue_cases with hd | hd <;> rw [hd]
  · exact ⟨by simp, by simp⟩
  · have hlog : ∀ d' : Dispatcher, d'.log = d.log → d'.stats = {} → ∀ rows,
        Counted d (dispatchRows cr ρ.cfg (d.subs.signingKey ρ.candidate).1 ρ.now ρ.envs rows
          d') := by
      intro d' hlog hstats rows
      refine ⟨?_, ?_⟩
      · rw [stats_dispatchRows.1, log_dispatchRows, hlog, List.drop_left, hstats, Nat.zero_add]
      · rw [stats_dispatchRows.2, log_dispatchRows, hlog, List.drop_left, hstats, Nat.zero_add]
    exact hlog { d with stats := {}, subs := (d.subs.signingKey ρ.candidate).2 } rfl rfl _

end Statistics

/-! ### Runs -/

/-- **When nothing is sent after an address is given up on.** Along every run of rounds, from any
tables: after every round the log is silent about the subscribers given up, and the statistics count
each of them once, if and only if no round gives a subscriber up before its last row to be sent. -/
theorem silent_iff (cr : Crypto) (s : Subs) (p : Pacer) (rounds : List Round)
    (hclock : Always (Round.run cr) (fun d ρ => ρ.Clocked d) { subs := s, pacer := p } rounds) :
    Always (Round.run cr) (fun d ρ => Silent (ρ.run cr d).log ∧ Counted d (ρ.run cr d))
        { subs := s, pacer := p } rounds ↔
      Always (Round.run cr) (fun d ρ => ρ.Parted cr d) { subs := s, pacer := p } rounds := by
  have h₀ : Silent (Dispatcher.log { subs := s, pacer := p }) ∧
      Hushed { subs := s, pacer := p } :=
    ⟨.nil, fun e he => absurd he List.not_mem_nil⟩
  refine hclock.iff_of_inv (D := fun d ρ => ρ.Clocked d) h₀
    (fun d ρ (h : Silent d.log ∧ Hushed d) hc => ?_) fun d ρ h hc hp => ⟨?_, h.2.run ρ⟩
  · rw [and_iff_left (counted_run ρ)]
    exact silent_run_iff h.1 h.2 hc
  · exact (silent_run_iff h.1 h.2 hc).mpr hp

instance (now sid : ℤ) (result : SendResult) (s : Subs) :
    Decidable (lastStraw now sid result s) := by
  rw [lastStraw]
  split <;> infer_instance

instance (cr : Crypto) (cfg : Config) (key : String) (now : ℤ) (envs : ℤ → SendEnv) (t : ℕ)
    (row : DueRow) : Decidable (Follows cr cfg key now envs t row) :=
  inferInstanceAs (Decidable (_ ∧ _ ∧ _))

instance (d : Dispatcher) (ρ : Round) : Decidable (ρ.Clocked d) :=
  inferInstanceAs (Decidable (List.Pairwise _ _))

instance (d d' : Dispatcher) : Decidable (Counted d d') :=
  decidable_of_iff (_ ∧ _) ⟨fun h => ⟨h.1, h.2⟩, fun h => ⟨h.1, h.2⟩⟩

/-- A reader whose mail server refused nine messages since time 0. -/
def refused : Subscriber where
  id := 1
  channel := .email
  address := "reader@example.org"
  allComponents := true
  maintenance := true
  status := .active
  confirmHash := none
  confirmExpires := none
  unsubHash := sampleCrypto.tokenHash (unsubscribeToken sampleCrypto sampleKey 1 0)
  createdAt := 0
  confirmedAt := some 0
  failureWindowStart := some 0
  failuresInWindow := 9
  quarantinedAt := none

/-- The reader is about to be sent `n` messages. -/
def refusedSubs (n : ℕ) : Subs :=
  let event := SubscriberEvent.incidentOpened
    ⟨1, "Slow", "", "All components", "degraded", "investigating", "Looking into it.", none⟩
  let s : Subs := { Subs.empty with
    subscribers := Table.empty.insert (fun id => { refused with id := id }) fun _ => rfl
    key := some sampleKey
    distinct := List.pairwise_singleton _ _ }
  n.repeat (·.fanOut event 60) s

/-- A round at time 60 in which the mail server refuses everything for good, a message a second. -/
def refusing : Round where
  cfg := sampleConfig
  names := [.email]
  candidate := sampleKey
  now := 60
  envs id :=
    { readyAt := id.toNat * 1000000000
      waitAt := id.toNat * 1000000000
      doneAt := id.toNat * 1000000000 + 5000000
      result := .err .permanent "550 no such user" }

/-- One message is due: the tenth refusal is the last thing that happens to the reader. -/
theorem silent_once :
    Always (Round.run sampleCrypto)
        (fun d ρ => Silent (ρ.run sampleCrypto d).log ∧ Counted d (ρ.run sampleCrypto d))
        { subs := refusedSubs 1, pacer := {} } [refusing, refusing] ↔
      Always (Round.run sampleCrypto) (fun d ρ => ρ.Parted sampleCrypto d)
        { subs := refusedSubs 1, pacer := {} } [refusing, refusing] :=
  silent_iff sampleCrypto (refusedSubs 1) {} [refusing, refusing] (by decide)

/-- **A quarantined subscriber is sent to**: two messages are due, the tenth refusal quarantines the
reader at the first, and the second is handed to the mail server all the same. -/
theorem sent_after_quarantine :
    Always (Round.run sampleCrypto) (fun d ρ => ρ.Clocked d)
        { subs := refusedSubs 2, pacer := {} } [refusing] ∧
      ¬Always (Round.run sampleCrypto)
        (fun d ρ => Silent (ρ.run sampleCrypto d).log ∧ Counted d (ρ.run sampleCrypto d))
        { subs := refusedSubs 2, pacer := {} } [refusing] := by
  decide

end Dunlin

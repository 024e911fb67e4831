import Dunlin.Lib.Numeral
import Dunlin.Lib.Prog
import Dunlin.Lib.Run
import Dunlin.LocalTimes

/-!
# The daily summary

The model of `should_send` in `summary.rs` and of one round of `summary_loop` in `app.rs`, with
`parse_hhmm` of `config.rs`. The loop keeps nothing in memory: what it knows is the date in the row
`last_summary`, which it reads before and writes after the message goes out. Both errors are
swallowed. A process that is killed after the message leaves what a failed write leaves. What the
message says is left out.

For one date only the polls that are due on it matter. `record` is what each of them does to the
number of messages sent and to whether the date is on record, and `tally_inv` that the loop does no
more and no less, as long as the local date does not go back.

## Main results

* `step_poll` — a poll, by whether it is due and what it can read and write
* `foldl_record_eq_iff` — when one message goes out for a list of polls
* `tallied_run` — the loop does for each date what `record` says
* `summary_once_iff` — one summary per local day, for every run of polls and restarts
* `sent_twice` — two on one day, after a write that failed
-/

namespace Dunlin

open Lib

/-- `[summary]`. -/
structure SummaryConfig where
  /-- Wall-clock time, `HH:MM`. -/
  time : String
  deriving DecidableEq, Repr

/-- Parse `HH:MM` into hour and minute. -/
def parseHhmm (s : String) : Option (ℕ × ℕ) :=
  match s.toList.dropWhile (· ≠ ':') with
  | [] => none
  | _ :: rest =>
    match parseUnsigned (2 ^ 32) (s.toList.takeWhile (· ≠ ':')), parseUnsigned (2 ^ 32) rest with
    | some h, some m => if h < 24 ∧ m < 60 then some (h, m) else none
    | _, _ => none

/-- The local date at an instant. -/
def Zone.date (z : Zone) (now : ℤ) : ℤ := z.wall now / 86400

/-- The minute of the local day at an instant. -/
def Zone.minuteOfDay (z : Zone) (now : ℤ) : ℤ := z.wall now % 86400 / 60

/-- The date to send for, or `none` when it is not yet due or was already sent that day. -/
def shouldSend (summary : SummaryConfig) (z : Zone) (now : ℤ) (lastSent : Option ℤ) : Option ℤ :=
  match parseHhmm summary.time with
  | none => none
  | some (hour, minute) =>
    let today := z.date now
    if lastSent = some today then none
    else if z.minuteOfDay now ≥ hour * 60 + minute then some today
    else none

/-- The date on record, and the dates of the summaries sent so far. -/
structure Digest where
  lastSummary : Option ℤ
  sent : List ℤ
  deriving DecidableEq, Repr

namespace Digest

/-- Nothing on record, nothing sent. -/
def initial : Digest := ⟨none, []⟩

def send (date : ℤ) (s : Digest) : Digest := { s with sent := s.sent ++ [date] }

def setLastSummary (date : ℤ) (s : Digest) : Digest := { s with lastSummary := some date }

end Digest

/-- A round that knows the date on record, if there is one: send, and record the date. -/
def sendSummary (summary : SummaryConfig) (z : Zone) (now : ℤ) (lastSent : Option ℤ) :
    Prog Digest Unit :=
  match shouldSend summary z now lastSent with
  | none => pure ()
  | some date => do
    Prog.modify (Digest.send date)
    let _ ← (Prog.exec (Digest.setLastSummary date)).attempt

/-- One round of the loop. -/
def summaryRound (summary : SummaryConfig) (z : Zone) (now : ℤ) : Prog Digest Unit := do
  let last ← (Prog.query Digest.lastSummary).attempt
  sendSummary summary z now last.join

/-- A round at a time, with the statements that fail. -/
structure Poll where
  now : ℤ
  faults : List Bool
  deriving DecidableEq, Repr

namespace Poll

/-- The date on record can be read. -/
def getOk (p : Poll) : Bool := p.faults.head? ≠ some true

/-- The new date can be written. -/
def setOk (p : Poll) : Bool := p.faults.tail.head? ≠ some true

/-- The time of the summary has come. -/
def due (summary : SummaryConfig) (z : Zone) (p : Poll) : Bool :=
  (parseHhmm summary.time).any fun hm => hm.1 * 60 + hm.2 ≤ z.minuteOfDay p.now

/-- The time of the summary has come on a date. -/
def dueOn (summary : SummaryConfig) (z : Zone) (date : ℤ) (p : Poll) : Bool :=
  z.date p.now == date && p.due summary z

end Poll

/-- What happens: a round, or a new process. -/
inductive SummaryOp
  | poll (p : Poll)
  | restart
  deriving DecidableEq, Repr

namespace SummaryOp

def step (summary : SummaryConfig) (z : Zone) (s : Digest) : SummaryOp → Digest
  | .poll p => ((summaryRound summary z p.now).run p.faults s).state
  | .restart => s

/-- The rounds of a run. -/
def polls (ops : List SummaryOp) : List Poll :=
  ops.filterMap fun
    | .poll p => some p
    | .restart => none

end SummaryOp

/-! ### One round -/

section Round

variable {summary : SummaryConfig} {z : Zone} {s : Digest} {p : Poll}

theorem shouldSend_eq (summary : SummaryConfig) (z : Zone) (p : Poll) (last : Option ℤ) :
    shouldSend summary z p.now last =
      if p.due summary z = true ∧ last ≠ some (z.date p.now) then some (z.date p.now)
      else none := by
  rw [shouldSend, Poll.due]
  cases parseHhmm summary.time with
  | none => rfl
  | some hm =>
    dsimp only [Option.any_some]
    by_cases hlast : last = some (z.date p.now)
    · rw [if_pos hlast, if_neg fun h => h.2 hlast]
    · rw [if_neg hlast]
      simp [hlast]

theorem state_sendSummary (summary : SummaryConfig) (z : Zone) (s : Digest) (p : Poll)
    (last : Option ℤ) (faults : List Bool) :
    ((sendSummary summary z p.now last).run faults s).state =
      if p.due summary z = true ∧ last ≠ some (z.date p.now) then
        { lastSummary := if faults.head? = some true then s.lastSummary else some (z.date p.now)
          sent := s.sent ++ [z.date p.now] }
      else s := by
  rw [sendSummary, shouldSend_eq]
  by_cases h : p.due summary z = true ∧ last ≠ some (z.date p.now)
  · rw [if_pos h, if_pos h]
    by_cases hfault : faults.head? = some true
    · simp [Prog.modify, Prog.exec, Prog.attempt, Prog.bind, Prog.run, hfault, Digest.send]
    · simp [Prog.modify, Prog.exec, Prog.attempt, Prog.bind, Prog.run, hfault, Digest.send,
        Digest.setLastSummary]
  · rw [if_neg h, if_neg h]
    rfl

/-- A round sends, unless it is too early or reads that the date is on record. -/
theorem step_poll (summary : SummaryConfig) (z : Zone) (s : Digest) (p : Poll) :
    SummaryOp.step summary z s (.poll p) =
      if p.due summary z = true ∧ ¬(s.lastSummary = some (z.date p.now) ∧ p.getOk = true) then
        { lastSummary := if p.setOk then some (z.date p.now) else s.lastSummary
          sent := s.sent ++ [z.date p.now] }
      else s := by
  have hrun : SummaryOp.step summary z s (.poll p) = ((sendSummary summary z p.now
      (if p.getOk then s.lastSummary else none)).run p.faults.tail s).state := by
    rw [SummaryOp.step, summaryRound, Poll.getOk]
    by_cases hget : p.faults.head? = some true
    · simp [Prog.query, Prog.attempt, Prog.bind, Prog.run, hget]
    · simp [Prog.query, Prog.attempt, Prog.bind, Prog.run, hget]
  rw [hrun, state_sendSummary]
  cases hget : p.getOk <;> by_cases hset : p.faults.tail.head? = some true <;>
    simp [Poll.setOk, hset]

end Round

/-! ### The polls of a date -/

/-- What a poll that is due does to the number of summaries sent for its date and to whether the
date is on record. -/
def record (c : ℕ × Bool) (p : Poll) : ℕ × Bool :=
  if c.2 && p.getOk then c else (c.1 + 1, c.2 || p.setOk)

/-- The polls of a run that are due on a date. -/
def duePolls (summary : SummaryConfig) (z : Zone) (date : ℤ) (ops : List SummaryOp) : List Poll :=
  (SummaryOp.polls ops).filter (·.dueOn summary z date)

def tally (summary : SummaryConfig) (z : Zone) (date : ℤ) (ops : List SummaryOp) : ℕ × Bool :=
  (duePolls summary z date ops).foldl record (0, false)

theorem le_foldl_record (polls : List Poll) (c : ℕ × Bool) : c.1 ≤ (polls.foldl record c).1 := by
  induction polls generalizing c with
  | nil => exact le_rfl
  | cons p polls ih =>
    refine le_trans ?_ (ih (record c p))
    rw [record]
    split
    · exact le_rfl
    · exact Nat.le_succ _

/-- Nothing more is sent for a date exactly if it is on record and every poll reads that. -/
theorem foldl_record_eq_iff (polls : List Poll) (c : ℕ × Bool) :
    (polls.foldl record c).1 = c.1 ↔ polls = [] ∨ c.2 = true ∧ ∀ p ∈ polls, p.getOk = true := by
  induction polls generalizing c with
  | nil => simp
  | cons p polls ih =>
    rw [List.foldl_cons]
    by_cases hread : (c.2 && p.getOk) = true
    · have hsame : record c p = c := if_pos hread
      obtain ⟨hrecorded, hget⟩ := Bool.and_eq_true_iff.mp hread
      rw [hsame, ih]
      refine ⟨fun h => .inr ⟨hrecorded, ?_⟩, fun h => ?_⟩
      · rcases h with rfl | ⟨-, hall⟩
        · exact List.forall_mem_singleton.mpr hget
        · exact List.forall_mem_cons.mpr ⟨hget, hall⟩
      · rcases h with hnil | ⟨-, hall⟩
        · exact absurd hnil (List.cons_ne_nil _ _)
        · exact .inr ⟨hrecorded, (List.forall_mem_cons.mp hall).2⟩
    · have hmore : record c p = (c.1 + 1, c.2 || p.setOk) := if_neg hread
      have hle := le_foldl_record polls (record c p)
      rw [hmore] at hle ⊢
      refine iff_of_false (fun heq => ?_) ?_
      · rw [heq] at hle
        exact absurd hle (Nat.not_succ_le_self _)
      · rintro (hnil | ⟨hrecorded, hall⟩)
        · exact absurd hnil (List.cons_ne_nil _ _)
        · exact hread (Bool.and_eq_true_iff.mpr ⟨hrecorded, hall p List.mem_cons_self⟩)

section Run

variable {summary : SummaryConfig} {z : Zone} {past : List SummaryOp} {p : Poll} {date : ℤ}

/-- The local dates of the polls do not go back. -/
def Forward (z : Zone) (ops : List SummaryOp) : Prop :=
  ((SummaryOp.polls ops).map fun p => z.date p.now).Pairwise (· ≤ ·)

instance (z : Zone) (ops : List SummaryOp) : Decidable (Forward z ops) :=
  inferInstanceAs (Decidable (List.Pairwise _ _))

/-- The state agrees with the tallies: of every date as to what was sent for it, and of the date
that the polls have come to as to the record. -/
structure Tallied (summary : SummaryConfig) (z : Zone) (past : List SummaryOp) (s : Digest) :
    Prop where
  sent : ∀ date, s.sent.count date = (tally summary z date past).1
  recorded : ∀ date, (∀ p ∈ SummaryOp.polls past, z.date p.now ≤ date) →
    (s.lastSummary = some date ↔ (tally summary z date past).2 = true)

theorem duePolls_snoc (summary : SummaryConfig) (z : Zone) (date : ℤ) (past : List SummaryOp)
    (p : Poll) : duePolls summary z date (past ++ [.poll p]) =
      if p.dueOn summary z date then duePolls summary z date past ++ [p]
      else duePolls summary z date past := by
  rw [duePolls, SummaryOp.polls, List.filterMap_append, List.filter_append]
  by_cases h : p.dueOn summary z date = true
  · simp [h, duePolls, SummaryOp.polls]
  · simp [h, duePolls, SummaryOp.polls]

theorem tally_snoc (summary : SummaryConfig) (z : Zone) (date : ℤ) (past : List SummaryOp)
    (p : Poll) : tally summary z date (past ++ [.poll p]) =
      if p.dueOn summary z date then record (tally summary z date past) p
      else tally summary z date past := by
  rw [tally, duePolls_snoc]
  split
  · rw [List.foldl_append]
    rfl
  · rfl

/-- A date that no poll has come to has no tally. -/
theorem tally_eq_of_lt (h : ∀ p ∈ SummaryOp.polls past, z.date p.now < date) :
    tally summary z date past = (0, false) := by
  have hnil : duePolls summary z date past = [] := by
    refine List.filter_eq_nil_iff.mpr fun p hp hdue => ?_
    have hdate := (Bool.and_eq_true_iff.mp hdue).1
    exact absurd (beq_iff_eq.mp hdate) (h p hp).ne
  rw [tally, hnil]
  rfl

theorem polls_snoc :
    SummaryOp.polls (past ++ [.poll p]) = SummaryOp.polls past ++ [p] := by
  rw [SummaryOp.polls, List.filterMap_append]
  rfl

/-- A poll that neither sends nor counts. -/
theorem Tallied.of_same {s : Digest} (h : Tallied summary z past s)
    (hsame : ∀ date, tally summary z date (past ++ [.poll p]) = tally summary z date past) :
    Tallied summary z (past ++ [.poll p]) s := by
  refine ⟨fun date => ?_, fun date hdates => ?_⟩
  · rw [hsame]
    exact h.sent date
  · rw [hsame]
    exact h.recorded date fun q hq => hdates q (polls_snoc ▸ List.mem_append_left _ hq)

theorem dueOn_iff (hdue : p.due summary z = true) (date : ℤ) :
    p.dueOn summary z date = true ↔ z.date p.now = date := by
  rw [Poll.dueOn, hdue, Bool.and_true, beq_iff_eq]

/-- A poll that is not due. -/
theorem Tallied.not_due {s : Digest} (h : Tallied summary z past s)
    (hdue : ¬p.due summary z = true) : Tallied summary z (past ++ [.poll p]) s := by
  refine h.of_same fun date => ?_
  have hnot : ¬p.dueOn summary z date = true := fun hon => hdue (Bool.and_eq_true_iff.mp hon).2
  rw [tally_snoc, if_neg hnot]

/-- A poll that reads its date on record. -/
theorem Tallied.reads {s : Digest} (h : Tallied summary z past s) (hdue : p.due summary z = true)
    (hrecorded : (tally summary z (z.date p.now) past).2 = true) (hget : p.getOk = true) :
    Tallied summary z (past ++ [.poll p]) s := by
  refine h.of_same fun date => ?_
  rw [tally_snoc]
  split
  · rename_i hon
    rw [← (dueOn_iff hdue date).mp hon, record,
      if_pos (Bool.and_eq_true_iff.mpr ⟨hrecorded, hget⟩)]
  · rfl

/-- A date that is still to come is not on record. -/
theorem Tallied.lastSummary_ne {s : Digest} (h : Tallied summary z past s) {date : ℤ}
    (hlt : ∀ q ∈ SummaryOp.polls past, z.date q.now < date) : s.lastSummary ≠ some date := by
  intro hlast
  have hrecorded := (h.recorded date fun q hq => (hlt q hq).le).mp hlast
  rw [tally_eq_of_lt hlt] at hrecorded
  exact absurd hrecorded Bool.false_ne_true

/-- A poll that sends. -/
theorem Tallied.sends {s : Digest} (h : Tallied summary z past s)
    (hbefore : ∀ q ∈ SummaryOp.polls past, z.date q.now ≤ z.date p.now)
    (hdue : p.due summary z = true)
    (hread : ¬((tally summary z (z.date p.now) past).2 = true ∧ p.getOk = true)) :
    Tallied summary z (past ++ [.poll p])
      { lastSummary := if p.setOk then some (z.date p.now) else s.lastSummary
        sent := s.sent ++ [z.date p.now] } := by
  have hrecord : record (tally summary z (z.date p.now) past) p =
      ((tally summary z (z.date p.now) past).1 + 1,
        (tally summary z (z.date p.now) past).2 || p.setOk) :=
    if_neg fun hand => hread (Bool.and_eq_true_iff.mp hand)
  refine ⟨fun date => ?_, fun date hdates => ?_⟩
  · rw [tally_snoc]
    dsimp only
    by_cases hdate : z.date p.now = date
    · rw [if_pos ((dueOn_iff hdue date).mpr hdate), ← hdate, hrecord, List.count_append, h.sent,
        List.count_singleton_self]
    · rw [if_neg fun hon => hdate ((dueOn_iff hdue date).mp hon), List.count_append, h.sent,
        List.count_singleton, if_neg (by simpa using hdate), Nat.add_zero]
  · rw [tally_snoc]
    dsimp only
    by_cases hdate : z.date p.now = date
    · subst hdate
      rw [if_pos ((dueOn_iff hdue _).mpr rfl), hrecord, Bool.or_eq_true,
        ← h.recorded (z.date p.now) hbefore]
      cases p.setOk with
      | true => simp
      | false => simp
    · -- a later date than the poll's has not been reached
      have hp := hdates p (polls_snoc ▸ List.mem_append_right _ (List.mem_singleton_self p))
      have hlt : ∀ q ∈ SummaryOp.polls past, z.date q.now < date :=
        fun q hq => (hbefore q hq).trans_lt (lt_of_le_of_ne hp hdate)
      rw [if_neg fun hon => hdate ((dueOn_iff hdue date).mp hon), tally_eq_of_lt hlt]
      cases p.setOk with
      | true => simpa using hdate
      | false => simpa using h.lastSummary_ne hlt

/-- **One poll**, of a date that none before it is past. -/
theorem Tallied.poll {s : Digest} (h : Tallied summary z past s)
    (hbefore : ∀ q ∈ SummaryOp.polls past, z.date q.now ≤ z.date p.now) :
    Tallied summary z (past ++ [.poll p]) (SummaryOp.step summary z s (.poll p)) := by
  have hrecorded := h.recorded (z.date p.now) hbefore
  rw [step_poll]
  by_cases hdue : p.due summary z = true
  · by_cases hread : s.lastSummary = some (z.date p.now) ∧ p.getOk = true
    · rw [if_neg fun hsends => hsends.2 hread]
      exact h.reads hdue (hrecorded.mp hread.1) hread.2
    · rw [if_pos ⟨hdue, hread⟩]
      exact h.sends hbefore hdue fun hand => hread (hand.imp_left hrecorded.mpr)
  · rw [if_neg fun hsends => hdue hsends.1]
    exact h.not_due hdue

/-- **A run.** -/
theorem tallied_run (ops : List SummaryOp) (hforward : Forward z ops) :
    Tallied summary z ops (Lib.run (SummaryOp.step summary z) .initial ops) := by
  induction ops using List.reverseRecOn with
  | nil =>
    refine ⟨fun _ => rfl, fun date _ => iff_of_false ?_ ?_⟩
    · exact fun h => by cases h
    · exact Bool.false_ne_true
  | append_singleton past op ih =>
    rw [run_append]
    cases op with
    | poll p =>
      rw [Forward, polls_snoc, List.map_append, List.pairwise_append] at hforward
      obtain ⟨hpast, -, hlast⟩ := hforward
      refine (ih hpast).poll fun q hq => ?_
      exact hlast _ (List.mem_map_of_mem hq) _ (List.mem_singleton_self _)
    | restart =>
      have hpolls : SummaryOp.polls (past ++ [.restart]) = SummaryOp.polls past := by
        rw [SummaryOp.polls, List.filterMap_append]
        exact List.append_nil _
      have htally : ∀ date,
          tally summary z date (past ++ [.restart]) = tally summary z date past := by
        intro date
        rw [tally, duePolls, hpolls]
        rfl
      rw [Forward, hpolls] at hforward
      obtain ⟨hsent, hrecorded⟩ := ih hforward
      refine ⟨fun date => ?_, fun date hdates => ?_⟩
      · rw [htally]
        exact hsent date
      · rw [htally]
        exact hrecorded date (hpolls ▸ hdates)

end Run

/-- **One summary per local day.** However reads and writes fail, a date with a poll that is due
gets one. It gets one only, exactly if no second poll is due on it, or the first of them gets the
date written and each later one gets it read. -/
theorem summary_once_iff (summary : SummaryConfig) (z : Zone) (ops : List SummaryOp)
    (hforward : Forward z ops) (date : ℤ) :
    let sent := (Lib.run (SummaryOp.step summary z) .initial ops).sent
    (sent.count date ≤ 1 ∧
        ((∃ p ∈ SummaryOp.polls ops, p.dueOn summary z date = true) → sent.count date = 1) ↔
      ∀ p rest, duePolls summary z date ops = p :: rest →
        rest = [] ∨ p.setOk = true ∧ ∀ q ∈ rest, q.getOk = true) ∧
    ((∃ p ∈ SummaryOp.polls ops, p.dueOn summary z date = true) → 1 ≤ sent.count date) := by
  intro sent
  have hcount : sent.count date = (tally summary z date ops).1 :=
    (tallied_run ops hforward).sent date
  have hdue : (∃ p ∈ SummaryOp.polls ops, p.dueOn summary z date = true) ↔
      duePolls summary z date ops ≠ [] := by
    rw [duePolls, ne_eq, List.filter_eq_nil_iff]
    simp
  rw [hcount, hdue, tally]
  cases duePolls summary z date ops with
  | nil => simp
  | cons p rest =>
    have hone : (p :: rest).foldl record (0, false) = rest.foldl record (1, p.setOk) := by
      simp [record]
    have hge := le_foldl_record rest (1, p.setOk)
    have honly := foldl_record_eq_iff rest (1, p.setOk)
    rw [hone]
    dsimp only at hge honly
    refine ⟨⟨fun h p' rest' heq => ?_, fun h => ?_⟩, fun _ => hge⟩
    · obtain ⟨rfl, rfl⟩ := List.cons.inj heq
      exact honly.mp (h.2 (List.cons_ne_nil _ _))
    · have heq := honly.mpr (h p rest rfl)
      exact ⟨heq.le, fun _ => heq⟩

def Zone.utc : Zone := ⟨fun _ => 0, fun _ => by decide⟩

/-- Two polls of one morning, a restart between them; the second cannot write the date again. -/
def morning : List SummaryOp :=
  [.poll ⟨32400, []⟩, .restart, .poll ⟨32460, [false, true]⟩]

theorem summary_once_morning :
    (Lib.run (SummaryOp.step ⟨"09:00"⟩ .utc) .initial morning).sent.count 0 = 1 := by
  have honce := summary_once_iff ⟨"09:00"⟩ .utc morning (by decide) 0
  refine (honce.1.mpr fun p rest heq => .inr ?_).2 ⟨⟨32400, []⟩, by decide, by decide +kernel⟩
  have hpolls : duePolls ⟨"09:00"⟩ .utc 0 morning = [⟨32400, []⟩, ⟨32460, [false, true]⟩] := by
    decide +kernel
  obtain ⟨rfl, rfl⟩ := List.cons.inj (hpolls.symm.trans heq)
  decide

/-- **A second summary on the same day**, after the date of the first could not be written. -/
theorem sent_twice :
    ¬∀ (summary : SummaryConfig) (z : Zone) (ops : List SummaryOp), Forward z ops → ∀ date,
      (Lib.run (SummaryOp.step summary z) .initial ops).sent.count date ≤ 1 := by
  intro h
  have hle := h ⟨"09:00"⟩ .utc [.poll ⟨32400, [false, true]⟩, .poll ⟨32460, []⟩] (by decide) 0
  exact absurd hle (by decide +kernel)

end Dunlin

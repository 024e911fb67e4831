import Dunlin.AlertRun
import Dunlin.Lib.Count

/-!
# The trace of a check's machine

`CheckMachine` counts as it goes. This file says what it answers in terms of the results it was fed:
a `Traced` machine keeps them, each with its transition, and has its `incidentId` set after each
`open`, as the engine does.

`machine_law` reads every transition off the history: how many failures or successes the results so
far end with, and when the last opening or reminder was. Openings and resolutions pair up in
`Paired` marks.

The counters are read off the history as long as they have not come round (`NoWrap`), and the times
are readings of one clock in seconds. `Recalls` is the invariant: the counters are those of the
results so far, and the machine's state is what the marks say.

## Main results

* `Recalls.step`, `Recalls.lawful` — one more result, and what it may answer
* `machine_law` — the law, for every sequence of results
-/

namespace Dunlin

open Lib

/-- A result, and the incident the engine would point the machine at if it opens one. -/
structure Fed where
  ok : Bool
  now : ℤ
  incidentId : ℤ
  deriving DecidableEq, Repr

/-- A machine and what it was fed. -/
structure Traced where
  machine : CheckMachine := {}
  trace : List (Fed × Transition) := []
  deriving DecidableEq, Repr

namespace Traced

/-- The answer to one more result. -/
def answer (check : CheckConfig) (t : Traced) (r : Fed) : Transition :=
  (t.machine.onResult check r.ok r.now).2

/-- The machine after one more result. -/
def advance (check : CheckConfig) (t : Traced) (r : Fed) : CheckMachine :=
  let m := (t.machine.onResult check r.ok r.now).1
  if t.answer check r = .open then { m with incidentId := some r.incidentId } else m

def step (check : CheckConfig) (t : Traced) (r : Fed) : Traced :=
  ⟨t.advance check r, t.trace ++ [(r, t.answer check r)]⟩

/-- The counter that a result raises is not at its end. -/
def NoWrap (t : Traced) (r : Fed) : Prop :=
  (if r.ok then t.machine.successes else t.machine.failures) + 1 < 2 ^ 32

instance (t : Traced) : DecidablePred t.NoWrap := fun _ => inferInstanceAs (Decidable (_ < _))

/-- The failures the results so far end with. -/
def failing (t : Traced) : ℕ := trailing (fun e => !e.1.ok) t.trace

/-- The successes the results so far end with. -/
def passing (t : Traced) : ℕ := trailing (fun e => e.1.ok) t.trace

end Traced

/-- An opening or a resolution in a trace. -/
inductive Mark
  | opened (id : ℤ)
  | resolved (id : ℤ)
  deriving DecidableEq, Repr

/-- The mark a result leaves: an opening with the incident set after it. -/
def markOf : Fed × Transition → Option Mark
  | (r, .open) => some (.opened r.incidentId)
  | (_, .resolve id) => some (.resolved id)
  | _ => none

/-- The openings and resolutions of a trace. -/
def Traced.marks (t : Traced) : List Mark := t.trace.filterMap markOf

/-- Marks that alternate, each resolution with the id of the opening before it. -/
def Paired : List Mark → Prop
  | [] | [.opened _] => True
  | .opened id :: .resolved id' :: marks => id = id' ∧ Paired marks
  | _ => False

/-- An opening or a reminder. -/
def Transition.tells : Transition → Bool
  | .open | .remind _ => true
  | _ => false

/-- When somebody was last told of the outage: the last opening or reminder. -/
def Traced.lastTold (t : Traced) : Option ℤ :=
  (t.trace.reverse.find? (·.2.tells)).map (·.1.now)

/-- What the answer to a result has to be. -/
structure LawfulAnswer (check : CheckConfig) (secs : ℕ) (t : Traced) (r : Fed) : Prop where
  opens : t.answer check r = .open ↔
    r.ok = false ∧ t.machine.state = .up ∧
      max check.failuresToOpen 1 ≤ (t.step check r).failing
  resolves : (∃ id, t.answer check r = .resolve id) ↔
    r.ok = true ∧ t.machine.state = .down ∧
      max check.successesToResolve 1 ≤ (t.step check r).passing
  reminds : (∃ id, t.answer check r = .remind id) ↔
    r.ok = false ∧ t.machine.state = .down ∧ ∃ told ∈ t.lastTold, secs ≤ r.now - told

/-! ### What one result does -/

namespace CheckMachine

variable {m : CheckMachine} {check : CheckConfig} {now : ℤ}

/-- A success that does not end an outage. -/
theorem onResult_passed (h : ¬m.recovers check true) :
    m.onResult check true now =
      ({ m with failures := 0, successes := bump m.successes }, .nothing) := by
  have hn : ¬(m.state = .down ∧ bump m.successes ≥ check.successesToResolve) :=
    fun hc => h ⟨rfl, hc.1, hc.2⟩
  simp [onResult, hn]

/-- A failure before an outage. -/
theorem onResult_missed (h : ¬m.opens check false) (hup : m.state = .up) :
    m.onResult check false now =
      ({ m with successes := 0, failures := bump m.failures }, .nothing) := by
  have hn : ¬bump m.failures ≥ check.failuresToOpen := fun hc => h ⟨rfl, hup, hc⟩
  simp [onResult, hup, hn]

/-- A failure during an outage for which nobody is due to be told. -/
theorem onResult_quiet (hdown : m.state = .down)
    (h : ¬m.lastReminder.all (now - · ≥ asI64 check.reminderInterval.asSecs) = true) :
    m.onResult check false now =
      ({ m with successes := 0, failures := bump m.failures }, .nothing) := by
  simp only [onResult, Bool.false_eq_true, ↓reduceIte, hdown, reduceCtorEq]
  rw [if_neg h]

/-- A failure during an outage for which somebody is due to be told. -/
theorem onResult_due {id : ℤ} (hdown : m.state = .down) (hid : m.incidentId = some id)
    (h : m.lastReminder.all (now - · ≥ asI64 check.reminderInterval.asSecs) = true) :
    m.onResult check false now =
      ({ m with successes := 0, failures := bump m.failures, lastReminder := some now },
        .remind id) := by
  simp only [onResult, Bool.false_eq_true, ↓reduceIte, hdown, reduceCtorEq]
  rw [if_pos h, hid]

end CheckMachine

theorem bump_of_lt {n : ℕ} (h : n + 1 < 2 ^ 32) : CheckMachine.bump n = n + 1 := Nat.mod_eq_of_lt h

/-! ### Marks -/

theorem Paired.append_opened (id : ℤ) : ∀ {marks : List Mark}, Paired marks →
    (∀ id', marks.getLast? ≠ some (.opened id')) → Paired (marks ++ [.opened id])
  | [], _, _ => trivial
  | [.opened id'], _, hlast => absurd rfl (hlast id')
  | .opened a :: .resolved b :: marks, h, hlast => by
    refine ⟨h.1, append_opened id h.2 fun id' hid' => hlast id' ?_⟩
    rw [List.getLast?_cons_cons, List.getLast?_cons, hid', Option.getD_some]
  | .opened _ :: .opened _ :: _, h, _ => h.elim
  | .resolved _ :: _, h, _ => h.elim

theorem Paired.append_resolved {id : ℤ} : ∀ {marks : List Mark}, Paired marks →
    marks.getLast? = some (.opened id) → Paired (marks ++ [.resolved id])
  | [], _, hlast => by cases hlast
  | [.opened id'], _, hlast => by
    cases hlast
    exact ⟨rfl, trivial⟩
  | .opened a :: .resolved b :: marks, h, hlast => by
    refine ⟨h.1, append_resolved h.2 ?_⟩
    rw [List.getLast?_cons_cons, List.getLast?_cons] at hlast
    cases hmarks : marks.getLast? with
    | none => simp [hmarks] at hlast
    | some mark => simpa [hmarks] using hlast
  | .opened _ :: .opened _ :: _, h, _ => h.elim
  | .resolved _ :: _, h, _ => h.elim

/-! ### The invariant -/

/-- What the machine knows of its trace. -/
structure Recalls (t : Traced) : Prop where
  failures : t.machine.failures = t.failing
  paired : Paired t.marks
  /-- While it is up, no opening waits for its resolution. -/
  up : t.machine.state = .up → ∀ id, t.marks.getLast? ≠ some (.opened id)
  /-- While it is down, the machine points at the incident of the last opening, -/
  down : t.machine.state = .down →
    ∃ id, t.machine.incidentId = some id ∧ t.marks.getLast? = some (.opened id)
  /-- counts the successes in a row, -/
  successes : t.machine.state = .down → t.machine.successes = t.passing
  /-- and remembers when somebody was last told. -/
  told : t.machine.state = .down →
    ∃ told, t.machine.lastReminder = some told ∧ t.lastTold = some told

section Step

section Trace

variable (check : CheckConfig) (t : Traced) (r : Fed)

theorem failing_step : (t.step check r).failing = if r.ok then 0 else t.failing + 1 := by
  rw [Traced.failing, Traced.step, trailing_append_singleton]
  cases r.ok <;> rfl

theorem passing_step : (t.step check r).passing = if r.ok then t.passing + 1 else 0 := by
  rw [Traced.passing, Traced.step, trailing_append_singleton]
  rfl

theorem marks_step :
    (t.step check r).marks = t.marks ++ (markOf (r, t.answer check r)).toList := by
  rw [Traced.marks, Traced.step, List.filterMap_append, List.filterMap_cons, List.filterMap_nil]
  cases markOf (r, t.answer check r) <;> rfl

theorem lastTold_step : (t.step check r).lastTold =
    if (t.answer check r).tells then some r.now else t.lastTold := by
  rw [Traced.lastTold, Traced.step, List.reverse_append, List.reverse_singleton,
    List.singleton_append, List.find?_cons]
  cases (t.answer check r).tells <;> rfl

end Trace

variable {check : CheckConfig} {secs : ℕ} {t : Traced} {r : Fed}

theorem recalls_initial : Recalls {} where
  failures := rfl
  paired := trivial
  up _ _ := by simp [Traced.marks]
  down h := by cases h
  successes h := by cases h
  told h := by cases h

/-- What a machine does with a result: each way with its answer and the machine it leaves. -/
inductive Answered (check : CheckConfig) (secs : ℕ) (m : CheckMachine) (r : Fed) :
    Transition → CheckMachine → Prop
  | passed (hok : r.ok = true)
      (hstay : m.state = .down → ¬check.successesToResolve ≤ CheckMachine.bump m.successes) :
      Answered check secs m r .nothing
        { m with failures := 0, successes := CheckMachine.bump m.successes }
  | recovered {id : ℤ} (hok : r.ok = true) (hdown : m.state = .down) (hid : m.incidentId = some id)
      (henough : check.successesToResolve ≤ CheckMachine.bump m.successes) :
      Answered check secs m r (.resolve id) {}
  | missed (hok : r.ok = false) (hup : m.state = .up)
      (hfew : ¬check.failuresToOpen ≤ CheckMachine.bump m.failures) :
      Answered check secs m r .nothing
        { m with successes := 0, failures := CheckMachine.bump m.failures }
  | opened (hok : r.ok = false) (hup : m.state = .up)
      (henough : check.failuresToOpen ≤ CheckMachine.bump m.failures) :
      Answered check secs m r .open
        { m with
          state := .down
          failures := CheckMachine.bump m.failures
          successes := 0
          lastReminder := some r.now
          incidentId := some r.incidentId }
  | quiet {told : ℤ} (hok : r.ok = false) (hdown : m.state = .down)
      (htold : m.lastReminder = some told) (hsoon : ¬secs ≤ r.now - told) :
      Answered check secs m r .nothing
        { m with successes := 0, failures := CheckMachine.bump m.failures }
  | reminded {told id : ℤ} (hok : r.ok = false) (hdown : m.state = .down)
      (htold : m.lastReminder = some told) (hid : m.incidentId = some id)
      (hdue : secs ≤ r.now - told) :
      Answered check secs m r (.remind id)
        { m with
          successes := 0
          failures := CheckMachine.bump m.failures
          lastReminder := some r.now }

theorem Recalls.answered (h : Recalls t) (hsecs : secs < 2 ^ 63)
    (hinterval : check.reminderInterval = .fromSecs secs) :
    Answered check secs t.machine r (t.answer check r) (t.advance check r) := by
  have hreminder : asI64 check.reminderInterval.asSecs = secs := by
    rw [hinterval, Duration.asSecs_fromSecs, asI64_of_lt hsecs]
  rw [Traced.advance, Traced.answer]
  cases hok : r.ok with
  | true =>
    by_cases hr : t.machine.recovers check true
    · obtain ⟨id, hid, -⟩ := h.down hr.2.1
      rw [CheckMachine.onResult_of_recovers hr, hid]
      exact .recovered hok hr.2.1 hid hr.2.2
    · rw [CheckMachine.onResult_passed hr]
      exact .passed hok fun hdown henough => hr ⟨rfl, hdown, henough⟩
  | false =>
    cases hstate : t.machine.state with
    | up =>
      by_cases ho : t.machine.opens check false
      · rw [CheckMachine.onResult_of_opens ho]
        exact .opened hok hstate ho.2.2
      · rw [CheckMachine.onResult_missed ho hstate]
        exact .missed hok hstate fun henough => ho ⟨rfl, hstate, henough⟩
    | down =>
      obtain ⟨id, hid, -⟩ := h.down hstate
      obtain ⟨told, htold, -⟩ := h.told hstate
      by_cases hdue : secs ≤ r.now - told
      · rw [CheckMachine.onResult_due hstate hid (by simpa [htold, hreminder] using hdue)]
        exact .reminded hok hstate htold hid hdue
      · rw [CheckMachine.onResult_quiet hstate (by simpa [htold, hreminder] using hdue)]
        exact .quiet hok hstate htold hdue

theorem NoWrap.bump (hwrap : t.NoWrap r) :
    (r.ok = true → CheckMachine.bump t.machine.successes = t.machine.successes + 1) ∧
      (r.ok = false → CheckMachine.bump t.machine.failures = t.machine.failures + 1) := by
  unfold Traced.NoWrap at hwrap
  constructor <;> intro hok <;> rw [hok] at hwrap <;> exact bump_of_lt hwrap

/-- A result that opens and resolves nothing leaves the machine with its state and its incident. -/
theorem Recalls.of_unmarked {t' : Traced} (h : Recalls t) (hmarks : t'.marks = t.marks)
    (hstate : t'.machine.state = t.machine.state)
    (hid : t'.machine.incidentId = t.machine.incidentId)
    (hfailures : t'.machine.failures = t'.failing)
    (hsuccesses : t.machine.state = .down → t'.machine.successes = t'.passing)
    (htold : t.machine.state = .down →
      ∃ told, t'.machine.lastReminder = some told ∧ t'.lastTold = some told) : Recalls t' where
  failures := hfailures
  paired := hmarks ▸ h.paired
  up hup := hmarks ▸ h.up (hstate ▸ hup)
  down hdown := by
    rw [hmarks, hid]
    exact h.down (hstate ▸ hdown)
  successes hdown := hsuccesses (hstate ▸ hdown)
  told hdown := htold (hstate ▸ hdown)

theorem Recalls.step (h : Recalls t) (hwrap : t.NoWrap r) (hsecs : secs < 2 ^ 63)
    (hinterval : check.reminderInterval = .fromSecs secs) : Recalls (t.step check r) := by
  have hanswered := h.answered (r := r) hsecs hinterval
  obtain ⟨hsucc, hfail⟩ := NoWrap.bump hwrap
  have hmachine : (t.step check r).machine = t.advance check r := rfl
  have hfailing := failing_step check t r
  have hpassing := passing_step check t r
  have hmarks := marks_step check t r
  have hlast := lastTold_step check t r
  generalize t.step check r = t' at *
  generalize t.answer check r = a at hanswered hmarks hlast
  generalize t.advance check r = m at hanswered hmachine
  have hmore : r.ok = false → CheckMachine.bump t.machine.failures = t'.failing := fun hok => by
    rw [hfailing, if_neg (by simp [hok]), ← h.failures, hfail hok]
  have hnone : r.ok = false → 0 = t'.passing := fun hok => by
    rw [hpassing, if_neg (by simp [hok])]
  cases hanswered with
  | passed hok hstay =>
    have hsame : t'.marks = t.marks := by simpa [markOf] using hmarks
    refine h.of_unmarked hsame ?_ ?_ ?_ (fun hdown => ?_) fun hdown => hlast ▸ ?_ <;> rw [hmachine]
    · rw [hfailing, if_pos hok]
    · rw [hpassing, if_pos hok, ← h.successes hdown, ← hsucc hok]
    · exact h.told hdown
  | recovered hok hdown hid henough =>
    obtain ⟨id', hid', hopened⟩ := h.down hdown
    rw [hid, Option.some.injEq] at hid'
    subst hid'
    have hnew : t'.marks = t.marks ++ [.resolved _] := hmarks
    refine ⟨?_, hnew ▸ h.paired.append_resolved hopened, ?_, ?_, ?_, ?_⟩ <;> rw [hmachine]
    · rw [hfailing, if_pos hok]
    · intro _ id'
      rw [hnew, List.getLast?_append]
      simp
    all_goals intro hstate; cases hstate
  | missed hok hup hfew =>
    have hsame : t'.marks = t.marks := by simpa [markOf] using hmarks
    have hnot : t.machine.state ≠ .down := fun hdown => by rw [hup] at hdown; cases hdown
    refine h.of_unmarked hsame ?_ ?_ ?_ (absurd · hnot) (absurd · hnot) <;> rw [hmachine]
    exact hmore hok
  | opened hok hup henough =>
    have hnew : t'.marks = t.marks ++ [.opened r.incidentId] := hmarks
    refine ⟨?_, hnew ▸ h.paired.append_opened _ (h.up hup), ?_, ?_, ?_, ?_⟩ <;> rw [hmachine]
    · exact hmore hok
    · intro hstate
      cases hstate
    · exact fun _ => ⟨_, rfl, by rw [hnew, List.getLast?_append]; rfl⟩
    · exact fun _ => hnone hok
    · exact fun _ => ⟨_, rfl, hlast⟩
  | quiet hok hdown htold hsoon =>
    have hsame : t'.marks = t.marks := by simpa [markOf] using hmarks
    refine h.of_unmarked hsame ?_ ?_ ?_ (fun _ => ?_) (fun hdown => hlast ▸ ?_) <;> rw [hmachine]
    · exact hmore hok
    · exact hnone hok
    · exact h.told hdown
  | reminded hok hdown htold hid hdue =>
    have hsame : t'.marks = t.marks := by simpa [markOf] using hmarks
    refine h.of_unmarked hsame ?_ ?_ ?_ (fun _ => ?_) (fun _ => ⟨_, ?_, hlast⟩) <;> rw [hmachine]
    · exact hmore hok
    · exact hnone hok

theorem Recalls.lawful (h : Recalls t) (hwrap : t.NoWrap r) (hsecs : secs < 2 ^ 63)
    (hinterval : check.reminderInterval = .fromSecs secs) : LawfulAnswer check secs t r := by
  have hanswered := h.answered (r := r) hsecs hinterval
  obtain ⟨hsucc, hfail⟩ := NoWrap.bump hwrap
  have hfailing := failing_step check t r
  have hpassing := passing_step check t r
  have hopens : r.ok = false → (check.failuresToOpen ≤ CheckMachine.bump t.machine.failures ↔
      max check.failuresToOpen 1 ≤ (t.step check r).failing) := fun hok => by
    rw [hfailing, if_neg (by simp [hok]), hfail hok, h.failures]
    omega
  have hresolves : r.ok = true → t.machine.state = .down →
      (check.successesToResolve ≤ CheckMachine.bump t.machine.successes ↔
        max check.successesToResolve 1 ≤ (t.step check r).passing) := fun hok hdown => by
    rw [hpassing, if_pos hok, hsucc hok, h.successes hdown]
    omega
  have hreminds : ∀ told, t.machine.lastReminder = some told → t.machine.state = .down →
      ((∃ told ∈ t.lastTold, secs ≤ r.now - told) ↔ secs ≤ r.now - told) := by
    intro told htold hdown
    obtain ⟨told', hreminder, hlast⟩ := h.told hdown
    rw [htold, Option.some.injEq] at hreminder
    subst hreminder
    simp [hlast]
  generalize t.advance check r = m at hanswered
  generalize ha : t.answer check r = a at hanswered
  cases hanswered with
  | passed hok hstay =>
    refine ⟨by simp [ha, hok], ?_, by simp [ha, hok]⟩
    refine ⟨by simp [ha], fun ⟨_, hdown, hn⟩ => ?_⟩
    exact absurd ((hresolves hok hdown).mpr hn) (hstay hdown)
  | recovered hok hdown hid henough =>
    refine ⟨by simp [ha, hok], ?_, by simp [ha, hok]⟩
    exact ⟨fun _ => ⟨hok, hdown, (hresolves hok hdown).mp henough⟩, fun _ => ⟨_, ha⟩⟩
  | missed hok hup hfew =>
    refine ⟨?_, by simp [ha, hok], by simp [ha, hup]⟩
    exact ⟨by simp [ha], fun ⟨_, _, hn⟩ => absurd ((hopens hok).mpr hn) hfew⟩
  | opened hok hup henough =>
    refine ⟨?_, by simp [ha, hok], by simp [ha, hup]⟩
    exact ⟨fun _ => ⟨hok, hup, (hopens hok).mp henough⟩, fun _ => ha⟩
  | quiet hok hdown htold hsoon =>
    refine ⟨by simp [ha, hdown], by simp [ha, hok], ?_⟩
    refine ⟨by simp [ha], fun ⟨_, _, hdue⟩ => ?_⟩
    exact absurd ((hreminds _ htold hdown).mp hdue) hsoon
  | reminded hok hdown htold hid hdue =>
    refine ⟨by simp [ha, hdown], by simp [ha, hok], ?_⟩
    exact ⟨fun _ => ⟨hok, hdown, (hreminds _ htold hdown).mpr hdue⟩, fun _ => ⟨_, ha⟩⟩

end Step

/-- **The law of the machine.** Fed any results from the start, its counters never at their end, it
opens exactly at a failure while up that makes enough failures in a row, resolves exactly at a
success while down that makes enough successes in a row, and reminds exactly at a failure while
down when the last opening or reminder is long enough ago. Openings and resolutions alternate, and a
resolution carries the incident of its opening. -/
theorem machine_law (check : CheckConfig) (secs : ℕ) (hsecs : secs < 2 ^ 63)
    (hinterval : check.reminderInterval = .fromSecs secs) (results : List Fed)
    (hwrap : Always (Traced.step check) Traced.NoWrap {} results) :
    Always (Traced.step check) (LawfulAnswer check secs) {} results ∧
      Paired (run (Traced.step check) {} results).marks := by
  have hstep : ∀ t r, Recalls t → t.NoWrap r → Recalls (t.step check r) :=
    fun t r h hr => h.step hr hsecs hinterval
  refine ⟨hwrap.of_inv recalls_initial hstep fun t r h hr => h.lawful hr hsecs hinterval, ?_⟩
  exact (hwrap.run_inv recalls_initial hstep).paired

/-- Two failures open an incident, a third one reminds, and two successes resolve it. -/
def flapping : List Fed :=
  [⟨false, 0, 7⟩, ⟨false, 10, 7⟩, ⟨false, 20, 8⟩, ⟨true, 30, 8⟩, ⟨true, 40, 8⟩]

def flappingCheck : CheckConfig where
  id := "web"
  name := "Web"
  failuresToOpen := 2
  successesToResolve := 2
  reminderInterval := .fromSecs 10

theorem machine_law_flapping :
    (run (Traced.step flappingCheck) {} flapping).marks = [.opened 7, .resolved 7] ∧
      Always (Traced.step flappingCheck) (LawfulAnswer flappingCheck 10) {} flapping :=
  ⟨by decide, (machine_law flappingCheck 10 (by decide) rfl flapping (by decide)).1⟩

end Dunlin

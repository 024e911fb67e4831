import Dunlin.Lib.Count
import Dunlin.Lib.Keyed
import Dunlin.Lib.Run

/-!
# The login limiter

The model of `LoginLimiter` in `web_auth.rs` and of what `login_submit` does with it. Each method of
the limiter holds its lock throughout, so it is one step. A request takes three: it asks whether its
address is blocked, it verifies the password, and it records what came of that. Between them other
requests run.

The time of a request is the `now` it reads at its start, which is also what it is counted under.

What the limiter allows for is the requests that are past its question and have not been counted
yet. `Roomy` says that a step leaves room for them; with it, the failures that the limiter knows and
those under way stay within the limit together (`Accounted`).

## Main results

* `Accounted.limit` — no more than the limit, counted and under way
* `accounted_step` — every step that leaves room keeps the account
* `login_limited` — the limit, for every schedule of such steps
* `six_guesses` — a schedule with one guess too many, where a step leaves no room
-/

namespace Dunlin

open Lib

def maxFailures : ℕ := 5

def windowSecs : ℤ := 15 * 60

/-- Map size at which expired entries of every address are dropped. -/
def sweepAt : ℕ := 1024

/-- Per-IP login failure tracking. -/
structure LoginLimiter where
  failures : Keyed String (List ℤ)
  max : ℕ
  window : ℤ

namespace LoginLimiter

def withLimits (max : ℕ) (window : ℤ) : LoginLimiter := ⟨.empty, max, window⟩

/-- `LoginLimiter::default`. -/
def default : LoginLimiter := withLimits maxFailures windowSecs

/-- What is left of an entry once the expired times are dropped. -/
def kept (l : LoginLimiter) (now : ℤ) (times : List ℤ) : List ℤ :=
  times.filter fun t => now - t < l.window

/-- Whether an address is blocked. Read-only for addresses without failures. -/
def isBlocked (l : LoginLimiter) (ip : String) (now : ℤ) : Bool × LoginLimiter :=
  match l.failures.get? ip with
  | none => (false, l)
  | some entry =>
    let entry := l.kept now entry
    let failures :=
      if entry.isEmpty then l.failures.delete fun k _ => k == ip
      else l.failures.upsert ip fun _ => entry
    (decide (entry.length ≥ l.max), { l with failures := failures })

/-- The entries of every address, with the expired times dropped. -/
def swept (l : LoginLimiter) (now : ℤ) : Keyed String (List ℤ) :=
  if l.failures.rows.length ≥ sweepAt then
    l.failures.retain fun times =>
      let times := l.kept now times
      if times.isEmpty then none else some times
  else l.failures

def recordFailure (l : LoginLimiter) (ip : String) (now : ℤ) : LoginLimiter :=
  { l with failures := (l.swept now).upsert ip fun entry => l.kept now (entry.getD []) ++ [now] }

def recordSuccess (l : LoginLimiter) (ip : String) : LoginLimiter :=
  { l with failures := l.failures.delete fun k _ => k == ip }

/-- The failures recorded for an address. -/
def times (l : LoginLimiter) (ip : String) : List ℤ := (l.failures.get? ip).getD []

end LoginLimiter

/-! ### Requests -/

/-- How far a login request has got. -/
inductive Phase
  /-- Let through by `is_blocked`. -/
  | admitted
  /-- The password has been verified: whether it was right. -/
  | verified (right : Bool)
  /-- The limiter knows. -/
  | recorded (right : Bool)
  deriving DecidableEq, Repr

/-- Whether the password was right, once it has been verified. -/
def Phase.right : Phase → Option Bool
  | .admitted => none
  | .verified right | .recorded right => some right

/-- The limiter still waits for the request. -/
def Phase.inFlight : Phase → Bool
  | .recorded _ => false
  | _ => true

/-- A login request that was let through. -/
structure Attempt where
  ip : String
  now : ℤ
  phase : Phase
  deriving DecidableEq, Repr

/-- The limiter, and the requests let through so far. -/
structure Logins where
  limiter : LoginLimiter
  attempts : List Attempt
  /-- When a request last asked. -/
  clock : ℤ

/-- A step of some request; a request let through is known by its place in `attempts`. -/
inductive LoginStep
  | isBlocked (ip : String) (now : ℤ)
  | verifyPassword (i : ℕ) (right : Bool)
  | record (i : ℕ)
  deriving DecidableEq, Repr

namespace Logins

/-- No request yet. -/
def initial : Logins := ⟨.default, [], 0⟩

/-- The request gets to another phase. -/
def toPhase (s : Logins) (i : ℕ) (r : Attempt) (phase : Phase) : Logins :=
  { s with attempts := s.attempts.set i { r with phase := phase } }

/-- One step of a request. A step whose request is not where the step belongs does not happen. -/
def step (s : Logins) : LoginStep → Logins
  | .isBlocked ip now =>
    let (blocked, limiter) := s.limiter.isBlocked ip now
    { limiter := limiter
      attempts := if blocked then s.attempts else s.attempts ++ [⟨ip, now, .admitted⟩]
      clock := now }
  | .verifyPassword i right =>
    match s.attempts[i]? with
    | some r => if r.phase = .admitted then s.toPhase i r (.verified right) else s
    | none => s
  | .record i =>
    match s.attempts[i]? with
    | some r =>
      match r.phase with
      | .verified true =>
        { s.toPhase i r (.recorded true) with limiter := s.limiter.recordSuccess r.ip }
      | .verified false =>
        { s.toPhase i r (.recorded false) with limiter := s.limiter.recordFailure r.ip r.now }
      | _ => s
    | none => s

/-- The requests from an address that the limiter waits for. -/
def inFlight (s : Logins) (ip : String) : List Attempt :=
  s.attempts.filter fun r => r.ip == ip && r.phase.inFlight

/-- The failures of an address that still count. -/
def live (s : Logins) (ip : String) (now : ℤ) : List ℤ := s.limiter.kept now (s.limiter.times ip)

end Logins

/-- A request from the address, of the span of `windowSecs` from `a` on. -/
def Attempt.Within (ip : String) (a : ℤ) (r : Attempt) : Prop :=
  r.ip = ip ∧ a ≤ r.now ∧ r.now < a + windowSecs

instance (ip : String) (a : ℤ) : DecidablePred (Attempt.Within ip a) :=
  fun _ => inferInstanceAs (Decidable (_ ∧ _))

/-- In a span without a successful login, few wrong passwords are verified. -/
def Logins.Limited (s : Logins) (ip : String) : Prop :=
  ∀ a, (∀ r ∈ s.attempts, r.Within ip a → r.phase.right ≠ some true) →
    s.attempts.countP (fun r => decide (r.Within ip a) && r.phase.right == some false) ≤ maxFailures

/-- The step keeps to what the limiter counts on. Requests ask in the order of their times. One that
is let through while others of its address are in flight leaves room for all of them to fail. A
successful login clears no failure newer than itself. -/
def Roomy (s : Logins) : LoginStep → Prop
  | .isBlocked ip now => s.clock ≤ now ∧
      ((s.limiter.isBlocked ip now).1 = true ∨ s.inFlight ip = [] ∨
        (s.live ip now).length + (s.inFlight ip).length < maxFailures)
  | .verifyPassword .. => True
  | .record i => ∀ r ∈ s.attempts[i]?, r.phase = .verified true →
      ∀ t ∈ s.limiter.times r.ip, t ≤ r.now

instance (s : Logins) : DecidablePred (Roomy s)
  | .isBlocked .. => inferInstanceAs (Decidable (_ ∧ _))
  | .verifyPassword .. => isTrue trivial
  | .record i => inferInstanceAs (Decidable (∀ r ∈ s.attempts[i]?, _ → _))

/-! ### What the limiter has counted -/

namespace LoginLimiter

variable {l : LoginLimiter} {ip ip' : String} {now a : ℤ}

theorem times_of_get? {times : List ℤ} (h : l.failures.get? ip = some times) :
    l.times ip = times := by
  rw [LoginLimiter.times, h, Option.getD_some]

/-- Dropping expired times drops none of the current span. -/
theorem countP_kept (times : List ℤ) (h : now < a + l.window) :
    (l.kept now times).countP (a ≤ ·) = times.countP (a ≤ ·) := by
  rw [kept, List.countP_filter]
  refine List.countP_congr fun t _ => ?_
  simp only [Bool.and_eq_true, decide_eq_true_eq]
  omega

theorem times_isBlocked : (l.isBlocked ip now).2.times ip' =
    if ip' = ip then l.kept now (l.times ip) else l.times ip' := by
  rw [isBlocked]
  cases hget : l.failures.get? ip with
  | none =>
    dsimp only
    have hnone : l.times ip = [] := by rw [times, hget, Option.getD_none]
    by_cases heq : ip' = ip
    · rw [if_pos heq, heq, hnone]
      rfl
    · rw [if_neg heq]
  | some entry =>
    rw [times_of_get? hget]
    dsimp only [times]
    by_cases heq : ip' = ip
    · rw [if_pos heq]
      split
      · rename_i hempty
        rw [Keyed.get?_delete, if_pos (beq_iff_eq.mpr heq), List.isEmpty_iff.mp hempty,
          Option.getD_none]
      · rw [Keyed.get?_upsert, if_pos heq, Option.getD_some]
    · rw [if_neg heq]
      split
      · rw [Keyed.get?_delete, if_neg (by simpa using heq)]
      · rw [Keyed.get?_upsert, if_neg heq]

/-- An address that is let through has few failures. -/
theorem length_lt_of_not_isBlocked (hmax : 0 < l.max) (h : (l.isBlocked ip now).1 = false) :
    (l.kept now (l.times ip)).length < l.max := by
  unfold isBlocked at h
  cases hget : l.failures.get? ip with
  | none => rwa [times, hget, Option.getD_none]
  | some entry =>
    rw [hget] at h
    rw [times_of_get? hget]
    simpa using h

theorem countP_times_isBlocked (h : now < a + l.window) :
    ((l.isBlocked ip now).2.times ip').countP (a ≤ ·) = (l.times ip').countP (a ≤ ·) := by
  rw [times_isBlocked]
  split
  · rename_i heq
    rw [countP_kept _ h, heq]
  · rfl

/-- A sweep leaves an entry as it is, or what still counts of it. -/
theorem get?_swept :
    ((l.swept now).get? ip).getD [] = l.kept now (l.times ip) ∨
      ((l.swept now).get? ip).getD [] = l.times ip := by
  rw [swept]
  split
  · refine .inl ?_
    rw [Keyed.get?_retain, times]
    cases l.failures.get? ip with
    | none => rfl
    | some entry =>
      rw [Option.bind_some, Option.getD_some]
      dsimp only
      split
      · rename_i hempty
        exact (List.isEmpty_iff.mp hempty).symm
      · rfl
  · exact .inr rfl

theorem countP_swept (h : now < a + l.window) :
    (((l.swept now).get? ip).getD []).countP (a ≤ ·) = (l.times ip).countP (a ≤ ·) := by
  rcases l.get?_swept with hswept | hswept <;> rw [hswept]
  exact countP_kept _ h

theorem countP_times_recordFailure (h : now < a + l.window) :
    ((l.recordFailure ip now).times ip').countP (a ≤ ·) =
      (l.times ip').countP (a ≤ ·) + if ip' = ip ∧ a ≤ now then 1 else 0 := by
  rw [recordFailure, times, Keyed.get?_upsert]
  by_cases heq : ip' = ip
  · subst heq
    rw [if_pos rfl, Option.getD_some, List.countP_append, countP_kept _ h, countP_swept h]
    simp [List.countP_cons]
  · rw [if_neg heq, countP_swept h, if_neg fun hc => heq hc.1]
    rfl

theorem times_recordSuccess :
    (l.recordSuccess ip).times ip' = if ip' = ip then [] else l.times ip' := by
  rw [recordSuccess, times, Keyed.get?_delete]
  by_cases heq : ip' = ip
  · rw [if_pos (beq_iff_eq.mpr heq), if_pos heq]
    rfl
  · rw [if_neg (by simpa using heq), if_neg heq]
    rfl

end LoginLimiter

/-! ### The invariant -/

/-- A failure the limiter has been told of, from `a` on. -/
def Attempt.failedSince (ip : String) (a : ℤ) (r : Attempt) : Bool :=
  r.ip == ip && r.phase == .recorded false && decide (a ≤ r.now)

/-- A request of the span that has not had the right password. -/
def Attempt.unproven (ip : String) (a : ℤ) (r : Attempt) : Bool :=
  decide (r.Within ip a) && r.phase.right != some true

/-- What the limiter knows about an address accounts for the requests let through. -/
structure Accounted (ip : String) (s : Logins) : Prop where
  max : s.limiter.max = maxFailures
  window : s.limiter.window = windowSecs
  past : ∀ r ∈ s.attempts, r.now ≤ s.clock
  /-- The failures of the current span, since the last successful login, are still counted. -/
  counted : ∀ a, s.clock < a + windowSecs →
    (∀ r ∈ s.attempts, r.ip = ip → r.phase.right = some true → r.now < a) →
    s.attempts.countP (Attempt.failedSince ip a) ≤ (s.limiter.times ip).countP (a ≤ ·)
  limited : ∀ a, (∀ r ∈ s.attempts, r.Within ip a → r.phase.right ≠ some true) →
    s.attempts.countP (Attempt.unproven ip a) ≤ maxFailures

section Step

variable {s : Logins} {ip : String}

theorem Accounted.limit (h : Accounted ip s) : s.Limited ip := by
  intro a hnone
  refine Nat.le_trans (List.countP_mono_left fun r _ hr => ?_) (h.limited a hnone)
  simp only [Attempt.unproven, Bool.and_eq_true, beq_iff_eq, bne_iff_ne] at hr ⊢
  rw [hr.2]
  exact ⟨hr.1, by decide⟩

/-- Requests of the span are in flight, or have failed and are counted. -/
theorem Accounted.unproven_le (h : Accounted ip s) {a now : ℤ} (hclock : s.clock ≤ now)
    (hnow : now < a + windowSecs)
    (hnone : ∀ r ∈ s.attempts, r.Within ip a → r.phase.right ≠ some true) :
    s.attempts.countP (Attempt.unproven ip a) ≤
      (s.live ip now).length + (s.inFlight ip).length := by
  have hold : ∀ r ∈ s.attempts, r.ip = ip → r.phase.right = some true → r.now < a := by
    intro r hr hip hright
    by_contra hge
    have hpast := h.past r hr
    exact hnone r hr ⟨hip, by omega, by omega⟩ hright
  have hcounted := h.counted a (by omega) hold
  have hkept : now < a + s.limiter.window := by
    rw [h.window]
    exact hnow
  rw [← LoginLimiter.countP_kept _ hkept] at hcounted
  have hlive := List.countP_le_length (p := (decide <| a ≤ ·)) (l := s.live ip now)
  have hsplit : s.attempts.countP (Attempt.unproven ip a) ≤
      s.attempts.countP (Attempt.failedSince ip a) + (s.inFlight ip).length := by
    rw [Logins.inFlight, ← List.countP_eq_length_filter]
    refine countP_le_add fun r _ hr => ?_
    obtain ⟨rip, rnow, phase⟩ := r
    simp only [Attempt.unproven, Attempt.failedSince, Bool.and_eq_true, decide_eq_true_eq,
      beq_iff_eq, bne_iff_ne] at hr ⊢
    obtain ⟨⟨hip, hge, -⟩, hright⟩ := hr
    cases phase with
    | admitted => exact .inr ⟨hip, rfl⟩
    | verified right => exact .inr ⟨hip, rfl⟩
    | recorded right =>
      cases right with
      | false => exact .inl ⟨⟨hip, rfl⟩, hge⟩
      | true => exact absurd rfl hright
  rw [Logins.live] at hlive ⊢
  omega

/-- There is room for a request that is let through: were it to fail, and those in flight too, the
failures of the span would still be within the limit. -/
theorem Accounted.limited_admitted (h : Accounted ip s) {ip' : String} {now a : ℤ}
    (hroomy : Roomy s (.isBlocked ip' now)) (hblocked : (s.limiter.isBlocked ip' now).1 = false)
    (hnone : ∀ r ∈ s.attempts, r.Within ip a → r.phase.right ≠ some true) :
    (s.attempts ++ [Attempt.mk ip' now .admitted]).countP (Attempt.unproven ip a) ≤
      maxFailures := by
  obtain ⟨hclock, hroom⟩ := hroomy
  rw [List.countP_append]
  by_cases hin : (Attempt.mk ip' now .admitted).Within ip a
  · -- the request is of the span
    have hip : ip' = ip := hin.1
    subst hip
    have hle := h.unproven_le hclock hin.2.2 hnone
    have hfew : s.attempts.countP (Attempt.unproven ip' a) < maxFailures := by
      rcases hroom with htrue | hnil | hlt
      · rw [hblocked] at htrue
        exact Bool.noConfusion htrue
      · have hlive := LoginLimiter.length_lt_of_not_isBlocked (by rw [h.max]; decide) hblocked
        rw [h.max] at hlive
        rw [hnil, List.length_nil, Nat.add_zero] at hle
        exact Nat.lt_of_le_of_lt hle hlive
      · omega
    have hone := List.countP_le_length (p := Attempt.unproven ip' a)
      (l := [Attempt.mk ip' now .admitted])
    rw [List.length_singleton] at hone
    omega
  · have hzero : [Attempt.mk ip' now .admitted].countP (Attempt.unproven ip a) = 0 := by
      simp [Attempt.unproven, hin]
    rw [hzero, Nat.add_zero]
    exact h.limited a hnone

theorem accounted_isBlocked (h : Accounted ip s) {ip' : String} {now : ℤ}
    (hroomy : Roomy s (.isBlocked ip' now)) : Accounted ip (s.step (.isBlocked ip' now)) := by
  have hclock := hroomy.1
  have hcount : ∀ a, now < a + windowSecs →
      ((s.limiter.isBlocked ip' now).2.times ip).countP (a ≤ ·) =
        (s.limiter.times ip).countP (a ≤ ·) := by
    intro a ha
    exact LoginLimiter.countP_times_isBlocked (by rw [h.window]; exact ha)
  have hlimits : (s.limiter.isBlocked ip' now).2.max = maxFailures ∧
      (s.limiter.isBlocked ip' now).2.window = windowSecs := by
    rw [LoginLimiter.isBlocked]
    split
    · exact ⟨h.max, h.window⟩
    · exact ⟨h.max, h.window⟩
  rw [Logins.step]
  dsimp only
  cases hblocked : (s.limiter.isBlocked ip' now).1 with
  | true =>
    rw [if_pos rfl]
    refine ⟨hlimits.1, hlimits.2, fun r hr => Int.le_trans (h.past r hr) hclock,
      fun a ha hold => ?_, h.limited⟩
    rw [hcount a ha]
    exact h.counted a (by dsimp only at ha; omega) hold
  | false =>
    rw [if_neg Bool.false_ne_true]
    have hmem : ∀ r ∈ s.attempts, r ∈ s.attempts ++ [⟨ip', now, .admitted⟩] := fun r hr =>
      List.mem_append_left _ hr
    refine ⟨hlimits.1, hlimits.2, ?_, fun a ha hold => ?_, fun a hnone => ?_⟩
    · intro r hr
      rcases List.mem_append.mp hr with hr | hr
      · exact Int.le_trans (h.past r hr) hclock
      · obtain rfl := List.mem_singleton.mp hr
        exact Int.le_refl _
    · rw [hcount a ha, List.countP_append]
      have hnew : [Attempt.mk ip' now .admitted].countP (Attempt.failedSince ip a) = 0 := by
        simp [Attempt.failedSince]
      rw [hnew, Nat.add_zero]
      exact h.counted a (by dsimp only at ha; omega) fun r hr => hold r (hmem r hr)
    · exact h.limited_admitted hroomy hblocked fun r hr => hnone r (hmem r hr)

/-- Verifying a password, whatever comes of it. -/
theorem accounted_verified (h : Accounted ip s) {i : ℕ} {r : Attempt} (hr : s.attempts[i]? = some r)
    (hadmitted : r.phase = .admitted) (right : Bool) :
    Accounted ip (s.toPhase i r (.verified right)) := by
  have hsame : ∀ a, (s.attempts.set i { r with phase := .verified right }).countP
      (Attempt.failedSince ip a) = s.attempts.countP (Attempt.failedSince ip a) := by
    intro a
    have hcount := countP_set_add (Attempt.failedSince ip a) hr { r with phase := .verified right }
    simpa [Attempt.failedSince, hadmitted] using hcount
  have hold : ∀ r' ∈ s.attempts, r'.phase.right = some true →
      r' ∈ s.attempts.set i { r with phase := .verified right } := by
    intro r' hr' hright
    rcases mem_of_mem_set hr hr' with rfl | hmem
    · rw [hadmitted] at hright
      exact absurd hright (by decide)
    · exact hmem
  refine ⟨h.max, h.window, ?_, fun a ha hsuccess => ?_, fun a hnone => ?_⟩
  · intro r' hr'
    rcases List.mem_or_eq_of_mem_set hr' with hmem | rfl
    · exact h.past r' hmem
    · exact h.past r (List.mem_of_getElem? hr)
  · rw [Logins.toPhase, hsame a]
    exact h.counted a ha fun r' hr' hip hright => hsuccess r' (hold r' hr' hright) hip hright
  · have hbefore := h.limited a fun r' hr' hin hright => hnone r' (hold r' hr' hright) hin hright
    have hcount := countP_set_add (Attempt.unproven ip a) hr { r with phase := .verified right }
    have hle : (if Attempt.unproven ip a { r with phase := .verified right } then 1 else 0) ≤
        if Attempt.unproven ip a r then 1 else 0 := by
      by_cases hin : r.Within ip a
      · have hone : Attempt.unproven ip a r = true := by
          simp [Attempt.unproven, hin, hadmitted, Phase.right]
        rw [hone]
        split <;> simp
      · have hin' : ¬Attempt.Within ip a { r with phase := .verified right } := hin
        simp [Attempt.unproven, hin']
    show (s.attempts.set i { r with phase := .verified right }).countP _ ≤ maxFailures
    omega

/-- Recording an outcome, with a limiter that has counted it. -/
theorem accounted_recorded (h : Accounted ip s) {i : ℕ} {r : Attempt} (hr : s.attempts[i]? = some r)
    {right : Bool} (hverified : r.phase = .verified right) {l : LoginLimiter}
    (hmax : l.max = s.limiter.max) (hwindow : l.window = s.limiter.window)
    (hcount : ∀ a, s.clock < a + windowSecs → (right = true → r.ip = ip → r.now < a) →
      (s.limiter.times ip).countP (a ≤ ·) +
        (if Attempt.failedSince ip a { r with phase := .recorded right } then 1 else 0) ≤
      (l.times ip).countP (a ≤ ·)) :
    Accounted ip { s.toPhase i r (.recorded right) with limiter := l } := by
  have hright : Phase.right (.recorded right) = r.phase.right := by rw [hverified]; rfl
  have hi : i < s.attempts.length := (List.getElem?_eq_some_iff.mp hr).choose
  have hnew : { r with phase := .recorded right } ∈
      s.attempts.set i { r with phase := .recorded right } := List.mem_set hi _
  -- as far as times and passwords go, the requests are the same
  have hold : ∀ r' ∈ s.attempts, ∃ r'' ∈ s.attempts.set i { r with phase := .recorded right },
      r''.ip = r'.ip ∧ r''.now = r'.now ∧ r''.phase.right = r'.phase.right := by
    intro r' hr'
    rcases mem_of_mem_set (y := { r with phase := .recorded right }) hr hr' with rfl | hmem
    · exact ⟨_, hnew, rfl, rfl, hright⟩
    · exact ⟨r', hmem, rfl, rfl, rfl⟩
  refine ⟨hmax.trans h.max, hwindow.trans h.window, ?_, fun a ha hsuccess => ?_, fun a hnone => ?_⟩
  · intro r' hr'
    rcases List.mem_or_eq_of_mem_set hr' with hmem | rfl
    · exact h.past r' hmem
    · exact h.past r (List.mem_of_getElem? hr)
  · have hbefore := h.counted a ha fun r' hr' hip hr'right => by
      obtain ⟨r'', hr'', hip', hnow, hphase⟩ := hold r' hr'
      rw [← hnow]
      exact hsuccess r'' hr'' (hip'.trans hip) (hphase.trans hr'right)
    have hadded := hcount a ha fun htrue hip =>
      hsuccess { r with phase := .recorded right } hnew hip (by rw [htrue]; rfl)
    have hset := countP_set_add (Attempt.failedSince ip a) hr { r with phase := .recorded right }
    have hnot : Attempt.failedSince ip a r = false := by
      simp [Attempt.failedSince, hverified]
    rw [hnot] at hset
    show (s.attempts.set i { r with phase := .recorded right }).countP _ ≤
      (l.times ip).countP (a ≤ ·)
    simp only [Bool.false_eq_true, if_false, Nat.add_zero] at hset
    omega
  · have hbefore := h.limited a fun r' hr' hin => by
      obtain ⟨r'', hr'', hip', hnow, hphase⟩ := hold r' hr'
      rw [← hphase]
      exact hnone r'' hr'' (by rwa [Attempt.Within, hip', hnow])
    have hset := countP_set_add (Attempt.unproven ip a) hr { r with phase := .recorded right }
    have hsame : Attempt.unproven ip a { r with phase := .recorded right } =
        Attempt.unproven ip a r := by
      rw [Attempt.unproven]
      rw [hright]
      rfl
    rw [hsame] at hset
    show (s.attempts.set i { r with phase := .recorded right }).countP _ ≤ maxFailures
    omega

/-- A success clears what is older than the span, and counts as no failure. -/
theorem accounted_recordedRight (h : Accounted ip s) {i : ℕ} {r : Attempt}
    (hr : s.attempts[i]? = some r) (hverified : r.phase = .verified true)
    (hclear : ∀ t ∈ s.limiter.times r.ip, t ≤ r.now) :
    Accounted ip
      { s.toPhase i r (.recorded true) with limiter := s.limiter.recordSuccess r.ip } := by
  refine accounted_recorded h hr hverified rfl rfl fun a ha hbefore => ?_
  have hnot : Attempt.failedSince ip a { r with phase := .recorded true } = false := by
    simp [Attempt.failedSince]
  rw [LoginLimiter.times_recordSuccess, hnot]
  by_cases hip : ip = r.ip
  · have hzero : (s.limiter.times ip).countP (a ≤ ·) = 0 := by
      rw [List.countP_eq_zero]
      intro t ht
      have hle := hclear t (hip ▸ ht)
      have hlt := hbefore rfl hip.symm
      simp only [decide_eq_true_eq]
      omega
    rw [hzero]
    exact Nat.zero_le _
  · rw [if_neg hip]
    exact Nat.le_refl _

/-- A failure is counted where it is in the span. -/
theorem accounted_recordedWrong (h : Accounted ip s) {i : ℕ} {r : Attempt}
    (hr : s.attempts[i]? = some r) (hverified : r.phase = .verified false) :
    Accounted ip
      { s.toPhase i r (.recorded false) with limiter := s.limiter.recordFailure r.ip r.now } := by
  refine accounted_recorded h hr hverified rfl rfl fun a ha _ => ?_
  have hpast := h.past r (List.mem_of_getElem? hr)
  rw [LoginLimiter.countP_times_recordFailure (by rw [h.window]; omega)]
  refine Nat.add_le_add_left ?_ _
  by_cases hcounts : ip = r.ip ∧ a ≤ r.now
  · rw [if_pos hcounts]
    split <;> simp
  · have hnot : Attempt.failedSince ip a { r with phase := .recorded false } = false := by
      simp only [Attempt.failedSince, Bool.and_eq_false_iff, beq_eq_false_iff_ne,
        decide_eq_false_iff_not]
      by_cases hip : r.ip = ip
      · exact .inr fun hle => hcounts ⟨hip.symm, hle⟩
      · exact .inl (.inl hip)
    rw [hnot]
    exact Nat.zero_le _

theorem accounted_step (h : Accounted ip s) {op : LoginStep} (hroomy : Roomy s op) :
    Accounted ip (s.step op) := by
  cases op with
  | isBlocked ip' now => exact accounted_isBlocked h hroomy
  | verifyPassword i right =>
    unfold Logins.step
    dsimp only
    split
    · rename_i r hr
      split
      · rename_i hadmitted
        exact accounted_verified h hr hadmitted right
      · exact h
    · exact h
  | record i =>
    unfold Logins.step
    dsimp only
    split
    · rename_i r hr
      split
      · rename_i hverified
        exact accounted_recordedRight h hr hverified (hroomy r hr hverified)
      · rename_i hverified
        exact accounted_recordedWrong h hr hverified
      · exact h
    · exact h

end Step

/-- **The login limit.** In every run of login requests whose steps leave room, at most
`maxFailures` wrong passwords are verified for an address within a span of `windowSecs` that
contains no successful login. -/
theorem login_limited (ops : List LoginStep) (ip : String)
    (h : Always Logins.step Roomy .initial ops) : (run Logins.step .initial ops).Limited ip := by
  have haccounted : Accounted ip (run Logins.step .initial ops) := by
    refine h.run_inv ?_ fun s op hs hop => accounted_step hs hop
    refine ⟨rfl, rfl, fun r hr => absurd hr List.not_mem_nil, fun a _ _ => Nat.zero_le _,
      fun a _ => ?_⟩
    exact Nat.zero_le _
  exact haccounted.limit

/-- Two requests at once with a wrong password, then three more, and one too many. -/
def guesses : List LoginStep :=
  [.isBlocked "6.6.6.6" 0, .isBlocked "6.6.6.6" 0, .verifyPassword 0 false, .verifyPassword 1 false,
    .record 1, .record 0,
    .isBlocked "6.6.6.6" 1, .verifyPassword 2 false, .record 2,
    .isBlocked "6.6.6.6" 2, .verifyPassword 3 false, .record 3,
    .isBlocked "6.6.6.6" 3, .verifyPassword 4 false, .record 4,
    .isBlocked "6.6.6.6" 4, .verifyPassword 5 false]

theorem login_limited_guesses : (run Logins.step .initial guesses).Limited "6.6.6.6" :=
  login_limited guesses "6.6.6.6" (by decide)

/-- The last of them is turned away. -/
example : (run Logins.step .initial guesses).attempts.length = 5 := by decide

/-- Six requests of one address in the same second. -/
def stampede : List LoginStep :=
  List.replicate 6 (.isBlocked "6.6.6.6" 0) ++ (List.range 6).map fun i => .verifyPassword i false

/-- **Six guesses pass for one**: each asks before any other has been counted. -/
theorem six_guesses : ¬(run Logins.step .initial stampede).Limited "6.6.6.6" := by
  intro hlimited
  have hfew := hlimited 0 (by decide)
  exact absurd hfew (by decide)

end Dunlin

import Dunlin.LoginLimiter

/-!
# The login limiter and the log it stands for

The limiter throws expired times away whenever it comes across them: when it is asked, when a
failure is recorded, and for every address at once when its map has grown large. A naive limiter
would keep the whole log of failures (`logged`) and count in it.

`limiter_is_naive` says that the answers are the same in every sequence of calls. What ties the two
together is `Mirrors`: the entry of an address holds the times of the log that can still count.

Calls come in the order of their times, as readings of a clock that is not set back; a time that has
expired then stays expired, which is why it can be thrown away.

## Main results

* `kept_swept`, `kept_times_isBlocked`, `kept_times_recordFailure` — none of the three ways of
  throwing away takes a time that can still count
* `Mirrors.step` — every call keeps the entry of an address in step with the log
* `limiter_naive` — the answers are those of the naive limiter
-/

namespace Dunlin

open Lib

/-- A call of the limiter. -/
inductive LimiterCall
  | isBlocked (ip : String) (now : ℤ)
  | recordFailure (ip : String) (now : ℤ)
  | recordSuccess (ip : String)
  deriving DecidableEq, Repr

namespace LimiterCall

def step (l : LoginLimiter) : LimiterCall → LoginLimiter
  | .isBlocked ip now => (l.isBlocked ip now).2
  | .recordFailure ip now => l.recordFailure ip now
  | .recordSuccess ip => l.recordSuccess ip

/-- When the call is made, if it looks at the clock. -/
def time : LimiterCall → Option ℤ
  | .isBlocked _ now | .recordFailure _ now => some now
  | .recordSuccess _ => none

/-- The call records something about the address. -/
def records (ip : String) : LimiterCall → Bool
  | .isBlocked .. => false
  | .recordFailure ip' _ => ip' == ip
  | .recordSuccess ip' => ip' == ip

/-- The failures of an address since its last success, after one more call. -/
def logStep (ip : String) (times : List ℤ) : LimiterCall → List ℤ
  | .isBlocked .. => times
  | .recordFailure ip' now => if ip' = ip then times ++ [now] else times
  | .recordSuccess ip' => if ip' = ip then [] else times

end LimiterCall

/-- A sweep on its own, as `record_failure` makes one when the map is large. -/
def LoginLimiter.sweep (l : LoginLimiter) (now : ℤ) : LoginLimiter :=
  { l with failures := l.swept now }

/-- The naive log of an address: all its failures since its last success. -/
def logged (ip : String) (calls : List LimiterCall) : List ℤ :=
  calls.foldl (LimiterCall.logStep ip) []

/-- The times of some calls do not decrease. -/
def Ordered (calls : List LimiterCall) : Prop :=
  (calls.filterMap LimiterCall.time).Pairwise (· ≤ ·)

instance : DecidablePred Ordered := fun _ => inferInstanceAs (Decidable (List.Pairwise _ _))

/-! ### The naive log -/

section Log

variable {ip : String} {past : List LimiterCall}

theorem logged_append_singleton (c : LimiterCall) :
    logged ip (past ++ [c]) = c.logStep ip (logged ip past) := by
  rw [logged, List.foldl_append]
  rfl

/-- The log of an address is made by the calls that record something about it. -/
theorem logged_filter (calls : List LimiterCall) :
    logged ip (calls.filter (·.records ip)) = logged ip calls := by
  induction calls using List.reverseRecOn with
  | nil => rfl
  | append_singleton past c ih =>
    rw [List.filter_append, logged_append_singleton]
    by_cases hc : c.records ip = true
    · rw [List.filter_cons_of_pos hc, List.filter_nil, logged_append_singleton, ih]
    · rw [List.filter_cons_of_neg hc, List.filter_nil, List.append_nil, ih]
      cases c with
      | isBlocked ip' now => rfl
      | recordFailure ip' now => rw [LimiterCall.logStep, if_neg fun h => hc (beq_iff_eq.mpr h)]
      | recordSuccess ip' => rw [LimiterCall.logStep, if_neg fun h => hc (beq_iff_eq.mpr h)]

theorem Ordered.append_singleton {c : LimiterCall} {now : ℤ} (h : Ordered (past ++ [c]))
    (hc : c.time = some now) : ∀ t ∈ past.filterMap LimiterCall.time, t ≤ now := by
  rw [Ordered, List.filterMap_append, List.pairwise_append] at h
  exact fun t ht => h.2.2 t ht now (by simp [hc])

end Log

/-! ### Trimming -/

namespace LoginLimiter

variable {l : LoginLimiter} {ip ip' : String} {now later : ℤ}

theorem kept_append (times times' : List ℤ) :
    l.kept now (times ++ times') = l.kept now times ++ l.kept now times' :=
  List.filter_append times times'

/-- What has expired stays expired. -/
theorem kept_kept (times : List ℤ) (h : now ≤ later) :
    l.kept later (l.kept now times) = l.kept later times := by
  rw [kept, kept, kept, List.filter_filter]
  refine List.filter_congr fun t _ => ?_
  rw [Bool.eq_iff_iff, Bool.and_eq_true, decide_eq_true_eq, decide_eq_true_eq]
  omega

/-- A sweep drops nothing that can still count. -/
theorem kept_swept (h : now ≤ later) :
    l.kept later (((l.swept now).get? ip).getD []) = l.kept later (l.times ip) := by
  rcases l.get?_swept with hswept | hswept <;> rw [hswept]
  exact kept_kept _ h

theorem kept_times_isBlocked (h : now ≤ later) :
    l.kept later ((l.isBlocked ip' now).2.times ip) = l.kept later (l.times ip) := by
  rw [times_isBlocked]
  split
  · rename_i heq
    rw [kept_kept _ h, heq]
  · rfl

theorem kept_times_recordFailure (h : now ≤ later) :
    l.kept later ((l.recordFailure ip' now).times ip) =
      l.kept later (if ip' = ip then l.times ip ++ [now] else l.times ip) := by
  rw [recordFailure, times, Keyed.get?_upsert]
  by_cases heq : ip' = ip
  · subst heq
    have hold : l.kept later (l.kept now (((l.swept now).get? ip').getD [])) =
        l.kept later (l.times ip') := by
      rw [kept_kept _ h, kept_swept h]
    rw [if_pos rfl, if_pos rfl, Option.getD_some, kept_append, kept_append, hold]
  · rw [if_neg (Ne.symm heq), if_neg heq]
    exact kept_swept h

/-- The answer of the limiter counts what is left of the entry. -/
theorem isBlocked_eq (hmax : 1 ≤ l.max) :
    (l.isBlocked ip now).1 = decide (l.max ≤ (l.kept now (l.times ip)).length) := by
  rw [isBlocked]
  cases hget : l.failures.get? ip with
  | none =>
    rw [times, hget, Option.getD_none]
    symm
    rw [decide_eq_false_iff_not]
    exact Nat.not_le_of_lt hmax
  | some entry => rw [times_of_get? hget]

theorem max_step (c : LimiterCall) : (c.step l).max = l.max := by
  cases c with
  | isBlocked ip now =>
    rw [LimiterCall.step, isBlocked]
    split <;> rfl
  | recordFailure ip now => rfl
  | recordSuccess ip => rfl

theorem window_step (c : LimiterCall) : (c.step l).window = l.window := by
  cases c with
  | isBlocked ip now =>
    rw [LimiterCall.step, isBlocked]
    split <;> rfl
  | recordFailure ip now => rfl
  | recordSuccess ip => rfl

end LoginLimiter

/-! ### The refinement -/

/-- After the calls `past` the limiter holds what can still count of the log. -/
structure Mirrors (max : ℕ) (window : ℤ) (past : List LimiterCall) (l : LoginLimiter) : Prop where
  max : l.max = max
  window : l.window = window
  live : ∀ ip now, (∀ t ∈ past.filterMap LimiterCall.time, t ≤ now) →
    l.kept now (l.times ip) = l.kept now (logged ip past)

section Refinement

variable {max : ℕ} {window : ℤ} {past : List LimiterCall} {l : LoginLimiter}

theorem mirrors_withLimits : Mirrors max window [] (.withLimits max window) :=
  ⟨rfl, rfl, fun _ _ _ => rfl⟩

theorem Mirrors.step (h : Mirrors max window past l) (c : LimiterCall) :
    Mirrors max window (past ++ [c]) (c.step l) := by
  refine ⟨(LoginLimiter.max_step c).trans h.max, (LoginLimiter.window_step c).trans h.window,
    fun ip later hlater => ?_⟩
  have hpast : ∀ t ∈ past.filterMap LimiterCall.time, t ≤ later := fun t ht =>
    hlater t (List.filterMap_append ▸ List.mem_append_left _ ht)
  have hkept : ∀ times, (c.step l).kept later times = l.kept later times := fun times => by
    rw [LoginLimiter.kept, LoginLimiter.kept, LoginLimiter.window_step]
  have hlive := h.live ip later hpast
  rw [hkept, hkept, logged_append_singleton]
  cases c with
  | isBlocked ip' now =>
    have hnow : now ≤ later := hlater now (by simp [LimiterCall.time])
    exact (LoginLimiter.kept_times_isBlocked hnow).trans hlive
  | recordFailure ip' now =>
    have hnow : now ≤ later := hlater now (by simp [LimiterCall.time])
    rw [LimiterCall.step, LoginLimiter.kept_times_recordFailure hnow, LimiterCall.logStep]
    by_cases heq : ip' = ip
    · rw [if_pos heq, if_pos heq, LoginLimiter.kept_append, LoginLimiter.kept_append, hlive]
    · rw [if_neg heq, if_neg heq, hlive]
  | recordSuccess ip' =>
    rw [LimiterCall.step, LoginLimiter.times_recordSuccess, LimiterCall.logStep]
    by_cases heq : ip' = ip
    · rw [if_pos heq.symm, if_pos heq]
    · rw [if_neg (Ne.symm heq), if_neg heq, hlive]

theorem Mirrors.run (h : Mirrors max window past l) (calls : List LimiterCall) :
    Mirrors max window (past ++ calls) (run LimiterCall.step l calls) := by
  induction calls generalizing past l with
  | nil => simpa using h
  | cons c calls ih =>
    rw [List.append_cons]
    exact ih (h.step c)

/-- After a sweep the limiter mirrors the same log, from the time of the sweep on. -/
theorem Mirrors.sweep (h : Mirrors max window past l) (ip : String) (t : ℤ) :
    Mirrors max window (past ++ [.isBlocked ip t]) (l.sweep t) := by
  refine ⟨h.max, h.window, fun ip' later hlater => ?_⟩
  have hpast : ∀ t' ∈ past.filterMap LimiterCall.time, t' ≤ later := fun t' ht' =>
    hlater t' (List.filterMap_append ▸ List.mem_append_left _ ht')
  have ht : t ≤ later := hlater t (by simp [LimiterCall.time])
  rw [logged_append_singleton]
  exact (LoginLimiter.kept_swept ht).trans (h.live ip' later hpast)

/-- The answer is the one the log gives. -/
theorem Mirrors.isBlocked (h : Mirrors max window past l) (hmax : 1 ≤ max) (ip : String) {now : ℤ}
    (hnow : ∀ t ∈ past.filterMap LimiterCall.time, t ≤ now) :
    (l.isBlocked ip now).1 =
      decide (max ≤ (logged ip past).countP fun t => decide (now - t < window)) := by
  rw [LoginLimiter.isBlocked_eq (h.max ▸ hmax), h.live ip now hnow, LoginLimiter.kept,
    ← List.countP_eq_length_filter, h.max, h.window]

end Refinement

/-- **The limiter answers like a naive log.** Whatever was called before, in the order of the times:
an address is blocked exactly if at least `max` of its failures since its last success are younger
than `window`. Only the calls that record something about the address count, and a sweep of the map
anywhere in between makes no difference. -/
theorem limiter_naive (max : ℕ) (hmax : 1 ≤ max) (window : ℤ) (past : List LimiterCall)
    (ip : String) (now : ℤ) (hordered : Ordered (past ++ [.isBlocked ip now])) :
    ((run LimiterCall.step (.withLimits max window) past).isBlocked ip now).1 =
      decide (max ≤ (logged ip past).countP fun t => decide (now - t < window)) ∧
    (∀ past', Ordered (past' ++ [.isBlocked ip now]) →
      past'.filter (·.records ip) = past.filter (·.records ip) →
      ((run LimiterCall.step (.withLimits max window) past').isBlocked ip now).1 =
        ((run LimiterCall.step (.withLimits max window) past).isBlocked ip now).1) ∧
    ∀ before after t, past = before ++ after → t ≤ now →
      ((run LimiterCall.step ((run LimiterCall.step (.withLimits max window) before).sweep t)
          after).isBlocked ip now).1 =
        ((run LimiterCall.step (.withLimits max window) past).isBlocked ip now).1 := by
  have hmirrors : ∀ past, Mirrors max window past
      (run LimiterCall.step (.withLimits max window) past) := fun past =>
    mirrors_withLimits.run past
  have hpast := hordered.append_singleton rfl
  have hanswer := (hmirrors past).isBlocked hmax ip hpast
  refine ⟨hanswer, fun past' hordered' hsame => ?_, fun before after t heq ht => ?_⟩
  · rw [hanswer, (hmirrors past').isBlocked hmax ip (hordered'.append_singleton rfl),
      ← logged_filter past', hsame, logged_filter]
  · have hswept := ((hmirrors before).sweep ip t).run after
    have hlog : logged ip (before ++ [.isBlocked ip t] ++ after) = logged ip past := by
      rw [← logged_filter, ← logged_filter past, heq, List.filter_append, List.filter_append,
        List.filter_append]
      simp [LimiterCall.records]
    rw [hanswer, ← hlog]
    refine hswept.isBlocked hmax ip fun t' ht' => ?_
    simp only [heq, List.filterMap_append, List.mem_append] at hpast ht'
    rcases ht' with (hbefore | hself) | hafter
    · exact hpast t' (.inl hbefore)
    · simp only [LimiterCall.time, List.filterMap_cons, List.filterMap_nil,
        List.mem_singleton] at hself
      rwa [hself]
    · exact hpast t' (.inr hafter)

/-- Two failures, the first of which no longer counts when another address fails. -/
def twoFailures : List LimiterCall :=
  [.recordFailure "a" 0, .recordFailure "a" 7, .recordFailure "b" 12]

theorem limiter_naive_twoFailures :
    (logged "a" twoFailures = [0, 7]) ∧
    ((run LimiterCall.step (.withLimits 2 10) twoFailures).isBlocked "a" 12).1 =
      decide (2 ≤ (logged "a" twoFailures).countP fun t => decide (12 - t < 10)) :=
  ⟨by decide, (limiter_naive 2 (by decide) 10 twoFailures "a" 12 (by decide)).1⟩

end Dunlin

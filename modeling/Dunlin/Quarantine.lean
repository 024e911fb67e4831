import Dunlin.Lib.Tumbling
import Dunlin.SubscriptionRun
import Mathlib.Algebra.Order.Group.Int

/-!
# Quarantine

`countFailure` counts a subscriber's failures in a tumbling window of an hour, in two columns: when
the window opened, and how many failures it has. `Counted` says that the columns are those of
`Lib.window` over all failures and successes so far, and that the subscriber was quarantined by the
first failure to be the tenth of a window.

The library says of a tumbling window that the first failure opens it, that it closes an hour later
whatever comes in between, and that a success empties it. The columns of the table say the same with
two numbers, of which the first is stale once the second is zero; `Counted` has that case too.

## Scope

A subscriber's counted failures and successes come in any number and order, with any times. Where in
a round they are counted is in `Dispatch`, and with failing statements in `Recording`.

## Main results

* `struck`, `cleared` — the columns after one more failure, and after a success
* `quarantine_windows` — a subscriber is quarantined by the tenth failure of a window, and only then
-/

namespace Dunlin

open Lib

/-- What a subscriber's counter sees. -/
inductive CounterOp
  | failure (now : ℤ)
  | success
  | confirm (token : String) (now : ℤ)
  deriving DecidableEq

namespace CounterOp

variable (cr : Crypto) (sid : ℤ)

def step (s : Subs) : CounterOp → Subs
  | .failure now => (s.countFailure sid now).2
  | .success => s.clearFailures sid
  | .confirm token now => (s.confirm cr token now).2

/-- What it is to the counter. -/
def beat : CounterOp → Option (Beat ℤ)
  | .failure now => some (.hit now)
  | .success => some .clear
  | .confirm .. => none

def beats (ops : List CounterOp) : List (Beat ℤ) := ops.filterMap beat

end CounterOp

namespace Subscriber

/-- The row's columns after the failures and successes so far. -/
structure Counted (beats : List (Beat ℤ)) (r : Subscriber) : Prop where
  failures : r.failuresInWindow = (window quarantineWindowSecs beats).length
  start : r.failureWindowStart = (window quarantineWindowSecs beats).head?
  status : r.status = .quarantined ↔ Fills quarantineWindowSecs 10 beats
  quarantinedAt : ∀ t, FillsAt quarantineWindowSecs 10 beats t → r.quarantinedAt = some t

namespace Counted

variable {beats : List (Beat ℤ)} {r : Subscriber} {now : ℤ}

/-- A row as it is signed up. -/
theorem clean (hstatus : r.status ≠ .quarantined) (hfailures : r.failuresInWindow = 0)
    (hstart : r.failureWindowStart = none) : r.Counted [] := by
  have hempty : ¬Fills quarantineWindowSecs 10 [] := by
    rintro ⟨past, hpast, hn⟩
    rw [List.prefix_nil.mp hpast] at hn
    exact absurd hn (by decide)
  exact ⟨hfailures, hstart, iff_of_false hstatus hempty, fun t ht => absurd ht.fills hempty⟩

theorem windowOver_eq (h : r.Counted beats) (now : ℤ) : Subs.windowOver r now =
    !(window quarantineWindowSecs beats).head?.any (now - · < quarantineWindowSecs) := by
  rw [Subs.windowOver, h.start]
  cases (window quarantineWindowSecs beats).head? with
  | none => rfl
  | some s =>
    rw [Option.all_some, Option.any_some, ← decide_not, decide_eq_decide]
    omega

/-- The columns after one more failure. -/
theorem columns_countFailureRow (h : r.Counted beats) (now : ℤ) :
    (Subs.countFailureRow now r).failuresInWindow =
        (window quarantineWindowSecs (beats ++ [.hit now])).length ∧
      (Subs.countFailureRow now r).failureWindowStart =
        (window quarantineWindowSecs (beats ++ [.hit now])).head? := by
  rw [window_append_singleton, tumble, Subs.countFailureRow, h.windowOver_eq]
  cases hopen : (window quarantineWindowSecs beats).head?.any (now - · < quarantineWindowSecs) with
  | true =>
    obtain ⟨s, hs, -⟩ := (Option.any_eq_true _ _).mp hopen
    simp [h.failures, h.start, hs]
  | false => simp

/-- The failure that quarantines is the first to be the tenth of a window. -/
theorem strikesOut_iff (h : r.Counted beats) (now : ℤ) :
    r.strikesOut now ↔ ¬Fills quarantineWindowSecs 10 beats ∧
      (window quarantineWindowSecs (beats ++ [.hit now])).length = 10 := by
  have hfull : quarantineFailures ≤ (Subs.countFailureRow now r).failuresInWindow ↔ _ :=
    Subs.le_failures_countFailureRow
  rw [(h.columns_countFailureRow now).1] at hfull
  have hle := length_tumble_le quarantineWindowSecs (window quarantineWindowSecs beats) (.hit now)
  rw [← window_append_singleton] at hle
  rw [Subscriber.strikesOut, ← hfull, Ne, h.status]
  refine and_congr_right fun hnot => ?_
  have hlt := length_lt_of_not_fills hnot
  rw [quarantineFailures]
  omega

/-- **One more failure.** -/
theorem struck (h : r.Counted beats) (now : ℤ) : (r.struck now).Counted (beats ++ [.hit now]) := by
  obtain ⟨hfailures, hstart⟩ := h.columns_countFailureRow now
  have hstrikes := h.strikesOut_iff now
  rw [Subscriber.struck]
  by_cases hout : r.strikesOut now
  · obtain ⟨hfirst, hten⟩ := hstrikes.mp hout
    rw [if_pos hout]
    refine ⟨hfailures, hstart, iff_of_true rfl ?_, fun t ht => ?_⟩
    · exact fills_append_singleton.mpr (.inr hten.ge)
    · rcases fillsAt_append_singleton.mp ht with ht | ⟨heq, -⟩
      · exact absurd ht.fills hfirst
      · cases heq
        rfl
  · rw [if_neg hout]
    have hnot : ¬Fills quarantineWindowSecs 10 beats →
        (window quarantineWindowSecs (beats ++ [.hit now])).length ≠ 10 := fun hfirst hten =>
      hout (hstrikes.mpr ⟨hfirst, hten⟩)
    refine ⟨hfailures, hstart, h.status.trans ?_, fun t ht => ?_⟩
    · rw [fills_append_singleton]
      refine ⟨.inl, fun hfull => hfull.elim (fun hold => hold) fun hten => ?_⟩
      by_contra hfirst
      have hlt := length_lt_of_not_fills hfirst
      have hle := length_tumble_le quarantineWindowSecs (window quarantineWindowSecs beats)
        (.hit now)
      rw [← window_append_singleton] at hle
      exact hnot hfirst (by omega)
    · rcases fillsAt_append_singleton.mp ht with ht | ⟨-, hten, hfirst⟩
      · exact h.quarantinedAt t ht
      · exact absurd hten (hnot hfirst)

/-- **One more success.** -/
theorem cleared (h : r.Counted beats) : r.cleared.Counted (beats ++ [.clear]) := by
  have hwindow : window quarantineWindowSecs (beats ++ [.clear]) = [] := by
    rw [window_append_singleton, tumble]
  have hfills : Fills quarantineWindowSecs 10 (beats ++ [.clear]) ↔
      Fills quarantineWindowSecs 10 beats := by
    rw [fills_append_singleton, hwindow]
    exact or_iff_left (by decide)
  have hat : ∀ t, FillsAt quarantineWindowSecs 10 (beats ++ [.clear]) t →
      FillsAt quarantineWindowSecs 10 beats t := fun t ht =>
    (fillsAt_append_singleton.mp ht).resolve_right (by simp)
  rw [Subscriber.cleared]
  split
  · refine ⟨by rw [hwindow]; rfl, by rw [hwindow]; rfl, ?_,
      fun t ht => h.quarantinedAt t (hat t ht)⟩
    rw [hfills]
    exact h.status
  · rename_i hzero
    have hnil : window quarantineWindowSecs beats = [] := by
      rw [← List.length_eq_zero_iff]
      have := h.failures
      omega
    refine ⟨?_, ?_, h.status.trans hfills.symm, fun t ht => h.quarantinedAt t (hat t ht)⟩
    · rw [hwindow, h.failures, hnil]
    · rw [hwindow, h.start, hnil]

/-- A confirmation leaves the counter alone. -/
theorem activated (h : r.Counted beats) (hpending : r.status = .pending) (now : ℤ) :
    (r.activated now).Counted beats := by
  refine ⟨h.failures, h.start, ?_, h.quarantinedAt⟩
  rw [← h.status, hpending]
  exact iff_of_false (by simp [Subscriber.activated]) (by simp)

theorem failures_eq_zero_iff (h : r.Counted beats) :
    r.failuresInWindow = 0 ↔ r.failureWindowStart = none := by
  rw [h.failures, h.start, List.head?_eq_none_iff, ← List.length_eq_zero_iff]
  omega

end Counted

end Subscriber

/-! ### A sequence of failures and successes -/

/-- The subscriber's columns are those of the past. -/
def Subs.Counts (sid : ℤ) (past : List CounterOp) (s : Subs) : Prop :=
  ∃ r ∈ s.subscribers.rows, r.id = sid ∧ r.Counted (CounterOp.beats past)

variable {cr : Crypto} {s : Subs} {sid : ℤ} {past : List CounterOp}

theorem Subs.Counts.step (h : s.Counts sid past) (op : CounterOp) :
    (CounterOp.step cr sid s op).Counts sid (past ++ [op]) := by
  obtain ⟨r, hr, rfl, hcounted⟩ := h
  have hbeats : CounterOp.beats (past ++ [op]) = CounterOp.beats past ++ op.beat.toList := by
    cases hb : op.beat <;> simp [CounterOp.beats, hb]
  rw [Subs.Counts, hbeats]
  cases op with
  | failure now =>
    refine ⟨r.struck now, ?_, ?_, hcounted.struck now⟩
    · rw [CounterOp.step, Subs.rows_countFailure]
      exact List.mem_map.mpr ⟨r, hr, if_pos rfl⟩
    · rw [Subscriber.struck]
      split <;> rfl
  | success =>
    refine ⟨r.cleared, ?_, ?_, hcounted.cleared⟩
    · rw [CounterOp.step, Subs.rows_clearFailures]
      exact List.mem_map.mpr ⟨r, hr, if_pos rfl⟩
    · rw [Subscriber.cleared]
      split <;> rfl
  | confirm token now =>
    refine ⟨_, Subs.mem_confirm.mpr ⟨r, hr, rfl⟩, ?_⟩
    rw [show (CounterOp.confirm token now).beat.toList = [] from rfl, List.append_nil]
    split
    · rename_i hconfirms
      exact ⟨rfl, hcounted.activated (Subs.confirms_iff.mp hconfirms).2.1 now⟩
    · exact ⟨rfl, hcounted⟩

theorem counts_run (cr : Crypto) (h : s.Counts sid []) (ops : List CounterOp) :
    (run (CounterOp.step cr sid) s ops).Counts sid ops :=
  run_history h (fun _ op h => h.step op) ops

/-- **Quarantine is sound and complete up to its window.** Through any counted failures, successes
and confirmations of a subscriber, from counters at zero: the count is zero exactly when no window
is open; the subscriber is quarantined exactly when a failure was the tenth of a window, at the time
of the first such, and then ten failures fell within less than an hour with no success between
them; and nineteen such failures quarantine it. -/
theorem quarantine_windows (cr : Crypto) (s : Subs) (r : Subscriber) (ops : List CounterOp)
    (hr : r ∈ s.subscribers.rows) (hstatus : r.status ≠ .quarantined)
    (hfailures : r.failuresInWindow = 0) (hstart : r.failureWindowStart = none)
    (hsorted : (hits (CounterOp.beats ops)).Pairwise (· ≤ ·)) :
    ∃ r' ∈ (run (CounterOp.step cr r.id) s ops).subscribers.rows, r'.id = r.id ∧
      (r'.failuresInWindow = 0 ↔ r'.failureWindowStart = none) ∧
      (r'.status = .quarantined ↔ ∃ t, FillsAt 3600 10 (CounterOp.beats ops) t) ∧
      (∀ t, FillsAt 3600 10 (CounterOp.beats ops) t → r'.quarantinedAt = some t) ∧
      (r'.status = .quarantined → Burst 3600 10 (CounterOp.beats ops)) ∧
      (Burst 3600 19 (CounterOp.beats ops) → r'.status = .quarantined) := by
  obtain ⟨r', hr', hid, h⟩ :=
    counts_run cr ⟨r, hr, rfl, .clean hstatus hfailures hstart⟩ ops
  refine ⟨r', hr', hid, h.failures_eq_zero_iff, ?_, h.quarantinedAt, fun hq => ?_, fun hburst => ?_⟩
  · exact h.status.trans (exists_fillsAt_iff (by decide)).symm
  · exact burst_of_fills (by decide) hsorted (h.status.mp hq)
  · exact h.status.mpr (fills_of_burst (n := 10) hburst)

/-- A reader who has confirmed. -/
def confirmedReader : Subscriber where
  id := 1
  channel := .email
  address := "reader@example.com"
  allComponents := true
  maintenance := true
  status := .active
  confirmHash := none
  confirmExpires := none
  unsubHash := sampleCrypto.tokenHash (unsubscribeToken sampleCrypto sampleKey 1 0)
  createdAt := 0
  confirmedAt := some 0
  failureWindowStart := none
  failuresInWindow := 0
  quarantinedAt := none

def oneReader : Subs :=
  { Subs.empty with
    subscribers := Table.empty.insert (fun id => { confirmedReader with id := id }) fun _ => rfl
    key := some sampleKey
    distinct := List.pairwise_singleton _ _ }

/-- Failures in three windows: one over, one closed by a success, and a full one. -/
def brokenMailbox : List CounterOp :=
  [.failure 0, .failure 3600, .success] ++
    (List.range 11).map fun k => .failure (4000 + 300 * k)

theorem quarantine_windows_brokenMailbox :
    (∀ r ∈ (run (CounterOp.step sampleCrypto 1) oneReader brokenMailbox).subscribers.rows,
      r.status = .quarantined ∧ r.quarantinedAt = some 6700) ∧
      Burst 3600 10 (CounterOp.beats brokenMailbox) := by
  have hfull : ∀ r ∈ (run (CounterOp.step sampleCrypto 1) oneReader brokenMailbox).subscribers.rows,
      r.status = .quarantined ∧ r.quarantinedAt = some 6700 := by decide
  obtain ⟨r, hr, -, -, -, -, hburst, -⟩ := quarantine_windows sampleCrypto oneReader confirmedReader
    brokenMailbox (by decide) (by decide) rfl rfl (by decide)
  exact ⟨hfull, hburst (hfull r hr).1⟩

end Dunlin

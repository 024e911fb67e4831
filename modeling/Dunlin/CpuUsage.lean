import Dunlin.Lib.Numeral
import Dunlin.Models
import Mathlib.Algebra.Order.Field.Rat
import Mathlib.Algebra.Order.Field.Basic
import Mathlib.Tactic.NormNum
import Mathlib.Tactic.Positivity

/-!
# CPU usage

The model of `parse_stat` and `cpu_percent` in `procfs.rs`, in exact rational numbers. A counter
is `u64`; sums are those of a release build, which wrap around.

Busy time is what is left of the total without `idle` and `iowait`. Both are differenced between
two readings on their own. If `idle` and `iowait` together go down, which the kernel says of
`iowait` that it can, busy time grows by more than the total does, and the usage comes out above 100
percent (`cpuPercent_bounded_iff`).

The text of `/proc/stat` is read by lines and fields as the source reads it, with the errors it
gives. `idle` and `iowait` are added to an idle time that is never more than the total, so the
subtraction there does not saturate; the two differences of `cpu_percent` can.

## Main results

* `parseStat_eq_ok` — what is accepted, and the two sums
* `cpuPercent_eq_some_iff` — when there is a figure, and which
* `cpuPercent_bounded_iff` — when it is between 0 and 100
* `cpuPercent_takenBack` — two readings that give 150
-/

namespace Dunlin

open Lib

/-! ### Text -/

/-- `str::lines`, on characters: a line ends with `\n` or `\r\n`. -/
def textLines (content : List Char) : List (List Char) :=
  let parts := content.splitOn '\n'
  -- what follows the last line end is a line if there is anything, and stays as it is
  parts.dropLast.map (fun l => if l.getLast? = some '\r' then l.dropLast else l) ++
    parts.getLast?.toList.filter (· ≠ [])

/-- `str::split_whitespace`, on characters. -/
def splitWhitespace (line : List Char) : List (List Char) :=
  (line.splitOnP isWhitespace).filter (· ≠ [])

/-! ### The aggregate line -/

/-- The aggregate CPU times, in `USER_HZ`. -/
structure CpuStat where
  /-- Total minus idle and iowait. -/
  busy : ℕ
  total : ℕ
  deriving DecidableEq, Repr

/-- The numbers of the aggregate `cpu` line. -/
def cpuFields (content : String) : Except String (List ℕ) :=
  match (textLines content.toList).find? ("cpu ".toList.isPrefixOf ·) with
  | none => .error "no aggregate cpu line in /proc/stat"
  | some line =>
    match ((splitWhitespace line).drop 1).mapM (parseUnsigned (2 ^ 64)) with
    | none => .error "bad cpu fields in /proc/stat"
    | some nums => .ok nums

/-- `parse_stat`, after the numbers are read. -/
def statOf (nums : List ℕ) : Except String CpuStat :=
  if nums.length < 4 then .error s!"expected at least 4 cpu fields, got {nums.length}"
  else
    let total := nums.sum % 2 ^ 64
    let idle := nums.getD 3 0
    let iowait := nums.getD 4 0
    .ok ⟨total - (idle + iowait) % 2 ^ 64, total⟩

/-- `parse_stat`. -/
def parseStat (content : String) : Except String CpuStat :=
  match cpuFields content with
  | .error e => .error e
  | .ok nums => statOf nums

/-- `cpu_percent`: the busy part of the time between two readings, if any time passed. -/
def cpuPercent (prev cur : CpuStat) : Option ℚ :=
  if cur.total < prev.total then none
  else
    let dt := cur.total - prev.total
    if dt = 0 then none
    else
      let db := cur.busy - prev.busy
      some ((db : ℚ) / dt * 100)

/-! ### The counters of a reading -/

/-- The counters of a text, none if they cannot be read. -/
def counters (content : String) : List ℕ := (cpuFields content).toOption.getD []

/-- The time without work: `idle` and, where the kernel has it, `iowait`. -/
def idleTime (nums : List ℕ) : ℕ := nums.getD 3 0 + nums.getD 4 0

variable {nums : List ℕ} {content : String} {stat prev cur : CpuStat}

theorem idleTime_le_sum (nums : List ℕ) : idleTime nums ≤ nums.sum := by
  have htwo : ∀ l : List ℕ, l.getD 0 0 + l.getD 1 0 ≤ l.sum := by
    intro l
    cases l with
    | nil => exact Nat.le_refl 0
    | cons a l =>
      cases l with
      | nil => simp
      | cons b l => simp
  have hsplit : nums.sum = (nums.take 3).sum + (nums.drop 3).sum := by
    rw [← List.sum_append, List.take_append_drop]
  have hdrop : idleTime nums = (nums.drop 3).getD 0 0 + (nums.drop 3).getD 1 0 := by
    simp [idleTime, List.getElem?_drop]
  have hle := htwo (nums.drop 3)
  omega

/-- What is read, when the counters add up to a `u64`: every unit of time is busy or idle. -/
theorem statOf_eq_ok (h : statOf nums = .ok stat) (hsum : nums.sum < 2 ^ 64) :
    stat.total = nums.sum ∧ stat.busy + idleTime nums = nums.sum := by
  unfold statOf at h
  split at h
  · cases h
  · have hidle := idleTime_le_sum nums
    obtain rfl := Except.ok.inj h
    dsimp only
    rw [idleTime] at hidle ⊢
    rw [Nat.mod_eq_of_lt hsum, Nat.mod_eq_of_lt (Nat.lt_of_le_of_lt hidle hsum)]
    exact ⟨rfl, Nat.sub_add_cancel hidle⟩

theorem parseStat_eq_ok (h : parseStat content = .ok stat)
    (hsum : (counters content).sum < 2 ^ 64) :
    stat.total = (counters content).sum ∧
      stat.busy + idleTime (counters content) = (counters content).sum := by
  unfold parseStat at h
  unfold counters at hsum ⊢
  cases hfields : cpuFields content with
  | error e =>
    rw [hfields] at h
    cases h
  | ok nums =>
    rw [hfields] at h hsum
    exact statOf_eq_ok h hsum

/-! ### The bounds -/

/-- A usage is reported when the total grew. -/
theorem cpuPercent_eq_some_iff {p : ℚ} :
    cpuPercent prev cur = some p ↔ prev.total < cur.total ∧
      p = ((cur.busy - prev.busy : ℕ) : ℚ) / ((cur.total - prev.total : ℕ) : ℚ) * 100 := by
  rw [cpuPercent]
  dsimp only
  split
  · rename_i hlt
    exact iff_of_false (by simp) fun h => absurd h.1 (by omega)
  · split
    · rename_i hzero
      exact iff_of_false (by simp) fun h => absurd h.1 (by omega)
    · rw [Option.some_inj]
      exact ⟨fun h => ⟨by omega, h.symm⟩, fun h => h.2.symm⟩

/-- A part of a hundred is at most a hundred if it is not more than the whole. -/
theorem percent_le_iff {part whole : ℕ} (h : 0 < whole) :
    (part : ℚ) / whole * 100 ≤ 100 ↔ part ≤ whole := by
  have hpos : (0 : ℚ) < whole := Nat.cast_pos.mpr h
  rw [mul_le_iff_le_one_left (by norm_num), div_le_one hpos, Nat.cast_le]

/-- **CPU usage is a percentage exactly when idle time did not go down while the total grew.** -/
theorem cpuPercent_bounded_iff {a b : String} (ha : parseStat a = .ok prev)
    (hb : parseStat b = .ok cur) (hsuma : (counters a).sum < 2 ^ 64)
    (hsumb : (counters b).sum < 2 ^ 64) :
    (∀ p, cpuPercent prev cur = some p → 0 ≤ p ∧ p ≤ 100) ↔
      ((counters a).sum < (counters b).sum →
        idleTime (counters a) ≤ idleTime (counters b)) := by
  obtain ⟨htotala, hbusya⟩ := parseStat_eq_ok ha hsuma
  obtain ⟨htotalb, hbusyb⟩ := parseStat_eq_ok hb hsumb
  -- Busy time grows by no more than the total where idle time does not go down.
  have hpart : (counters a).sum < (counters b).sum →
      (cur.busy - prev.busy ≤ cur.total - prev.total ↔
        idleTime (counters a) ≤ idleTime (counters b)) := by
    intro hgrew
    omega
  constructor
  · intro h hgrew
    have hlt : prev.total < cur.total := by omega
    have hp := (h _ (cpuPercent_eq_some_iff.mpr ⟨hlt, rfl⟩)).2
    rw [percent_le_iff (by omega)] at hp
    exact (hpart hgrew).mp hp
  · intro h p hp
    obtain ⟨hlt, rfl⟩ := cpuPercent_eq_some_iff.mp hp
    have hgrew : (counters a).sum < (counters b).sum := by omega
    refine ⟨by positivity, ?_⟩
    rw [percent_le_iff (by omega)]
    exact (hpart hgrew).mpr (h hgrew)

/-- A reading with the machine idle, and 10 ticks of waiting. -/
def waiting : String := "cpu  10 0 10 70 10\ncpu0 10 0 10 70 10\n"

/-- A later reading, in which the ticks of waiting have been taken back. -/
def takenBack : String := "cpu  30 0 20 70 0\ncpu0 30 0 20 70 0\n"

/-- **150 percent.** Both readings are accepted, and their sums are small. -/
theorem cpuPercent_takenBack : ∃ prev cur, parseStat waiting = .ok prev ∧
    parseStat takenBack = .ok cur ∧ (counters waiting).sum < 2 ^ 64 ∧
      (counters takenBack).sum < 2 ^ 64 ∧
        ∃ p, cpuPercent prev cur = some p ∧ ¬(0 ≤ p ∧ p ≤ 100) := by
  refine ⟨⟨20, 100⟩, ⟨50, 120⟩, rfl, rfl, by decide, by decide, _,
    cpuPercent_eq_some_iff.mpr ⟨by decide, rfl⟩, fun h => ?_⟩
  exact absurd h.2 (by norm_num)

/-- A later reading of an idle machine. -/
def idling : String := "cpu  10 0 10 80 20\n"

theorem cpuPercent_bounded_iff_idling :
    (∀ p, cpuPercent ⟨20, 100⟩ ⟨20, 120⟩ = some p → 0 ≤ p ∧ p ≤ 100) ↔
      ((counters waiting).sum < (counters idling).sum →
        idleTime (counters waiting) ≤ idleTime (counters idling)) :=
  cpuPercent_bounded_iff (a := waiting) (b := idling) rfl rfl (by decide) (by decide)

end Dunlin

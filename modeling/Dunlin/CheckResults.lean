import Dunlin.Config

/-!
# Results of checks

The table `check_results` in `db.rs` and the state `status.rs` derives from it. The queries read a
check's results newest first (`resultsOf`); results of the same second come in the order of their
ids. `latency_ms` and `message` are left out, since nothing here reads them.

A check is down for the page once it has failed as often in a row as opens an incident. The page
counts its failures with a `LIMIT`, so what it finds is the count or the limit; the comparison is
the same (`checkState_eq_majorOutage`).

## Main results

* `resultsOf_insert` — a new result comes first, unless an older one has a later time
* `trailingFailures_insert` — how one more result changes the failures at the end
* `baseState_eq_majorOutage` — when a check is down, by its failures in a row
-/

namespace Dunlin

open Lib

/-- A row of `check_results`. -/
structure ResultRow where
  id : ℤ
  ts : ℤ
  checkId : String
  ok : Bool
  degraded : Bool
  deriving DecidableEq, Repr

instance : HasId ResultRow := ⟨ResultRow.id⟩

@[simp] theorem id_resultRow (r : ResultRow) : HasId.id r = r.id := rfl

/-- `ORDER BY ts DESC, id DESC`. -/
def ResultRow.Newer (a b : ResultRow) : Prop := b.ts < a.ts ∨ a.ts = b.ts ∧ b.id ≤ a.id

instance : DecidableRel ResultRow.Newer := fun _ _ => inferInstanceAs (Decidable (_ ∨ _))

instance : Std.Total ResultRow.Newer := ⟨fun a b => by unfold ResultRow.Newer; omega⟩

instance : IsTrans ResultRow ResultRow.Newer := ⟨fun a b c => by unfold ResultRow.Newer; omega⟩

/-- `insert_check_result`. -/
def insertCheckResult (ts : ℤ) (checkId : String) (ok degraded : Bool) (t : Table ResultRow) :
    Table ResultRow :=
  t.insert (fun id => ⟨id, ts, checkId, ok, degraded⟩) fun _ => rfl

/-- The results of a check, newest first. -/
def resultsOf (t : Table ResultRow) (checkId : String) : List ResultRow :=
  (t.rows.filter (·.checkId == checkId)).insertionSort ResultRow.Newer

/-- `last_check_result`. -/
def lastCheckResult (t : Table ResultRow) (checkId : String) : Option ResultRow :=
  (resultsOf t checkId).head?

/-- `LIMIT`: a negative one is none. -/
def limited {α : Type} (limit : ℤ) (l : List α) : List α :=
  if limit < 0 then l else l.take limit.toNat

/-- Count leading failures from the most recent result backwards, up to `limit`. -/
def consecutiveFailures (t : Table ResultRow) (checkId : String) (limit : ℤ) : ℤ :=
  ((limited limit (resultsOf t checkId)).takeWhile (!·.ok)).length

/-- The failures that the results of a check end with. -/
def trailingFailures (t : Table ResultRow) (checkId : String) : ℕ :=
  ((resultsOf t checkId).takeWhile (!·.ok)).length

/-- State of a check from its latest result and consecutive failure count. -/
def checkState (last : Option ResultRow) (consecutiveFailures : ℤ) (failuresToOpen : ℕ) : State :=
  match last with
  | none => .operational
  | some r =>
    if !r.ok then
      if consecutiveFailures ≥ failuresToOpen then .majorOutage else .partialOutage
    else if r.degraded then .degraded
    else .operational

/-- The state of a check on the status page, before maintenance and incidents are folded in:
`base` in `component_now`. -/
def baseState (t : Table ResultRow) (check : CheckConfig) : State :=
  checkState (lastCheckResult t check.id) (consecutiveFailures t check.id check.failuresToOpen)
    check.failuresToOpen

/-! ### What the queries return -/

section Queries

variable {t : Table ResultRow} {checkId : String} {ts : ℤ} {ok degraded : Bool}

theorem mem_resultsOf {r : ResultRow} :
    r ∈ resultsOf t checkId ↔ r ∈ t.rows ∧ r.checkId = checkId := by
  rw [resultsOf, List.mem_insertionSort, List.mem_filter, beq_iff_eq]

/-- A result no older than the others comes first. -/
theorem resultsOf_insert (h : ∀ r ∈ t.rows, r.checkId = checkId → r.ts ≤ ts) :
    resultsOf (insertCheckResult ts checkId ok degraded t) checkId =
      ⟨t.next, ts, checkId, ok, degraded⟩ :: resultsOf t checkId := by
  have hrows : (insertCheckResult ts checkId ok degraded t).rows.filter (·.checkId == checkId) =
      t.rows.filter (·.checkId == checkId) ++ [⟨t.next, ts, checkId, ok, degraded⟩] := by
    rw [insertCheckResult, Table.rows_insert, List.filter_append]
    simp
  have hperm : (resultsOf (insertCheckResult ts checkId ok degraded t) checkId).Perm
      (⟨t.next, ts, checkId, ok, degraded⟩ :: resultsOf t checkId) := by
    refine (List.perm_insertionSort _ _).trans ?_
    rw [hrows]
    refine (List.perm_append_singleton _ _).trans (List.Perm.cons _ ?_)
    exact (List.perm_insertionSort _ _).symm
  refine List.Perm.eq_of_pairwise (fun a b ha hb hab hba => ?_)
    (List.pairwise_insertionSort ResultRow.Newer _) (List.pairwise_cons.mpr ⟨fun r hr => ?_, ?_⟩)
    hperm
  · have hid : a.id = b.id := by
      unfold ResultRow.Newer at hab hba
      omega
    exact Table.eq_of_id (mem_resultsOf.mp ha).1 (mem_resultsOf.mp (hperm.mem_iff.mpr hb)).1 hid
  · obtain ⟨hmem, hcheck⟩ := mem_resultsOf.mp hr
    have hts := h r hmem hcheck
    have hid : r.id < t.next := t.lt_next r hmem
    show r.ts < ts ∨ ts = r.ts ∧ r.id ≤ t.next
    omega
  · exact List.pairwise_insertionSort ResultRow.Newer _

theorem trailingFailures_insert (h : ∀ r ∈ t.rows, r.checkId = checkId → r.ts ≤ ts) :
    trailingFailures (insertCheckResult ts checkId ok degraded t) checkId =
      if ok then 0 else trailingFailures t checkId + 1 := by
  rw [trailingFailures, resultsOf_insert h, List.takeWhile_cons]
  cases ok <;> rfl

/-- A result of another check is not among them. -/
theorem resultsOf_insert_of_ne {other : String} (h : other ≠ checkId) :
    resultsOf (insertCheckResult ts other ok degraded t) checkId = resultsOf t checkId := by
  rw [resultsOf, insertCheckResult, Table.rows_insert, List.filter_append]
  simp [h, resultsOf]

/-- A limited count is cut off at the limit. -/
theorem consecutiveFailures_eq (limit : ℕ) :
    consecutiveFailures t checkId limit = min limit (trailingFailures t checkId) := by
  rw [consecutiveFailures, limited, if_neg (by omega), Int.toNat_natCast, ← List.take_takeWhile,
    List.length_take, trailingFailures]

theorem checkState_eq_majorOutage {last : Option ResultRow} {failures : ℤ} {failuresToOpen : ℕ} :
    checkState last failures failuresToOpen = .majorOutage ↔
      (∃ r ∈ last, r.ok = false) ∧ failuresToOpen ≤ failures := by
  unfold checkState
  cases last with
  | none => simp
  | some r =>
    cases hok : r.ok with
    | true => cases hdegraded : r.degraded <;> simp [hok, hdegraded]
    | false => by_cases hfailures : failuresToOpen ≤ failures <;> simp [hok, hfailures]

theorem trailingFailures_pos :
    0 < trailingFailures t checkId ↔ ∃ r ∈ lastCheckResult t checkId, r.ok = false := by
  rw [trailingFailures, lastCheckResult]
  cases resultsOf t checkId with
  | nil => simp
  | cons r rows => cases hok : r.ok <;> simp [hok]

/-- A major outage is a run of failures that is long enough. -/
theorem baseState_eq_majorOutage {check : CheckConfig} :
    baseState t check = .majorOutage ↔
      0 < trailingFailures t check.id ∧ check.failuresToOpen ≤ trailingFailures t check.id := by
  rw [baseState, checkState_eq_majorOutage, ← trailingFailures_pos, consecutiveFailures_eq]
  refine and_congr_right fun _ => ?_
  omega

end Queries

end Dunlin

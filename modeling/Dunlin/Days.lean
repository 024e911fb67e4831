import Dunlin.Lib.Calendar
import Dunlin.Lib.WallClock

/-!
# Calendar days

The model of `days.rs`. Instants and wall times are seconds, dates are numbers of days since the
epoch; the ends of chrono's range of dates are far away and not modelled.

A timezone is its offset from UTC at every instant, in quarter hours that change on quarter hours.
Its dates form a `Calendar`. `startOf` searches for the first wall time of a date that exists and
takes the earliest instant that shows it; `startOf_eq_first` says that this is the first instant of
the date, in a zone whose dates never go back behind the wall time they began at (`Forward`).

## Main results

* `dateOf_mono` — later instants have no earlier dates
* `startOf_eq_first` — a day starts at the first instant of its date
* `contains_on` — a day holds the instants of its date
* `daysBack_eq` — the dates of the last days
-/

namespace Dunlin

open Lib

/-- Width of the slots per-day uptime is summed from. -/
def slotSecs : ℤ := 900

/-- Days in the status page's tick strips and its 90-day uptime figure. -/
def stripDays : ℕ := 90

/-- `chrono_tz::Tz`: the offset at every instant. -/
structure Tz where
  offset : ℤ → ℤ
  /-- The range of `FixedOffset`. -/
  bounded : ∀ ts, -86400 < offset ts ∧ offset ts < 86400
  quarters : ∀ ts, slotSecs ∣ offset ts
  constant : ∀ ts, offset ts = offset (ts / slotSecs * slotSecs)
  forward : ∀ ts ts', ts ≤ ts' → (ts + offset ts) / 86400 ≤ (ts' + offset ts') / 86400

/-- `LocalResult`: the instants that show a wall time. -/
inductive LocalResult
  | none
  | single (ts : ℤ)
  | ambiguous (earliest latest : ℤ)
  deriving DecidableEq, Repr

namespace LocalResult

/-- The result for the instants that show a wall time, in order. -/
def ofInstants : List ℤ → LocalResult
  | [] => .none
  | [ts] => .single ts
  | ts :: ts' :: rest => .ambiguous ts ((ts' :: rest).getLast (List.cons_ne_nil _ _))

/-- The match of `earliest`. -/
def earliest : LocalResult → Option ℤ
  | .single ts => some ts
  | .ambiguous a b => some (min a b)
  | .none => Option.none

theorem earliest_ofInstants {l : List ℤ} (h : l.Pairwise (· < ·)) :
    (ofInstants l).earliest = l.head? := by
  rcases l with _ | ⟨ts, _ | ⟨ts', rest⟩⟩
  · rfl
  · rfl
  · have hlt := (List.pairwise_cons.mp h).1 _ (List.getLast_mem (List.cons_ne_nil ts' rest))
    exact congrArg some (min_eq_left hlt.le)

end LocalResult

namespace Tz

variable (tz : Tz)

/-- The wall time at an instant. -/
def wall (ts : ℤ) : ℤ := ts + tz.offset ts

/-- The instants that show a wall time, in order. -/
def instants (wall : ℤ) : List ℤ :=
  ((List.range 193).map fun k : ℕ => wall - 86400 + slotSecs * k).filter fun ts =>
    tz.wall ts == wall

/-- `from_local_datetime`. -/
def fromLocalDatetime (wall : ℤ) : LocalResult :=
  match tz.instants wall with
  | [] => .none
  | [ts] => .single ts
  | ts :: ts' :: rest => .ambiguous ts ((ts' :: rest).getLast (List.cons_ne_nil _ _))

end Tz

variable (tz : Tz)

def earliest (wall : ℤ) : Option ℤ :=
  match tz.fromLocalDatetime wall with
  | .single ts => some ts
  | .ambiguous a b => some (min a b)
  | .none => none

/-- The date at an instant. -/
def dateOf (ts : ℤ) : ℤ := tz.wall ts / 86400

/-- The search of `start_of`: the next wall times, quarter hour by quarter hour. -/
def searchStart : ℕ → ℤ → Option ℤ
  | 0, _ => none
  | n + 1, t =>
    match earliest tz (t + slotSecs) with
    | some ts => some ts
    | none => searchStart n (t + slotSecs)

/-- First instant of `date`. -/
def startOf (date : ℤ) : ℤ :=
  let midnight := date * 86400
  match earliest tz midnight with
  | some ts => ts
  | none => (searchStart tz (2 * 96) midnight).getD midnight

structure Day where
  date : ℤ
  start : ℤ
  «end» : ℤ
  deriving DecidableEq, Repr

namespace Day

def on (date : ℤ) : Day :=
  let start := startOf tz date
  ⟨date, start, max (startOf tz (date + 1)) start⟩

def contains (d : Day) (ts : ℤ) : Bool := d.start ≤ ts && ts < d.end

end Day

/-- The loop of `last_days`, newest first. -/
def daysBack : ℕ → ℤ → List Day
  | 0, _ => []
  | n + 1, date => Day.on tz date :: daysBack n (date - 1)

/-- The last `n` days up to and including the one holding `now`, oldest first. -/
def lastDays (now : ℤ) (n : ℕ) : List Day := (daysBack tz n (dateOf tz now)).reverse

/-! ### Instants of a wall time -/

namespace Tz

variable {tz : Tz} {wall ts : ℤ}

theorem mem_instants : ts ∈ tz.instants wall ↔ tz.wall ts = wall := by
  rw [instants, List.mem_filter, beq_iff_eq, and_iff_right_iff_imp]
  intro hwall
  have hbounded := tz.bounded ts
  obtain ⟨q, hq⟩ := tz.quarters ts
  rw [Tz.wall] at hwall
  simp only [slotSecs] at hq ⊢
  refine List.mem_map.mpr ⟨(96 - q).toNat, List.mem_range.mpr ?_, ?_⟩
  · omega
  · omega

theorem sorted_instants (tz : Tz) (wall : ℤ) : (tz.instants wall).Pairwise (· < ·) := by
  refine List.Pairwise.filter _ (List.pairwise_map.mpr ?_)
  refine List.pairwise_lt_range.imp fun {a b} h => ?_
  simp only [slotSecs]
  omega

end Tz

section Start

variable {tz : Tz} {wall ts date : ℤ}

theorem earliest_eq_head? (tz : Tz) (wall : ℤ) : earliest tz wall = (tz.instants wall).head? := by
  rw [← LocalResult.earliest_ofInstants (tz.sorted_instants wall)]
  rw [earliest, Tz.fromLocalDatetime]
  rcases tz.instants wall with _ | ⟨ts, _ | ⟨ts', rest⟩⟩
  · rfl
  · rfl
  · rfl

/-- The head of a list in order is its least element. -/
theorem head?_eq_some_iff_least {l : List ℤ} (hsorted : l.Pairwise (· < ·)) :
    l.head? = some ts ↔ ts ∈ l ∧ ∀ u ∈ l, ts ≤ u := by
  cases l with
  | nil => simp
  | cons a l =>
    have hlt := (List.pairwise_cons.mp hsorted).1
    rw [List.head?_cons, Option.some_inj]
    constructor
    · rintro rfl
      refine ⟨List.mem_cons_self, fun u hu => ?_⟩
      rcases List.mem_cons.mp hu with rfl | hrest
      · exact le_rfl
      · exact (hlt u hrest).le
    · rintro ⟨hmem, hleast⟩
      rcases List.mem_cons.mp hmem with rfl | hrest
      · rfl
      · exact absurd (hlt ts hrest) (hleast a List.mem_cons_self).not_gt

theorem earliest_eq_none (h : ∀ ts, tz.wall ts ≠ wall) : earliest tz wall = none := by
  rw [earliest_eq_head?, List.head?_eq_none_iff, List.eq_nil_iff_forall_not_mem]
  exact fun ts hts => h ts (Tz.mem_instants.mp hts)

/-- The first instant that shows a wall time. -/
theorem earliest_eq_some (h : tz.wall ts = wall) (hbefore : ∀ u < ts, tz.wall u ≠ wall) :
    earliest tz wall = some ts := by
  rw [earliest_eq_head?]
  refine (head?_eq_some_iff_least (tz.sorted_instants wall)).mpr ⟨Tz.mem_instants.mpr h, ?_⟩
  exact fun u hu => not_lt.mp fun hlt => hbefore u hlt (Tz.mem_instants.mp hu)

/-! ### The calendar of a zone -/

/-- A slot lies within one date. -/
theorem dateOf_slot (tz : Tz) (ts : ℤ) : dateOf tz (ts / slotSecs * slotSecs) = dateOf tz ts := by
  obtain ⟨q, hq⟩ := tz.quarters ts
  unfold dateOf Tz.wall
  rw [← tz.constant ts]
  simp only [slotSecs] at hq ⊢
  omega

theorem dateOf_mono (tz : Tz) : Monotone (dateOf tz) := fun _ _ h => tz.forward _ _ h

/-- The dates of a zone. -/
def calendar (tz : Tz) : Calendar where
  date := dateOf tz
  mono := dateOf_mono tz
  early := by
    intro d
    refine ⟨(d - 1) * 86400, ?_⟩
    have hbounded := tz.bounded ((d - 1) * 86400)
    rw [dateOf, Tz.wall]
    omega
  late := by
    intro d
    refine ⟨(d + 1) * 86400, ?_⟩
    have hbounded := tz.bounded ((d + 1) * 86400)
    rw [dateOf, Tz.wall]
    omega

/-- No date shows a wall time before the one it began at. -/
def Tz.Forward (tz : Tz) : Prop :=
  ∀ ts ts', ts ≤ ts' → (∀ u < ts, dateOf tz u < dateOf tz ts) → dateOf tz ts' = dateOf tz ts →
    tz.wall ts ≤ tz.wall ts'

/-- The first instant of a date starts a slot. -/
theorem first_slot (tz : Tz) (date : ℤ) :
    (calendar tz).first date / slotSecs * slotSecs = (calendar tz).first date := by
  have hle : (calendar tz).first date ≤ (calendar tz).first date / slotSecs * slotSecs := by
    rw [Calendar.first_le_iff]
    show date ≤ dateOf tz _
    rw [dateOf_slot]
    exact (calendar tz).le_date_first date
  have hge := Int.ediv_mul_le ((calendar tz).first date) (show slotSecs ≠ 0 by decide)
  omega

/-- No gap is longer than the search. -/
theorem wall_first_lt (tz : Tz) (date : ℤ) :
    tz.wall ((calendar tz).first date) < date * 86400 + 2 * 86400 := by
  have hbefore : dateOf tz ((calendar tz).first date - 1) < date :=
    (calendar tz).lt_first_iff.mp (Int.sub_lt_self _ one_pos)
  have hb := tz.bounded ((calendar tz).first date)
  have hb' := tz.bounded ((calendar tz).first date - 1)
  unfold dateOf Tz.wall at hbefore
  unfold Tz.wall
  omega

theorem searchStart_eq_probe (tz : Tz) (n : ℕ) (t : ℤ) :
    searchStart tz n t = probe (earliest tz) slotSecs n t := by
  induction n generalizing t with
  | zero => rfl
  | succ n ih =>
    rw [searchStart, probe]
    rw [ih]
    cases earliest tz (t + slotSecs) with
    | none => rfl
    | some ts => rfl

/-- The search stops at the first wall time that exists. -/
theorem searchStart_eq {n k : ℕ} {t : ℤ} (hk : 0 < k) (hkn : k ≤ n)
    (hbefore : ∀ j : ℕ, 0 < j → j < k → earliest tz (t + slotSecs * j) = none)
    (hfound : earliest tz (t + slotSecs * k) = some ts) : searchStart tz n t = some ts := by
  rw [searchStart_eq_probe]
  exact probe_eq_some hk hkn hbefore hfound

/-- A day starts at the first of its quarter hours that exists. -/
theorem startOf_eq {date : ℤ} {k : ℕ} (hk : k < 192)
    (hbefore : ∀ j < k, earliest tz (date * 86400 + slotSecs * (j : ℕ)) = none)
    (hfound : earliest tz (date * 86400 + slotSecs * k) = some ts) : startOf tz date = ts := by
  unfold startOf
  dsimp only
  have hmidnight : date * 86400 + slotSecs * ((0 : ℕ) : ℤ) = date * 86400 := by simp
  rcases Nat.eq_zero_or_pos k with rfl | hpos
  · rw [hmidnight] at hfound
    rw [hfound]
  · have hnone := hbefore 0 hpos
    rw [hmidnight] at hnone
    rw [hnone]
    dsimp only
    rw [searchStart_eq hpos (by omega) (fun j _ hjk => hbefore j hjk) hfound, Option.getD_some]

/-- **A day starts at the first instant of its date**, or of the next date there is. -/
theorem startOf_eq_first (h : tz.Forward) (date : ℤ) :
    startOf tz date = (calendar tz).first date := by
  have hdate : date ≤ dateOf tz ((calendar tz).first date) := (calendar tz).le_date_first date
  have hslot := first_slot tz date
  have hgap := wall_first_lt tz date
  have hbefore : ∀ u < (calendar tz).first date, dateOf tz u < date := fun u hu =>
    (calendar tz).lt_first_iff.mp hu
  have hsince : ∀ u, date ≤ dateOf tz u → (calendar tz).first date ≤ u := fun u hu =>
    (calendar tz).first_le_iff.mpr hu
  obtain ⟨q, hq⟩ := tz.quarters ((calendar tz).first date)
  generalize (calendar tz).first date = first at *
  -- nothing shows the wall times of the gap
  have hnone : ∀ v, date * 86400 ≤ v → v < tz.wall first → earliest tz v = none := by
    intro v hmidnight hv
    refine earliest_eq_none fun u hu => ?_
    have hu' : dateOf tz u = v / 86400 := by rw [dateOf, hu]
    have hle := hsince u (by omega)
    have hsame : dateOf tz u = dateOf tz first := by
      have hmono : dateOf tz first ≤ dateOf tz u := dateOf_mono tz hle
      have hmax : v / 86400 ≤ dateOf tz first := Int.ediv_le_ediv (by decide) hv.le
      omega
    have hforward := h first u hle (fun x hx => (hbefore x hx).trans_le hdate) hsame
    omega
  have hfirst : earliest tz (tz.wall first) = some first := by
    refine earliest_eq_some rfl fun u hu heq => ?_
    have hu' := hbefore u hu
    rw [dateOf, heq] at hu'
    exact absurd hdate (not_le.mpr hu')
  obtain ⟨k, hk⟩ : ∃ k : ℕ, tz.wall first = date * 86400 + slotSecs * k := by
    refine ⟨((tz.wall first - date * 86400) / slotSecs).toNat, ?_⟩
    unfold dateOf at hdate
    unfold Tz.wall at hdate ⊢
    simp only [slotSecs] at hslot hq ⊢
    omega
  have hk192 : k < 192 := by
    simp only [slotSecs] at hk
    omega
  refine startOf_eq hk192 (fun j hj => hnone _ ?_ ?_) (hk ▸ hfirst)
  · simp only [slotSecs]
    omega
  · rw [hk]
    simp only [slotSecs]
    omega

/-! ### Days -/

/-- The day of a date, in a zone that goes forward. -/
theorem on_eq (h : tz.Forward) (date : ℤ) :
    Day.on tz date = ⟨date, (calendar tz).first date, (calendar tz).first (date + 1)⟩ := by
  have hle : (calendar tz).first date ≤ (calendar tz).first (date + 1) :=
    (calendar tz).first_mono (by omega)
  unfold Day.on
  rw [startOf_eq_first h, startOf_eq_first h]
  dsimp only
  rw [max_eq_left hle]

/-- **A day holds the instants of its date.** -/
theorem contains_on (h : tz.Forward) :
    (Day.on tz date).contains ts = true ↔ dateOf tz ts = date := by
  rw [on_eq h, Day.contains, Bool.and_eq_true, decide_eq_true_eq, decide_eq_true_eq]
  exact ((calendar tz).date_eq_iff).symm

theorem daysBack_eq (tz : Tz) (n : ℕ) (date : ℤ) :
    daysBack tz n date = (List.range n).map fun i : ℕ => Day.on tz (date - i) := by
  induction n generalizing date with
  | zero => rfl
  | succ n ih =>
    rw [daysBack, ih, List.range_succ_eq_map, List.map_cons, List.map_map]
    refine congrArg₂ _ (by simp) (List.map_congr_left fun i _ => ?_)
    show Day.on tz (date - 1 - i) = Day.on tz (date - (i + 1 : ℕ))
    congr 1
    omega

end Start

end Dunlin

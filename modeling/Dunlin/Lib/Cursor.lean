import Dunlin.Lib.Run
import Mathlib.Data.List.Infix
import Mathlib.Data.List.Pairwise

/-!
# A queue read through a cursor

A source keeps what is posted to it, under numbers that grow. A reader asks for what comes from its
*cursor* on, which allows the source to drop everything before. It handles the items of the answer
one by one and moves the cursor past each of them once it is handled. The cursor is stored and the
answer is not: a reader that stops in between starts again at the cursor.

## What is delivered

`log` is what was handled, in that order, and `lost` is what was handled without the cursor moving
past it. `Sound` accounts for every entry of the log: it is what was posted, in that order, and each
item is there as often as the cursor failed to move past it, and once more when the cursor is past
it or it is in hand. So nothing is skipped or overtaken, and what is repeated is repeated on the
spot (`Sound.delivered`).

## Main results

* `Sound.step` — every step keeps the account
* `Sound.delivered` — nothing is skipped or overtaken, and how often an item was repeated
-/

namespace Lib

/-- A source and its reader. -/
structure Cursor (α : Type) where
  /-- Everything posted, also what the source has dropped. -/
  posted : List α
  /-- The source has nothing left below this number. -/
  dropped : ℤ
  /-- The stored cursor: the number the next answer starts at. -/
  cursor : ℤ
  /-- What is left of the answer the reader is working on. -/
  batch : List α
  /-- The first item of the batch has been handled. -/
  inHand : Bool
  log : List α
  lost : List α

/-- What happens to a source and its reader. -/
inductive CursorStep (α : Type)
  | post (a : α)
  /-- The reader gets the items from the cursor on, but not more than `limit`. -/
  | ask (limit : ℕ)
  /-- The reader handles the next item. -/
  | handle
  /-- The cursor moves past the item in hand. -/
  | advance
  /-- The reader stops. -/
  | stop

namespace Cursor

variable {α : Type}

/-- The item in hand, if there is one. -/
def held (c : Cursor α) : List α := if c.inHand then c.batch.take 1 else []

section Numbered

variable (num : α → ℤ) (start : ℤ)

/-- What the cursor is not past. -/
def due (c : Cursor α) : List α := c.posted.filter (c.cursor ≤ num ·)

/-- What the cursor is past. -/
def behind (c : Cursor α) : List α := c.posted.filter (num · < c.cursor)

/-- One step. Numbers begin at `start` and grow. -/
def step (c : Cursor α) : CursorStep α → Cursor α
  | .post a =>
    if start ≤ num a ∧ ∀ b ∈ c.posted, num b < num a then { c with posted := c.posted ++ [a] }
    else c
  | .ask limit =>
    let dropped := max c.dropped c.cursor
    if c.batch.isEmpty then
      { c with
        dropped := dropped
        batch := (c.posted.filter (dropped ≤ num ·)).take limit
        inHand := false }
    else c
  | .handle =>
    match c.batch, c.inHand with
    | a :: _, false => { c with inHand := true, log := c.log ++ [a] }
    | _, _ => c
  | .advance =>
    match c.batch, c.inHand with
    | a :: rest, true => { c with cursor := num a + 1, batch := rest, inHand := false }
    | _, _ => c
  | .stop => { c with batch := [], inHand := false, lost := c.lost ++ c.held }

/-- A source with nothing posted, and a reader that has read nothing. -/
def initial : Cursor α := ⟨[], start, start, [], false, [], []⟩

variable [DecidableEq α]

/-- How often an item has been handled. -/
def times (c : Cursor α) (a : α) : ℕ :=
  c.lost.count a + if num a < c.cursor ∨ a ∈ c.held then 1 else 0

/-- The items of a list, each as often as `t` says. -/
def repeated (t : α → ℕ) (l : List α) : List α := l.flatMap fun a => List.replicate (t a) a

/-- What holds of a source and its reader at all times. -/
structure Sound (c : Cursor α) : Prop where
  sorted : c.posted.Pairwise (num · < num ·)
  /-- The cursor is not past anything that may still be posted. -/
  open_end : ∀ n, start ≤ n → (∀ a ∈ c.posted, num a < n) → c.cursor ≤ n
  dropped_le : c.dropped ≤ c.cursor
  batch : c.batch <+: c.due num
  /-- Only the first item that is due can have been lost. -/
  lost : ∀ a ∈ c.lost, a ∈ c.posted ∧ ∀ b ∈ c.due num, num a ≤ num b
  log : c.log = repeated (c.times num) c.posted
  length : c.log.length = (c.behind num).length + c.held.length + c.lost.length

end Numbered

/-! ### Lists in order -/

section Order

variable {num : α → ℤ}

theorem filter_lt_append_filter_le {l : List α} (h : l.Pairwise (num · < num ·)) (x : ℤ) :
    l.filter (num · < x) ++ l.filter (x ≤ num ·) = l := by
  induction l with
  | nil => rfl
  | cons a l ih =>
    obtain ⟨ha, hl⟩ := List.pairwise_cons.mp h
    by_cases hx : num a < x
    · rw [List.filter_cons_of_pos (by simpa using hx),
        List.filter_cons_of_neg (by simpa using hx), List.cons_append, ih hl]
    · have hnone : l.filter (num · < x) = [] := by
        refine List.filter_eq_nil_iff.mpr fun b hb => ?_
        have hab := ha b hb
        simp only [decide_eq_true_eq]
        omega
      have hall : l.filter (x ≤ num ·) = l := by
        refine List.filter_eq_self.mpr fun b hb => ?_
        have hab := ha b hb
        simp only [decide_eq_true_eq]
        omega
      rw [List.filter_cons_of_neg (by simpa using hx), hnone,
        List.filter_cons_of_pos (by simpa using hx), hall, List.nil_append]

variable {t t' : α → ℕ} {l l' : List α}

theorem repeated_congr (h : ∀ a ∈ l, t a = t' a) : repeated t l = repeated t' l := by
  induction l with
  | nil => rfl
  | cons a l ih =>
    show List.replicate (t a) a ++ repeated t l = List.replicate (t' a) a ++ repeated t' l
    rw [h a List.mem_cons_self, ih fun b hb => h b (List.mem_cons_of_mem a hb)]

theorem repeated_append : repeated t (l ++ l') = repeated t l ++ repeated t l' :=
  List.flatMap_append

theorem repeated_cons (a : α) : repeated t (a :: l) = List.replicate (t a) a ++ repeated t l := rfl

theorem repeated_eq_nil (h : ∀ a ∈ l, t a = 0) : repeated t l = [] := by
  refine List.flatMap_eq_nil_iff.mpr fun a ha => ?_
  rw [h a ha, List.replicate_zero]

/-- One item once more, where nothing after it is there yet. -/
theorem repeated_once_more {a : α} (hl : ∀ b ∈ l, t b = t' b) (ha : t' a = t a + 1)
    (hl' : ∀ b ∈ l', t b = 0 ∧ t' b = 0) :
    repeated t (l ++ a :: l') ++ [a] = repeated t' (l ++ a :: l') := by
  rw [repeated_append, repeated_append, repeated_cons, repeated_cons, repeated_congr hl, ha,
    repeated_eq_nil fun b hb => (hl' b hb).1, repeated_eq_nil fun b hb => (hl' b hb).2,
    List.replicate_succ', List.append_nil, List.append_nil, List.append_assoc]

end Order

/-! ### Every step keeps it -/

section Steps

variable {num : α → ℤ} {start : ℤ} {c : Cursor α} {a : α} {rest : List α}

theorem mem_due {b : α} : b ∈ c.due num ↔ b ∈ c.posted ∧ c.cursor ≤ num b := by
  rw [due, List.mem_filter, decide_eq_true_eq]

theorem mem_behind {b : α} : b ∈ c.behind num ↔ b ∈ c.posted ∧ num b < c.cursor := by
  rw [behind, List.mem_filter, decide_eq_true_eq]

theorem length_held_le (c : Cursor α) : c.held.length ≤ 1 := by
  rw [held]
  split
  · exact List.length_take_le 1 c.batch
  · exact Nat.zero_le 1

theorem mem_held {b : α} (hb : c.batch = a :: rest) (h : b ∈ c.held) : b = a := by
  rw [held, hb] at h
  split at h
  · exact List.mem_singleton.mp h
  · exact absurd h List.not_mem_nil

theorem held_of_nil (hb : c.batch = []) : c.held = [] := by
  rw [held, hb]
  split <;> rfl

theorem held_of_inHand (hb : c.batch = a :: rest) (hh : c.inHand = true) : c.held = [a] := by
  rw [held, if_pos hh, hb]
  rfl

theorem held_of_not_inHand (hh : c.inHand = false) : c.held = [] := by
  rw [held, hh]
  rfl

/-- A step loses one item at most, and only where the reader stops. -/
theorem length_lost_stop (num : α → ℤ) (start : ℤ) (c : Cursor α) :
    (c.step num start .stop).lost.length ≤ c.lost.length + 1 := by
  show (c.lost ++ c.held).length ≤ c.lost.length + 1
  rw [List.length_append]
  have hone := c.length_held_le
  omega

/-- The reader gets an answer. -/
theorem step_ask (hb : c.batch = []) (limit : ℕ) : c.step num start (.ask limit) =
    { c with
      dropped := max c.dropped c.cursor
      batch := (c.posted.filter (max c.dropped c.cursor ≤ num ·)).take limit
      inHand := false } := by
  show (if c.batch.isEmpty then _ else c) = _
  rw [hb]
  rfl

/-- The reader handles the next item. -/
theorem step_handle (hb : c.batch = a :: rest) (hh : c.inHand = false) :
    c.step num start .handle =
      { c with
        inHand := true
        log := c.log ++ [a] } := by
  simp only [step, hb, hh]

/-- The cursor moves past the item in hand. -/
theorem step_advance (hb : c.batch = a :: rest) (hh : c.inHand = true) :
    c.step num start .advance =
      { c with
        cursor := num a + 1
        batch := rest
        inHand := false } := by
  simp only [step, hb, hh]

variable [DecidableEq α]

/-- What was posted, taken apart at the cursor. -/
theorem Sound.posted_eq (h : c.Sound num start) : c.behind num ++ c.due num = c.posted :=
  filter_lt_append_filter_le h.sorted _

theorem Sound.take_behind (h : c.Sound num start) :
    c.posted.take (c.behind num).length = c.behind num := by
  rw [← h.posted_eq]
  exact List.take_left' rfl

/-- The next item of a batch is the first that is due, and the others come later. -/
theorem Sound.due_eq (h : c.Sound num start) (hb : c.batch = a :: rest) :
    ∃ later, c.due num = a :: later ∧ rest <+: later ∧ ∀ b ∈ later, num a < num b := by
  obtain ⟨later, hlater⟩ := h.batch
  rw [hb, List.cons_append] at hlater
  have hsorted : (c.due num).Pairwise (num · < num ·) := h.sorted.filter _
  rw [← hlater] at hsorted
  exact ⟨rest ++ later, hlater.symm, List.prefix_append rest later,
    fun b hb => List.rel_of_pairwise_cons hsorted hb⟩

/-- The item in hand is the first that is due. -/
theorem Sound.due_of_held (h : c.Sound num start) {b : α} (hb : b ∈ c.held) :
    ∃ later, c.due num = b :: later ∧ ∀ d ∈ later, num b < num d := by
  cases hbatch : c.batch with
  | nil =>
    rw [held_of_nil hbatch] at hb
    exact absurd hb List.not_mem_nil
  | cons a rest =>
    obtain rfl := mem_held hbatch hb
    obtain ⟨later, hdue, -, hlt⟩ := h.due_eq hbatch
    exact ⟨later, hdue, hlt⟩

/-- What the cursor is not past once it has moved past the first item that is due, and what it is
past then. -/
theorem Sound.filter_past (h : c.Sound num start) {later : List α} (hdue : c.due num = a :: later)
    (hlt : ∀ b ∈ later, num a < num b) :
    c.posted.filter (num a + 1 ≤ num ·) = later ∧
      c.posted.filter (num · < num a + 1) = c.behind num ++ [a] := by
  have hcur : c.cursor ≤ num a := (mem_due.mp (hdue ▸ List.mem_cons_self : a ∈ c.due num)).2
  have hposted : c.behind num ++ a :: later = c.posted := hdue ▸ h.posted_eq
  have hbehind : ∀ b ∈ c.behind num, num b < num a := fun b hb =>
    Int.lt_of_lt_of_le (mem_behind.mp hb).2 hcur
  constructor
  · have ha : ¬num a + 1 ≤ num a := by omega
    rw [← hposted, List.filter_append, List.filter_cons_of_neg (by rwa [decide_eq_true_eq]),
      List.filter_eq_nil_iff.mpr, List.filter_eq_self.mpr, List.nil_append]
    · exact fun b hb => decide_eq_true (hlt b hb)
    · intro b hb
      have hab := hbehind b hb
      simp only [decide_eq_true_eq]
      omega
  · have ha : num a < num a + 1 := Int.lt_succ _
    rw [← hposted, List.filter_append, List.filter_cons_of_pos (by rwa [decide_eq_true_eq]),
      List.filter_eq_self.mpr, List.filter_eq_nil_iff.mpr]
    · intro b hb
      have hab := hlt b hb
      simp only [decide_eq_true_eq]
      omega
    · exact fun b hb => decide_eq_true (Int.lt_trans (hbehind b hb) ha)

/-- The number of a posted item is its own. -/
theorem Sound.eq_of_num (h : c.Sound num start) {b : α} (ha : a ∈ c.posted) (hb : b ∈ c.posted)
    (heq : num a = num b) : a = b := by
  by_contra hne
  have : Std.Symm fun a b : α => num a ≠ num b := ⟨fun _ _ h => h.symm⟩
  exact List.Pairwise.forall (h.sorted.imp fun hlt => Int.ne_of_lt hlt) ha hb hne heq

/-- An item that is due after the first has not been handled. -/
theorem Sound.times_later (h : c.Sound num start) {later : List α} (hdue : c.due num = a :: later)
    (hlt : ∀ b ∈ later, num a < num b) (hheld : ∀ b ∈ c.held, b = a) {b : α} (hb : b ∈ later) :
    c.times num b = 0 := by
  have hmem : b ∈ c.due num := by
    rw [hdue]
    exact List.mem_cons_of_mem a hb
  have hlost : b ∉ c.lost := by
    intro hlost
    have hle := (h.lost b hlost).2 a (hdue ▸ List.mem_cons_self)
    have hab := hlt b hb
    omega
  rw [times, List.count_eq_zero_of_not_mem hlost, if_neg]
  rintro (hcur | hb')
  · have hge := (mem_due.mp hmem).2
    omega
  · obtain rfl := hheld b hb'
    exact absurd (hlt b hb) (Int.lt_irrefl _)

theorem Sound.post (h : c.Sound num start) (a : α) :
    (c.step num start (.post a)).Sound num start := by
  show (if start ≤ num a ∧ ∀ b ∈ c.posted, num b < num a then { c with posted := c.posted ++ [a] }
    else c).Sound num start
  split
  case isFalse => exact h
  rename_i hnew
  obtain ⟨hstart, hlt⟩ := hnew
  have hcur : c.cursor ≤ num a := h.open_end _ hstart hlt
  have hdue : ({ c with posted := c.posted ++ [a] } : Cursor α).due num = c.due num ++ [a] := by
    rw [due, List.filter_append, List.filter_cons_of_pos (by simpa using hcur), List.filter_nil]
    rfl
  have hbehind : ({ c with posted := c.posted ++ [a] } : Cursor α).behind num = c.behind num := by
    rw [behind, List.filter_append, List.filter_cons_of_neg (by simpa using hcur), List.filter_nil,
      List.append_nil]
    rfl
  have hheld : ∀ b ∈ c.held, b ∈ c.posted := by
    intro b hb
    obtain ⟨later, hdue, -⟩ := h.due_of_held hb
    exact (mem_due.mp (hdue ▸ List.mem_cons_self : b ∈ c.due num)).1
  have hfresh : a ∉ c.posted := fun hmem => Int.lt_irrefl _ (hlt a hmem)
  have htimes : c.times num a = 0 := by
    rw [times, List.count_eq_zero_of_not_mem fun hl => hfresh (h.lost a hl).1, if_neg]
    rintro (hlt' | hmem)
    · omega
    · exact hfresh (hheld a hmem)
  constructor
  · refine List.pairwise_append.mpr ⟨h.sorted, List.pairwise_singleton _ _, fun b hb a' ha' => ?_⟩
    obtain rfl := List.mem_singleton.mp ha'
    exact hlt b hb
  · exact fun n hn hall => h.open_end n hn fun b hb => hall b (List.mem_append_left _ hb)
  · exact h.dropped_le
  · rw [hdue]
    exact h.batch.trans (List.prefix_append _ _)
  · intro b hb
    obtain ⟨hmem, hle⟩ := h.lost b hb
    refine ⟨List.mem_append_left _ hmem, fun d hd => ?_⟩
    rw [hdue, List.mem_append] at hd
    rcases hd with hd | hd
    · exact hle d hd
    · obtain rfl := List.mem_singleton.mp hd
      exact Int.le_of_lt (hlt b hmem)
  · show c.log = repeated (c.times num) (c.posted ++ [a])
    rw [repeated_append, repeated_cons, htimes, h.log]
    simp [repeated]
  · rw [hbehind]
    exact h.length

theorem Sound.ask (h : c.Sound num start) (limit : ℕ) :
    (c.step num start (.ask limit)).Sound num start := by
  show (if c.batch.isEmpty then _ else c).Sound num start
  split
  case isFalse => exact h
  rename_i hempty
  have hmax : max c.dropped c.cursor = c.cursor := Int.max_eq_right h.dropped_le
  have hnone : c.held = [] := held_of_nil (List.isEmpty_iff.mp hempty)
  rw [hmax]
  constructor
  · exact h.sorted
  · exact h.open_end
  · exact Int.le_refl _
  · exact List.take_prefix _ _
  · exact h.lost
  · show c.log = _
    rw [h.log]
    refine repeated_congr fun b _ => ?_
    rw [times, times, hnone]
    rfl
  · show c.log.length = (c.behind num).length + 0 + c.lost.length
    rw [h.length, hnone]
    rfl

theorem Sound.handle (h : c.Sound num start) : (c.step num start .handle).Sound num start := by
  cases hb : c.batch with
  | nil =>
    have hsame : c.step num start .handle = c := by
      simp only [step, hb]
    rwa [hsame]
  | cons a rest =>
    cases hh : c.inHand with
    | true =>
      have hsame : c.step num start .handle = c := by
        simp only [step, hb, hh]
      rwa [hsame]
    | false =>
      rw [step_handle hb hh]
      obtain ⟨later, hdue, -, hlt⟩ := h.due_eq hb
      have hcur : c.cursor ≤ num a := (mem_due.mp (hdue ▸ List.mem_cons_self : a ∈ c.due num)).2
      have hheld : ({ c with inHand := true, log := c.log ++ [a] } : Cursor α).held = [a] :=
        held_of_inHand hb rfl
      have hnone : c.held = [] := held_of_not_inHand hh
      have hposted : c.behind num ++ a :: later = c.posted := hdue ▸ h.posted_eq
      refine ⟨h.sorted, h.open_end, h.dropped_le, h.batch, h.lost, ?_, ?_⟩
      · show c.log ++ [a] = repeated _ c.posted
        have hlog : c.log ++ [a] = repeated (c.times num) (c.behind num ++ a :: later) ++ [a] := by
          rw [hposted, ← h.log]
        refine hlog.trans ((repeated_once_more (fun b hb' => ?_) ?_ fun b hb' => ?_).trans
          (congrArg (repeated _) hposted))
        · have hlt' := (mem_behind.mp hb').2
          rw [times, times, if_pos (.inl hlt'), if_pos (.inl hlt')]
        · rw [times, times, hheld, hnone, if_pos (.inr (List.mem_singleton.mpr rfl)), if_neg]
          rintro (hlt' | hmem)
          · omega
          · exact absurd hmem List.not_mem_nil
        · have hzero := h.times_later hdue hlt (fun d hd => mem_held hb hd) hb'
          refine ⟨hzero, ?_⟩
          rw [times, Nat.add_eq_zero_iff] at hzero
          rw [times, hheld, hzero.1, if_neg]
          rintro (hlt' | hmem)
          · exact absurd hzero.2 (by rw [if_pos (.inl hlt')]; exact Nat.one_ne_zero)
          · obtain rfl := List.mem_singleton.mp hmem
            exact absurd (hlt b hb') (Int.lt_irrefl _)
      · show (c.log ++ [a]).length = (c.behind num).length + _ + c.lost.length
        rw [hheld, List.length_append, h.length, hnone]
        simp only [List.length_nil, List.length_singleton]
        omega

theorem Sound.advance (h : c.Sound num start) : (c.step num start .advance).Sound num start := by
  cases hb : c.batch with
  | nil =>
    have hsame : c.step num start .advance = c := by
      simp only [step, hb]
    rwa [hsame]
  | cons a rest =>
    cases hh : c.inHand with
    | false =>
      have hsame : c.step num start .advance = c := by
        simp only [step, hb, hh]
      rwa [hsame]
    | true =>
      rw [step_advance hb hh]
      obtain ⟨later, hdue, hrest, hlt⟩ := h.due_eq hb
      obtain ⟨hmem, hcur⟩ := mem_due.mp (hdue ▸ List.mem_cons_self : a ∈ c.due num)
      have hheld : c.held = [a] := held_of_inHand hb hh
      have hposted : c.behind num ++ a :: later = c.posted := hdue ▸ h.posted_eq
      have hpast : ∀ b ∈ c.posted, num b < num a + 1 ↔ num b < c.cursor ∨ b = a := by
        intro b hbp
        rw [← hposted, List.mem_append, List.mem_cons] at hbp
        rcases hbp with hbp | rfl | hbp
        · have hb' := (mem_behind.mp hbp).2
          exact iff_of_true (by omega) (.inl hb')
        · exact iff_of_true (by omega) (.inr rfl)
        · have hab := hlt b hbp
          refine iff_of_false (by omega) ?_
          rintro (hlt' | rfl)
          · omega
          · omega
      obtain ⟨hdue', hbehind'⟩ := h.filter_past hdue hlt
      constructor
      · exact h.sorted
      · intro n _ hall
        have han := hall a hmem
        show num a + 1 ≤ n
        omega
      · show c.dropped ≤ num a + 1
        have hle := h.dropped_le
        omega
      · show rest <+: c.posted.filter (num a + 1 ≤ num ·)
        rw [hdue']
        exact hrest
      · intro b hb'
        obtain ⟨hbp, hle⟩ := h.lost b hb'
        refine ⟨hbp, fun d hd => ?_⟩
        have hd : d ∈ later := hdue' ▸ hd
        exact Int.le_trans (hle a (hdue ▸ List.mem_cons_self)) (Int.le_of_lt (hlt d hd))
      · show c.log = _
        rw [h.log]
        refine repeated_congr fun b hbp => ?_
        rw [times, times, hheld]
        refine congrArg (c.lost.count b + ·) (if_congr ?_ rfl rfl)
        rw [List.mem_singleton, ← hpast b hbp]
        exact (or_iff_left List.not_mem_nil).symm
      · show c.log.length = (c.posted.filter (num · < num a + 1)).length + 0 + c.lost.length
        rw [hbehind', h.length, hheld, List.length_append]
        rfl

theorem Sound.stop (h : c.Sound num start) : (c.step num start .stop).Sound num start := by
  show ({ c with
    batch := []
    inHand := false
    lost := c.lost ++ c.held } : Cursor α).Sound num start
  have hcount : ∀ b, c.held.count b = if b ∈ c.held then 1 else 0 := by
    intro b
    rw [held]
    split
    · cases c.batch with
      | nil => rfl
      | cons a rest =>
        show List.count b [a] = if b ∈ [a] then 1 else 0
        by_cases hab : b = a
        · rw [if_pos (List.mem_singleton.mpr hab), hab, List.count_singleton_self]
        · rw [if_neg fun hmem => hab (List.mem_singleton.mp hmem)]
          exact List.count_eq_zero_of_not_mem fun hmem => hab (List.mem_singleton.mp hmem)
    · rfl
  refine ⟨h.sorted, h.open_end, h.dropped_le, List.nil_prefix, fun b hb => ?_, ?_, ?_⟩
  · rcases List.mem_append.mp hb with hb | hb
    · exact h.lost b hb
    · obtain ⟨later, hdue, hlt⟩ := h.due_of_held hb
      refine ⟨(mem_due.mp (hdue ▸ List.mem_cons_self : b ∈ c.due num)).1, fun d hd => ?_⟩
      rcases List.mem_cons.mp (hdue ▸ hd : d ∈ b :: later) with rfl | hd
      · exact Int.le_refl _
      · exact Int.le_of_lt (hlt d hd)
  · show c.log = _
    rw [h.log]
    refine repeated_congr fun b _ => ?_
    show c.lost.count b + _ = (c.lost ++ c.held).count b +
      if num b < c.cursor ∨ b ∈ [] then 1 else 0
    rw [List.count_append, hcount b, Nat.add_assoc]
    refine congrArg (c.lost.count b + ·) ?_
    by_cases hb : b ∈ c.held
    · obtain ⟨later, hdue, -⟩ := h.due_of_held hb
      have hcur := (mem_due.mp (hdue ▸ List.mem_cons_self : b ∈ c.due num)).2
      rw [if_pos (.inr hb), if_pos hb, if_neg]
      rintro (hlt | hmem)
      · omega
      · exact absurd hmem List.not_mem_nil
    · rw [if_neg hb, Nat.zero_add]
      refine if_congr ?_ rfl rfl
      rw [or_iff_left hb, or_iff_left List.not_mem_nil]
  · show c.log.length = (c.behind num).length + 0 + (c.lost ++ c.held).length
    rw [h.length, List.length_append]
    omega

/-- **Every step keeps it.** -/
theorem Sound.step (h : c.Sound num start) (s : CursorStep α) :
    (c.step num start s).Sound num start := by
  cases s with
  | post a => exact h.post a
  | ask limit => exact h.ask limit
  | handle => exact h.handle
  | advance => exact h.advance
  | stop => exact h.stop

theorem sound_initial : (initial start : Cursor α).Sound num start where
  sorted := .nil
  open_end := fun _ hn _ => hn
  dropped_le := Int.le_refl start
  batch := List.nil_prefix
  lost := fun _ ha => absurd ha List.not_mem_nil
  log := rfl
  length := rfl

end Steps

/-! ### What is delivered -/

section Delivery

variable {num : α → ℤ} {start : ℤ} [DecidableEq α] {c : Cursor α}

/-- **Nothing is skipped or overtaken.** What was handled is what was posted up to some point, in
that order, each item at least once; the cursor is past nothing else; and every repetition is a move
of the cursor that was lost. -/
theorem Sound.delivered (h : c.Sound num start) :
    ∃ n, c.log = repeated (c.times num) (c.posted.take n) ∧
      (∀ a ∈ c.posted.take n, 0 < c.times num a) ∧
      (∀ a ∈ c.posted, num a < c.cursor → a ∈ c.posted.take n) ∧
      c.log.length ≤ (c.posted.take n).length + c.lost.length := by
  have hlog := h.log
  rw [← h.posted_eq] at hlog
  have hpast : ∀ a ∈ c.behind num, 0 < c.times num a := by
    intro a ha
    rw [times, if_pos (.inl (mem_behind.mp ha).2)]
    omega
  by_cases hnone : ∀ a ∈ c.due num, c.times num a = 0
  · -- nothing that is due has been handled
    have hheld : c.held = [] := by
      refine List.eq_nil_iff_forall_not_mem.mpr fun b hb => ?_
      obtain ⟨later, hdue, -⟩ := h.due_of_held hb
      have hzero := hnone b (hdue ▸ List.mem_cons_self)
      rw [times, if_pos (.inr hb)] at hzero
      omega
    rw [repeated_append, repeated_eq_nil hnone, List.append_nil] at hlog
    refine ⟨(c.behind num).length, ?_⟩
    rw [h.take_behind]
    refine ⟨hlog, hpast, fun b hb hcur => mem_behind.mpr ⟨hb, hcur⟩, ?_⟩
    rw [h.length, hheld]
    simp
  · cases hdue : c.due num with
    | nil =>
      rw [hdue] at hnone
      exact absurd (fun a ha => absurd ha List.not_mem_nil) hnone
    | cons a later =>
      have hsorted : (c.due num).Pairwise (num · < num ·) := h.sorted.filter _
      rw [hdue] at hsorted
      have hlt : ∀ b ∈ later, num a < num b := fun b hb => List.rel_of_pairwise_cons hsorted hb
      have hheld : ∀ b ∈ c.held, b = a := by
        intro b hb
        obtain ⟨later', hdue', -⟩ := h.due_of_held hb
        exact (List.cons.inj (hdue'.symm.trans hdue)).1
      -- only the first one can have been handled, and it has been
      have hzero : ∀ b ∈ later, c.times num b = 0 := fun b => h.times_later hdue hlt hheld
      have ha : c.times num a ≠ 0 := fun ha => hnone (hdue ▸ List.forall_mem_cons.mpr ⟨ha, hzero⟩)
      have htake : c.posted.take (c.behind num ++ [a]).length = c.behind num ++ [a] := by
        have hposted : c.posted = (c.behind num ++ [a]) ++ later := by
          rw [← h.posted_eq, hdue]
          exact List.append_cons _ _ _
        rw [hposted]
        exact List.take_left' rfl
      rw [hdue, repeated_append, repeated_cons, repeated_eq_nil hzero, List.append_nil] at hlog
      refine ⟨(c.behind num ++ [a]).length, ?_⟩
      rw [htake]
      refine ⟨?_, ?_, ?_, ?_⟩
      · rw [repeated_append, repeated_cons, hlog]
        simp [repeated]
      · intro b hb
        rcases List.mem_append.mp hb with hb | hb
        · exact hpast b hb
        · obtain rfl := List.mem_singleton.mp hb
          exact Nat.pos_of_ne_zero ha
      · exact fun b hb hcur => List.mem_append_left _ (mem_behind.mpr ⟨hb, hcur⟩)
      · have hone := c.length_held_le
        rw [h.length, List.length_append, List.length_singleton]
        omega

end Delivery

end Cursor

end Lib

import Dunlin.Config
import Dunlin.Lib.Floating
import Dunlin.Lib.Numeral
import Mathlib.Algebra.BigOperators.Group.List.Basic

/-!
# Durations in the config

The model of `parse_duration` in `config.rs`. The text is a list of characters and a slice of it a
prefix or what is left of one. The numbers are read, multiplied and added by a parameter, an
`Arith`: the code's own are floats and `std::time::Duration`, whose operations panic outside their
range. `Arith.exact` has the rational numbers instead.

`DurationGroup` is the grammar of one group. `parseDuration_eq_ok_iff` says for every arithmetic
what is accepted, and `durations_grammar` for the exact one with the value.

## Scope

Messages of errors quote the text as `{:?}` does (`debugStr`). `Arith.machine` is the code's own
arithmetic; when it panics is in `Reload`, next to what a panic does.

## Main results

* `takeGroup_eq_ok_iff` — a round of the loop takes one group
* `parseDuration_eq_ok_iff`, `parseDuration_eq_panicked_iff` — what is accepted and what panics,
  for every arithmetic
* `isOk_iff_exact` — which texts are accepted does not depend on it, but for panics
* `durations_grammar` — the grammar, with the values
-/

namespace Dunlin

open Lib

/-- How a call fails. -/
inductive Fault
  | error (message : String)
  | panicked
  deriving DecidableEq, Repr

/-- The arithmetic of `parse_duration`, with numbers in `F` and durations in `V`. An operation
without a result panics. -/
structure Arith (F V : Type) where
  /-- The number nearest to a decimal fraction. -/
  read : ℚ → F
  fromSecs : ℕ → V
  mul : Duration → F → Option V
  add : V → V → Option V

/-- Durations in seconds. -/
def Arith.exact : Arith ℚ ℚ where
  read := id
  fromSecs n := n
  mul mult value := some (mult.nanos / 1000000000 * value)
  add a b := some (a + b)

/-- `Duration::as_secs_f64`. -/
def Duration.asSecsF64 (d : Duration) : Floating :=
  binary64.add (binary64.round d.asSecs)
    (binary64.round ((d.nanos % 1000000000 : ℕ) / 1000000000))

/-- `Duration::try_from_secs_f64`, for what is not negative. -/
def Duration.ofSecsF64 : Floating → Option Duration
  | .finite secs => if secs < 2 ^ 64 then some ⟨roundHalfEven (secs * 1000000000)⟩ else none
  | .infinity | .nan => none

/-- `Duration::checked_add`. -/
def Duration.checkedAdd (a b : Duration) : Option Duration :=
  if a.nanos + b.nanos ≤ durationMax then some ⟨a.nanos + b.nanos⟩ else none

/-- The code's arithmetic: floats, and durations that overflow. -/
def Arith.machine : Arith Floating Duration where
  read := binary64.round
  fromSecs := Duration.fromSecs
  mul mult value := Duration.ofSecsF64 (binary64.mul value mult.asSecsF64)
  add := Duration.checkedAdd

/-! ### The parser -/

def inNumber (c : Char) : Bool := c.isDigit || c == '.'

/-- The unit as a duration. -/
def multiplier : String → Option Duration
  | "ms" => some ⟨1000000⟩
  | "s" => some (.fromSecs 1)
  | "m" => some (.fromSecs 60)
  | "h" => some (.fromSecs 3600)
  | "d" => some (.fromSecs 86400)
  | _ => none

/-- A number and a unit from the front of `rest`, and what is left. -/
def takeGroup (s : String) (rest : List Char) : Except String (ℚ × Duration × List Char) :=
  let num := rest.takeWhile inNumber
  let tail := rest.dropWhile inNumber
  if num = [] then .error s!"duration {debugStr s} is malformed"
  else
    match parseFraction num with
    | none => .error s!"invalid number in duration {debugStr s}"
    | some value =>
      let unit := String.ofList (tail.takeWhile fun c => !inNumber c)
      match multiplier unit with
      | none => .error s!"unknown duration unit {debugStr unit} in {debugStr s}"
      | some mult => .ok (value.value, mult, tail.dropWhile fun c => !inNumber c)

/-- A round of the loop leaves less of the text. -/
theorem length_lt_of_takeGroup {s : String} {rest rest' : List Char} {value : ℚ} {mult : Duration}
    (h : takeGroup s rest = .ok (value, mult, rest')) : rest'.length < rest.length := by
  unfold takeGroup at h
  dsimp only at h
  split at h
  · cases h
  · rename_i hnum
    have htail : (rest.dropWhile inNumber).length < rest.length := by
      have hsplit := congrArg List.length
        (List.takeWhile_append_dropWhile (p := inNumber) (l := rest))
      rw [List.length_append] at hsplit
      have hpos := List.length_pos_of_ne_nil hnum
      omega
    split at h
    · cases h
    · split at h
      · cases h
      · cases h
        exact (List.dropWhile_suffix _).length_le.trans_lt htail

variable {F V : Type} (A : Arith F V)

/-- The loop. -/
def parseGroups (s : String) (total : V) (rest : List Char) : Except Fault V :=
  if rest = [] then .ok total
  else
    match _h : takeGroup s rest with
    | .error message => .error (.error message)
    | .ok (value, mult, rest') =>
      match (A.mul mult (A.read value)).bind (A.add total) with
      | none => .error .panicked
      | some total => parseGroups s total rest'
termination_by rest.length
decreasing_by exact length_lt_of_takeGroup _h

section Loop

variable {A} {s : String} {total : V} {rest rest' : List Char} {value : ℚ} {mult : Duration}

theorem parseGroups_nil : parseGroups A s total [] = .ok total := by
  rw [parseGroups, if_pos rfl]

theorem parseGroups_of_error {message : String} (hne : rest ≠ [])
    (h : takeGroup s rest = .error message) :
    parseGroups A s total rest = .error (.error message) := by
  rw [parseGroups, if_neg hne]
  split
  · rename_i herr
    cases h.symm.trans herr
    rfl
  · rename_i hok
    cases h.symm.trans hok

theorem parseGroups_of_ok (h : takeGroup s rest = .ok (value, mult, rest')) :
    parseGroups A s total rest =
      match (A.mul mult (A.read value)).bind (A.add total) with
      | none => .error .panicked
      | some total => parseGroups A s total rest' := by
  have hne : rest ≠ [] :=
    List.ne_nil_of_length_pos ((Nat.zero_le _).trans_lt (length_lt_of_takeGroup h))
  rw [parseGroups, if_neg hne]
  split
  · rename_i herr
    cases h.symm.trans herr
  · rename_i hok
    cases h.symm.trans hok
    rfl

end Loop

def parseDuration (s : String) : Except Fault V :=
  let s := trim s
  if s = "" then .error (.error "empty duration")
  else
    match parseUnsigned (2 ^ 64) s.toList with
    | some secs => .ok (A.fromSecs secs)
    | none => parseGroups A s (A.fromSecs 0) s.toList

/-! ### The grammar -/

inductive TimeUnit
  | ms
  | s
  | m
  | h
  | d
  deriving DecidableEq, Repr

namespace TimeUnit

def text : TimeUnit → List Char
  | .ms => ['m', 's']
  | .s => ['s']
  | .m => ['m']
  | .h => ['h']
  | .d => ['d']

def duration : TimeUnit → Duration
  | .ms => ⟨1000000⟩
  | .s => .fromSecs 1
  | .m => .fromSecs 60
  | .h => .fromSecs 3600
  | .d => .fromSecs 86400

variable {u : TimeUnit} {c : Char}

theorem text_ne_nil (u : TimeUnit) : u.text ≠ [] := by cases u <;> exact List.cons_ne_nil _ _

/-- The letters of the units. -/
theorem text_subset (u : TimeUnit) : u.text ⊆ ['m', 's', 'h', 'd'] := by cases u <;> decide

theorem not_inNumber (h : c ∈ u.text) : inNumber c = false := by
  have hall : ['m', 's', 'h', 'd'].all (fun c => !inNumber c) = true := rfl
  simpa using List.all_eq_true.mp hall c (text_subset u h)

theorem ne_plus (h : c ∈ u.text) : c ≠ '+' := by
  rintro rfl
  exact absurd (text_subset u h) (by decide)

theorem visible (h : c ∈ u.text) : isWhitespace c = false := by
  have hall : ['m', 's', 'h', 'd'].all (fun c => !isWhitespace c) = true := rfl
  simpa using List.all_eq_true.mp hall c (text_subset u h)

end TimeUnit

theorem multiplier_text (u : TimeUnit) : multiplier (String.ofList u.text) = some u.duration := by
  cases u <;> rfl

theorem exists_of_multiplier {unit : String} {mult : Duration} (h : multiplier unit = some mult) :
    ∃ u : TimeUnit, unit = String.ofList u.text ∧ mult = u.duration := by
  unfold multiplier at h
  split at h
  · cases h; exact ⟨.ms, rfl, rfl⟩
  · cases h; exact ⟨.s, rfl, rfl⟩
  · cases h; exact ⟨.m, rfl, rfl⟩
  · cases h; exact ⟨.h, rfl, rfl⟩
  · cases h; exact ⟨.d, rfl, rfl⟩
  · cases h

/-- A number directly followed by a unit. -/
structure DurationGroup where
  number : Fraction
  unit : TimeUnit

namespace DurationGroup

def text (g : DurationGroup) : List Char := g.number.text ++ g.unit.text

def seconds (g : DurationGroup) : ℚ := g.unit.duration.nanos / 1000000000 * g.number.value

def texts (gs : List DurationGroup) : List Char := gs.flatMap text

theorem texts_cons (g : DurationGroup) (gs : List DurationGroup) :
    texts (g :: gs) = g.text ++ texts gs := List.flatMap_cons

theorem texts_ne_nil {gs : List DurationGroup} (h : gs ≠ []) : texts gs ≠ [] := by
  obtain ⟨g, gs, rfl⟩ := List.exists_cons_of_ne_nil h
  exact List.append_ne_nil_of_left_ne_nil
    (List.append_ne_nil_of_left_ne_nil g.number.text_ne_nil _) _

theorem texts_append (gs gs' : List DurationGroup) : texts (gs ++ gs') = texts gs ++ texts gs' :=
  List.flatMap_append

/-- The text ends here or goes on with a number. -/
def AtNumber (l : List Char) : Prop := ∀ c ∈ l.head?, inNumber c = true

theorem inNumber_of_mem {f : Fraction} {c : Char} (h : c ∈ f.text) : inNumber c = true := by
  rcases Fraction.mem_text h with h | rfl
  · rw [inNumber, h, Bool.true_or]
  · rfl

theorem atNumber_texts (gs : List DurationGroup) {l : List Char} (h : AtNumber l) :
    AtNumber (texts gs ++ l) := by
  cases gs with
  | nil => exact h
  | cons g gs =>
    intro c hc
    obtain ⟨c', l', hcons⟩ := List.exists_cons_of_ne_nil g.number.text_ne_nil
    rw [texts_cons, text, hcons] at hc
    obtain rfl : c' = c := Option.some_inj.mp hc
    refine inNumber_of_mem (f := g.number) ?_
    rw [hcons]
    exact List.mem_cons_self

theorem atNumber_nil : AtNumber [] := fun _ h => absurd h (Option.not_mem_none _)

end DurationGroup

open DurationGroup

/-- A group is read as it is written. -/
theorem takeGroup_text (s : String) (g : DurationGroup) {rest : List Char} (h : AtNumber rest) :
    takeGroup s (g.text ++ rest) = .ok (g.number.value, g.unit.duration, rest) := by
  have hunit : ∀ c ∈ (g.unit.text ++ rest).head?, inNumber c = false := by
    obtain ⟨c', l', hcons⟩ := List.exists_cons_of_ne_nil g.unit.text_ne_nil
    intro c hc
    rw [hcons] at hc
    obtain rfl : c' = c := Option.some_inj.mp hc
    refine TimeUnit.not_inNumber (u := g.unit) ?_
    rw [hcons]
    exact List.mem_cons_self
  obtain ⟨hnum, htail⟩ := takeWhile_append_stop (fun _ => inNumber_of_mem (f := g.number)) hunit
  have hletters : ∀ c ∈ g.unit.text, (!inNumber c) = true := by
    intro c hc
    rw [TimeUnit.not_inNumber hc, Bool.not_false]
  have hrest : ∀ c ∈ rest.head?, (!inNumber c) = false := by
    intro c hc
    rw [h c hc, Bool.not_true]
  obtain ⟨htake, hdrop⟩ := takeWhile_append_stop hletters hrest
  rw [takeGroup, DurationGroup.text]
  simp only [List.append_assoc, hnum, htail, if_neg g.number.text_ne_nil, parseFraction_text, htake,
    hdrop, multiplier_text]

/-- What a round of the loop takes is a group. -/
theorem takeGroup_eq_ok_iff {s : String} {rest rest' : List Char} {value : ℚ} {mult : Duration} :
    takeGroup s rest = .ok (value, mult, rest') ↔
      ∃ g : DurationGroup, rest = g.text ++ rest' ∧ AtNumber rest' ∧ value = g.number.value ∧
        mult = g.unit.duration := by
  constructor
  · intro h
    unfold takeGroup at h
    dsimp only at h
    split at h
    · cases h
    · split at h
      · cases h
      · rename_i number hnumber
        split at h
        · cases h
        · rename_i mult hmult
          cases h
          obtain ⟨u, hu, rfl⟩ := exists_of_multiplier hmult
          refine ⟨⟨number, u⟩, ?_, ?_, rfl, rfl⟩
          · rw [DurationGroup.text, parseFraction_eq_some_iff.mp hnumber,
              ← String.ofList_injective hu, List.append_assoc, List.takeWhile_append_dropWhile,
              List.takeWhile_append_dropWhile]
          · intro c hc
            have hstop := List.head?_dropWhile_not (fun c => !inNumber c)
              (rest.dropWhile inNumber)
            rw [Option.mem_def.mp hc] at hstop
            simpa using hstop
  · rintro ⟨g, rfl, h, rfl, rfl⟩
    exact takeGroup_text s g h

/-! ### What is accepted -/

section Accepted

variable {A} {s : String} {total v : V} {rest tail : List Char} {gs : List DurationGroup}

/-- A total with the groups added to it. -/
def Arith.sum (A : Arith F V) (total : V) (gs : List DurationGroup) : Option V :=
  gs.foldlM (fun total g => (A.mul g.unit.duration (A.read g.number.value)).bind (A.add total))
    total

/-- The loop adds the groups that the text begins with. -/
theorem parseGroups_texts (h : AtNumber tail) (gs : List DurationGroup) (total : V) :
    parseGroups A s total (texts gs ++ tail) =
      match A.sum total gs with
      | none => .error .panicked
      | some total => parseGroups A s total tail := by
  induction gs generalizing total with
  | nil => rfl
  | cons g gs ih =>
    rw [texts_cons, List.append_assoc,
      parseGroups_of_ok (takeGroup_text s g (atNumber_texts gs h)), Arith.sum, List.foldlM_cons]
    cases (A.mul g.unit.duration (A.read g.number.value)).bind (A.add total) with
    | none => rfl
    | some total => exact ih total

/-- A text begins with groups, to its end or to where it goes wrong. -/
theorem exists_groups (s : String) (rest : List Char) :
    ∃ gs tail, rest = texts gs ++ tail ∧ (gs ≠ [] → AtNumber tail) ∧
      (tail = [] ∨ ∃ message, takeGroup s tail = .error message) := by
  by_cases hne : rest = []
  · exact ⟨[], rest, rfl, fun h => absurd rfl h, .inl hne⟩
  · cases htake : takeGroup s rest with
    | error message => exact ⟨[], rest, rfl, fun h => absurd rfl h, .inr ⟨message, htake⟩⟩
    | ok taken =>
      obtain ⟨value, mult, rest'⟩ := taken
      have hlt := length_lt_of_takeGroup htake
      obtain ⟨g, hrest, hat, -, -⟩ := takeGroup_eq_ok_iff.mp htake
      obtain ⟨gs, tail, hrest', hat', htail⟩ := exists_groups s rest'
      refine ⟨g :: gs, tail, ?_, fun _ => ?_, htail⟩
      · rw [hrest, hrest', texts_cons, List.append_assoc]
      · by_cases hgs : gs = []
        · rw [hgs] at hrest'
          rwa [hrest'] at hat
        · exact hat' hgs
termination_by rest.length

/-- What the loop does is decided by the groups that the text begins with. -/
theorem parseGroups_cases (A : Arith F V) (s : String) (total : V) (rest : List Char) :
    ∃ gs tail, rest = texts gs ++ tail ∧ (gs ≠ [] → AtNumber tail) ∧
      match A.sum total gs with
      | none => parseGroups A s total rest = .error .panicked
      | some v => tail = [] ∧ parseGroups A s total rest = .ok v ∨
          ∃ message, parseGroups A s total rest = .error (.error message) := by
  obtain ⟨gs, tail, hrest, hat, htail⟩ := exists_groups s rest
  refine ⟨gs, tail, hrest, hat, ?_⟩
  have hgroups : parseGroups A s total rest = match A.sum total gs with
      | none => .error .panicked
      | some total => parseGroups A s total tail := by
    cases gs with
    | nil => rw [hrest]; rfl
    | cons g gs => rw [hrest, parseGroups_texts (hat (List.cons_ne_nil g gs))]
  rw [hgroups]
  cases A.sum total gs with
  | none => rfl
  | some v =>
    rcases htail with rfl | ⟨message, herr⟩
    · exact .inl ⟨rfl, parseGroups_nil⟩
    · by_cases hne : tail = []
      · exact .inl ⟨hne, hne ▸ parseGroups_nil⟩
      · exact .inr ⟨message, parseGroups_of_error hne herr⟩

theorem parseGroups_eq_ok_iff :
    parseGroups A s total rest = .ok v ↔ ∃ gs, rest = texts gs ∧ A.sum total gs = some v := by
  constructor
  · intro h
    obtain ⟨gs, tail, hrest, -, hcases⟩ := parseGroups_cases A s total rest
    cases hsum : A.sum total gs with
    | none =>
      rw [hsum, h] at hcases
      cases hcases
    | some v' =>
      rw [hsum, h] at hcases
      rcases hcases with ⟨rfl, hok⟩ | ⟨message, herr⟩
      · cases hok
        exact ⟨gs, by rw [hrest, List.append_nil], hsum⟩
      · cases herr
  · rintro ⟨gs, rfl, hsum⟩
    rw [← List.append_nil (texts gs), parseGroups_texts atNumber_nil, hsum]
    exact parseGroups_nil

theorem parseGroups_eq_panicked_iff :
    parseGroups A s total rest = .error .panicked ↔
      ∃ gs tail, rest = texts gs ++ tail ∧ AtNumber tail ∧ A.sum total gs = none := by
  constructor
  · intro h
    obtain ⟨gs, tail, hrest, hat, hcases⟩ := parseGroups_cases A s total rest
    cases hsum : A.sum total gs with
    | none =>
      refine ⟨gs, tail, hrest, hat fun hgs => ?_, hsum⟩
      rw [hgs] at hsum
      cases hsum
    | some v =>
      rw [hsum, h] at hcases
      rcases hcases with ⟨-, hok⟩ | ⟨message, herr⟩
      · cases hok
      · cases herr
  · rintro ⟨gs, tail, rfl, hat, hsum⟩
    rw [parseGroups_texts hat, hsum]

end Accepted

/-- A decimal `u64`, with an optional plus sign. -/
def IsSeconds (l : List Char) (n : ℕ) : Prop :=
  ∃ digits, (l = digits ∨ l = '+' :: digits) ∧ Digits digits ∧ decimal digits = n ∧ n < 2 ^ 64

theorem IsSeconds.ne_nil {l : List Char} {n : ℕ} (h : IsSeconds l n) : l ≠ [] := by
  obtain ⟨digits, rfl | rfl, hdigits, -⟩ := h
  · exact hdigits.1
  · exact List.cons_ne_nil '+' digits

theorem parseUnsigned_texts {gs : List DurationGroup} (hgs : gs ≠ []) (tail : List Char)
    (bound : ℕ) : parseUnsigned bound (texts gs ++ tail) = none := by
  rw [Option.eq_none_iff_forall_ne_some]
  intro n hn
  obtain ⟨digits, hl, hdigits, -, -⟩ := parseUnsigned_eq_some_iff.mp hn
  obtain ⟨g, gs, rfl⟩ := List.exists_cons_of_ne_nil hgs
  obtain ⟨c, l', hcons⟩ := List.exists_cons_of_ne_nil g.unit.text_ne_nil
  have hunit : c ∈ g.unit.text := hcons ▸ List.mem_cons_self
  have hmem : c ∈ texts (g :: gs) ++ tail :=
    List.mem_append_left _ (List.mem_append_left _ (List.mem_append_right _ hunit))
  have hdigit : c ∈ digits → False := fun h => by
    have hin := TimeUnit.not_inNumber hunit
    rw [inNumber, hdigits.2 c h] at hin
    cases hin
  rcases hl with hl | hl
  · exact hdigit (hl ▸ hmem)
  · rw [hl, List.mem_cons] at hmem
    exact hmem.elim (TimeUnit.ne_plus hunit) hdigit

section Parse

variable {A} {s : String} {v : V}

theorem parseDuration_of_isSeconds {n : ℕ} (h : IsSeconds (trim s).toList n) :
    parseDuration A s = .ok (A.fromSecs n) := by
  have hne : trim s ≠ "" := fun hempty => h.ne_nil (String.toList_eq_nil_iff.mpr hempty)
  unfold parseDuration
  dsimp only
  rw [if_neg hne, parseUnsigned_eq_some_iff.mpr h]

/-- A text that begins with a group is left to the loop. -/
theorem parseDuration_of_texts {gs : List DurationGroup} {tail : List Char} (hgs : gs ≠ [])
    (h : (trim s).toList = texts gs ++ tail) :
    parseDuration A s = parseGroups A (trim s) (A.fromSecs 0) (trim s).toList := by
  have hne : trim s ≠ "" := by
    intro hempty
    rw [String.toList_eq_nil_iff.mpr hempty] at h
    exact List.append_ne_nil_of_left_ne_nil (texts_ne_nil hgs) tail h.symm
  have hnone : parseUnsigned (2 ^ 64) (trim s).toList = none := h ▸ parseUnsigned_texts hgs tail _
  unfold parseDuration
  dsimp only
  rw [if_neg hne, hnone]

theorem parseDuration_cases (A : Arith F V) (s : String) :
    (∃ message, parseDuration A s = .error (.error message)) ∨
    (∃ n, IsSeconds (trim s).toList n ∧ parseDuration A s = .ok (A.fromSecs n)) ∨
    (trim s).toList ≠ [] ∧
      parseDuration A s = parseGroups A (trim s) (A.fromSecs 0) (trim s).toList := by
  by_cases hne : trim s = ""
  · exact .inl ⟨_, if_pos hne⟩
  · cases hsecs : parseUnsigned (2 ^ 64) (trim s).toList with
    | some n =>
      have hn : IsSeconds (trim s).toList n := parseUnsigned_eq_some_iff.mp hsecs
      exact .inr (.inl ⟨n, hn, parseDuration_of_isSeconds hn⟩)
    | none =>
      refine .inr (.inr ⟨fun h => hne (String.toList_eq_nil_iff.mp h), ?_⟩)
      unfold parseDuration
      dsimp only
      rw [if_neg hne, hsecs]

/-- What is accepted, with any arithmetic. -/
theorem parseDuration_eq_ok_iff : parseDuration A s = .ok v ↔
    (∃ n, IsSeconds (trim s).toList n ∧ v = A.fromSecs n) ∨
    ∃ gs ≠ [], (trim s).toList = texts gs ∧ A.sum (A.fromSecs 0) gs = some v := by
  constructor
  · intro h
    obtain ⟨message, herr⟩ | ⟨n, hn, hok⟩ | ⟨hne, hgroups⟩ := parseDuration_cases A s
    · cases herr.symm.trans h
    · cases hok.symm.trans h
      exact .inl ⟨n, hn, rfl⟩
    · obtain ⟨gs, htexts, hsum⟩ := parseGroups_eq_ok_iff.mp (hgroups.symm.trans h)
      refine .inr ⟨gs, fun hgs => hne ?_, htexts, hsum⟩
      rw [htexts, hgs]
      rfl
  · rintro (⟨n, hn, rfl⟩ | ⟨gs, hgs, htexts, hsum⟩)
    · exact parseDuration_of_isSeconds hn
    · rw [parseDuration_of_texts hgs (htexts.trans (List.append_nil _).symm)]
      exact parseGroups_eq_ok_iff.mpr ⟨gs, htexts, hsum⟩

theorem parseDuration_eq_panicked_iff : parseDuration A s = .error .panicked ↔
    ∃ gs tail, (trim s).toList = texts gs ++ tail ∧ AtNumber tail ∧
      A.sum (A.fromSecs 0) gs = none := by
  constructor
  · intro h
    obtain ⟨message, herr⟩ | ⟨n, -, hok⟩ | ⟨-, hgroups⟩ := parseDuration_cases A s
    · cases herr.symm.trans h
    · cases hok.symm.trans h
    · exact parseGroups_eq_panicked_iff.mp (hgroups.symm.trans h)
  · rintro ⟨gs, tail, htexts, hat, hsum⟩
    have hgs : gs ≠ [] := by
      rintro rfl
      cases hsum
    rw [parseDuration_of_texts hgs htexts]
    exact parseGroups_eq_panicked_iff.mpr ⟨gs, tail, htexts, hat, hsum⟩

end Parse

/-! ### The exact durations -/

theorem sum_exact (total : ℚ) (gs : List DurationGroup) :
    Arith.exact.sum total gs = some (total + (gs.map seconds).sum) := by
  induction gs generalizing total with
  | nil => rw [List.map_nil, List.sum_nil, add_zero]; rfl
  | cons g gs ih =>
    rw [List.map_cons, List.sum_cons, ← add_assoc]
    exact ih _

/-- Numbers directly followed by units. -/
def Grouped (s : String) : Prop := ∃ gs ≠ [], s.toList = texts gs

theorem visible_of_inNumber {c : Char} (h : inNumber c = true) : isWhitespace c = false := by
  rcases Bool.or_eq_true_iff.mp h with h | h
  · have hrange := Bool.and_eq_true_iff.mp h
    have hlow : 48 ≤ c.toNat := of_decide_eq_true hrange.1
    have hhigh : c.toNat ≤ 57 := of_decide_eq_true hrange.2
    rw [isWhitespace]
    simp
    omega
  · rw [beq_iff_eq.mp h]
    rfl

theorem visible_texts (gs : List DurationGroup) : ∀ c ∈ texts gs, isWhitespace c = false := by
  intro c hc
  obtain ⟨g, -, hg⟩ := List.mem_flatMap.mp hc
  rcases List.mem_append.mp hg with h | h
  · exact visible_of_inNumber (inNumber_of_mem h)
  · exact TimeUnit.visible h

theorem trim_texts {s : String} {gs : List DurationGroup} (h : s.toList = texts gs) :
    trim s = s := by
  have hvisible := trim_visible (List.forall_mem_nil _) (visible_texts gs)
  rwa [← h, List.nil_append, String.ofList_toList] at hvisible

/-- What is accepted exactly, with its value in seconds. -/
theorem parseDuration_exact {s : String} {v : ℚ} : parseDuration Arith.exact s = .ok v ↔
    (∃ n, IsSeconds (trim s).toList n ∧ v = n) ∨
    ∃ gs ≠ [], (trim s).toList = texts gs ∧ v = (gs.map seconds).sum := by
  have hsum : ∀ gs, Arith.exact.sum (Arith.exact.fromSecs 0) gs = some v ↔
      v = (gs.map seconds).sum := by
    intro gs
    rw [sum_exact, show Arith.exact.fromSecs 0 = (0 : ℚ) from Nat.cast_zero, zero_add,
      Option.some_inj, eq_comm]
  rw [parseDuration_eq_ok_iff]
  simp only [hsum]
  rfl

theorem parseDuration_grouped {s : String} {gs : List DurationGroup} (hgs : gs ≠ [])
    (h : s.toList = texts gs) : parseDuration Arith.exact s = .ok (gs.map seconds).sum :=
  parseDuration_exact.mpr (.inr ⟨gs, hgs, by rw [trim_texts h, h], rfl⟩)

/-- If nothing panics, the same texts are accepted as with the exact numbers. -/
theorem isOk_iff_exact {s : String} (h : parseDuration A s ≠ .error .panicked) :
    (∃ v, parseDuration A s = .ok v) ↔ ∃ v, parseDuration Arith.exact s = .ok v := by
  constructor
  · rintro ⟨v, hv⟩
    rcases parseDuration_eq_ok_iff.mp hv with ⟨n, hn, -⟩ | ⟨gs, hgs, htexts, -⟩
    · exact ⟨n, parseDuration_exact.mpr (.inl ⟨n, hn, rfl⟩)⟩
    · exact ⟨_, parseDuration_exact.mpr (.inr ⟨gs, hgs, htexts, rfl⟩)⟩
  · rintro ⟨v, hv⟩
    rcases parseDuration_exact.mp hv with ⟨n, hn, -⟩ | ⟨gs, hgs, htexts, -⟩
    · exact ⟨A.fromSecs n, parseDuration_eq_ok_iff.mpr (.inl ⟨n, hn, rfl⟩)⟩
    · cases hsum : A.sum (A.fromSecs 0) gs with
      | none =>
        refine absurd (parseDuration_eq_panicked_iff.mpr ⟨gs, [], ?_, atNumber_nil, hsum⟩) h
        rw [htexts, List.append_nil]
      | some v => exact ⟨v, parseDuration_eq_ok_iff.mpr (.inr ⟨gs, hgs, htexts, hsum⟩)⟩

/-- **The grammar of durations.** A round of the loop leaves less of the text. With numbers read
exactly, a text is accepted if it is a decimal `u64` or groups of a number and a unit between white
space, with its value in seconds; with any other arithmetic the same texts are, unless an operation
panics. Two texts of groups one after the other add up. -/
theorem durations_grammar :
    (∀ (s : String) (rest rest' : List Char) (value : ℚ) (mult : Duration),
      takeGroup s rest = .ok (value, mult, rest') → rest'.length < rest.length) ∧
    (∀ (s : String) (v : ℚ), parseDuration Arith.exact s = .ok v ↔
      (∃ n, IsSeconds (trim s).toList n ∧ v = n) ∨
      ∃ gs ≠ [], (trim s).toList = texts gs ∧ v = (gs.map seconds).sum) ∧
    (∀ (F V : Type) (A : Arith F V) (s : String), parseDuration A s ≠ .error .panicked →
      ((∃ v, parseDuration A s = .ok v) ↔ ∃ v, parseDuration Arith.exact s = .ok v)) ∧
    ∀ a b, Grouped a → Grouped b → ∃ v w, parseDuration Arith.exact a = .ok v ∧
      parseDuration Arith.exact b = .ok w ∧ parseDuration Arith.exact (a ++ b) = .ok (v + w) := by
  refine ⟨fun _ _ _ _ _ => length_lt_of_takeGroup, fun _ _ => parseDuration_exact,
    fun _ _ A _ => isOk_iff_exact A, ?_⟩
  rintro a b ⟨gs, hgs, ha⟩ ⟨gs', hgs', hb⟩
  refine ⟨_, _, parseDuration_grouped hgs ha, parseDuration_grouped hgs' hb, ?_⟩
  rw [← List.sum_append, ← List.map_append]
  refine parseDuration_grouped (List.append_ne_nil_of_left_ne_nil hgs gs') ?_
  rw [String.toList_append, ha, hb, texts_append]

/-- The text `1h`. -/
def anHour : DurationGroup := ⟨⟨['1'], none, by decide⟩, .h⟩

/-- The text `30m`. -/
def halfAnHour : DurationGroup := ⟨⟨['3', '0'], none, by decide⟩, .m⟩

theorem parseDuration_machine_anHour :
    parseDuration Arith.machine "1h" = .ok (.fromSecs 3600) :=
  parseDuration_eq_ok_iff.mpr (.inr ⟨[anHour], List.cons_ne_nil _ _, rfl, by decide +kernel⟩)

theorem durations_grammar_anHourAndAHalf :
    ([] : List Char).length < "1h".toList.length ∧
    ((∃ v, parseDuration Arith.machine "1h" = .ok v) ↔
      ∃ v, parseDuration Arith.exact "1h" = .ok v) ∧
    ∃ v w, parseDuration Arith.exact "1h" = .ok v ∧ parseDuration Arith.exact "30m" = .ok w ∧
      parseDuration Arith.exact ("1h" ++ "30m") = .ok (v + w) := by
  have hmachine : parseDuration Arith.machine "1h" ≠ .error .panicked := by
    rw [parseDuration_machine_anHour]
    rintro ⟨⟩
  exact ⟨durations_grammar.1 "1h" _ [] _ _ (takeGroup_text "1h" anHour atNumber_nil),
    durations_grammar.2.2.1 Floating Duration Arith.machine "1h" hmachine,
    durations_grammar.2.2.2 "1h" "30m" ⟨[anHour], List.cons_ne_nil _ _, rfl⟩
      ⟨[halfAnHour], List.cons_ne_nil _ _, rfl⟩⟩

end Dunlin

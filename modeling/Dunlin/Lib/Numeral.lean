import Mathlib.Algebra.Field.Rat
import Mathlib.Data.List.Basic

/-!
# Numerals

Decimal numbers in text, as lists of characters. `decimal` is the value of a string of digits.
`parseUnsigned` reads an unsigned integer below a bound, with an optional plus sign, and
`parseFraction` digits with at most one point among them. Each is characterised by the strings it
accepts.

The readers are those of a program: they take digits from the front, or all of a text, and answer
`none` on anything else. Every lemma about what is accepted is an equivalence, so that a caller can
say which texts are read without going through the reader again.

## Main results

* `parseUnsigned_eq_some_iff` — the texts of an unsigned integer below a bound
* `parseSigned_repr` — what is written in decimal is read back
* `parseFraction_eq_some_iff` — the texts of a fraction, each with its value
* `takeWhile_append_stop` — where a token ends
-/

namespace Lib

/-- A string of digits, with at least one. -/
def Digits (l : List Char) : Prop := l ≠ [] ∧ ∀ c ∈ l, c.isDigit = true

instance : DecidablePred Digits := fun _ =>
  @instDecidableAnd _ _ inferInstance (List.decidableBAll _ _)

def digitVal (c : Char) : ℕ := c.toNat - '0'.toNat

/-- The value of a string of digits. -/
def decimal (l : List Char) : ℕ := l.foldl (fun n c => 10 * n + digitVal c) 0

/-! ### Integers -/

/-- Read an unsigned integer below `bound`. -/
def parseUnsigned (bound : ℕ) (l : List Char) : Option ℕ :=
  let digits := if l.head? = some '+' then l.tail else l
  if Digits digits ∧ decimal digits < bound then some (decimal digits) else none

theorem Digits.head?_ne_plus {l : List Char} (h : Digits l) : l.head? ≠ some '+' := by
  intro hhead
  have hdigit := h.2 '+' (List.mem_of_mem_head? hhead)
  exact absurd hdigit (by decide)

/-- What `parseUnsigned` accepts. -/
theorem parseUnsigned_eq_some_iff {bound n : ℕ} {l : List Char} :
    parseUnsigned bound l = some n ↔
      ∃ digits, (l = digits ∨ l = '+' :: digits) ∧ Digits digits ∧ decimal digits = n ∧
        n < bound := by
  have hsome : ∀ digits : List Char, (if Digits digits ∧ decimal digits < bound then
      some (decimal digits) else none) = some n ↔
      Digits digits ∧ decimal digits = n ∧ n < bound := by
    intro digits
    split
    · rename_i h
      rw [Option.some_inj]
      exact ⟨fun heq => ⟨h.1, heq, heq ▸ h.2⟩, fun h' => h'.2.1⟩
    · rename_i h
      refine iff_of_false (by simp) fun h' => h ⟨h'.1, ?_⟩
      rw [h'.2.1]
      exact h'.2.2
  unfold parseUnsigned
  dsimp only
  rw [hsome]
  constructor
  · intro h
    refine ⟨_, ?_, h⟩
    split
    · rename_i hplus
      exact .inr (List.eq_cons_of_mem_head? hplus)
    · exact .inl rfl
  · rintro ⟨digits, rfl | rfl, h⟩
    · rwa [if_neg h.1.head?_ne_plus]
    · rwa [if_pos List.head?_cons, List.tail_cons]

/-- A number is written in digits that say which number it is. -/
theorem decimal_repr (n : ℕ) : Digits n.repr.toList ∧ decimal n.repr.toList = n := by
  rw [Nat.toList_repr]
  constructor
  · exact ⟨Nat.toDigits_ne_nil, fun c hc => Nat.isDigit_of_mem_toDigits (by decide) (by decide) hc⟩
  · have hfold : decimal (Nat.toDigits 10 n) = Nat.ofDigitChars 10 (Nat.toDigits 10 n) 0 :=
      Nat.ofDigitChars_eq_foldl.symm
    rw [hfold, Nat.ofDigitChars_ten_toDigits]

/-- Read an integer from `-bound` on and below `bound`. -/
def parseSigned (bound : ℕ) : List Char → Option ℤ
  | '-' :: digits =>
    if Digits digits ∧ decimal digits ≤ bound then some (-(decimal digits : ℤ)) else none
  | l => (parseUnsigned bound l).map Int.ofNat

/-- What is written as a number is read as that number. -/
theorem parseSigned_repr {bound n : ℕ} (h : n < bound) :
    parseSigned bound n.repr.toList = some (n : ℤ) := by
  obtain ⟨hdigits, hvalue⟩ := decimal_repr n
  have hread : parseUnsigned bound n.repr.toList = some n :=
    parseUnsigned_eq_some_iff.mpr ⟨_, .inl rfl, hdigits, hvalue, h⟩
  have hminus : ∀ digits, n.repr.toList ≠ '-' :: digits := by
    intro digits hl
    have hdigit := hdigits.2 '-' (hl ▸ List.mem_cons_self)
    exact absurd hdigit (by decide)
  rw [parseSigned]
  · rw [hread]
    rfl
  · exact hminus

/-! ### Fractions -/

/-- A text is split where its characters first change. -/
theorem takeWhile_append_stop {α : Type*} {p : α → Bool} {l l' : List α}
    (h : ∀ a ∈ l, p a = true) (h' : ∀ a ∈ l'.head?, p a = false) :
    (l ++ l').takeWhile p = l ∧ (l ++ l').dropWhile p = l' := by
  rw [List.takeWhile_append_of_pos h, List.dropWhile_append_of_pos h]
  cases l' with
  | nil => exact ⟨List.append_nil l, rfl⟩
  | cons a l' =>
    have ha : ¬p a = true := by
      rw [h' a rfl]
      exact Bool.false_ne_true
    rw [List.takeWhile_cons_of_neg ha, List.dropWhile_cons_of_neg ha, List.append_nil]
    exact ⟨rfl, rfl⟩

/-- Digits with at most one point among them, and at least one digit. -/
structure Fraction where
  whole : List Char
  /-- The digits after the point, if there is one. -/
  frac : Option (List Char)
  digits : Digits (whole ++ frac.getD [])

namespace Fraction

def text (f : Fraction) : List Char := f.whole ++ f.frac.elim [] ('.' :: ·)

def value (f : Fraction) : ℚ :=
  decimal (f.whole ++ f.frac.getD []) / 10 ^ (f.frac.getD []).length

theorem mem_text {f : Fraction} {c : Char} (h : c ∈ f.text) : c.isDigit = true ∨ c = '.' := by
  obtain ⟨whole, frac, hdigits⟩ := f
  cases frac with
  | none =>
    rw [text, Option.elim_none] at h
    exact .inl (hdigits.2 c h)
  | some frac =>
    rw [text, Option.elim_some, List.mem_append, List.mem_cons] at h
    rcases h with h | rfl | h
    · exact .inl (hdigits.2 c (List.mem_append_left _ h))
    · exact .inr rfl
    · exact .inl (hdigits.2 c (List.mem_append_right _ h))

theorem text_ne_nil (f : Fraction) : f.text ≠ [] := by
  obtain ⟨whole, frac, hdigits⟩ := f
  cases frac with
  | none => exact hdigits.1
  | some frac => exact List.append_ne_nil_of_right_ne_nil _ (List.cons_ne_nil '.' frac)

end Fraction

def parseFraction (l : List Char) : Option Fraction :=
  match l.dropWhile Char.isDigit with
  | [] => if h : Digits (l.takeWhile Char.isDigit ++ []) then some ⟨_, none, h⟩ else none
  | c :: frac =>
    if h : c = '.' ∧ Digits (l.takeWhile Char.isDigit ++ frac) then some ⟨_, some frac, h.2⟩
    else none

theorem parseFraction_text (f : Fraction) : parseFraction f.text = some f := by
  obtain ⟨whole, frac, hdigits⟩ := f
  have hwhole : ∀ c ∈ whole, c.isDigit = true :=
    fun c hc => hdigits.2 c (List.mem_append_left _ hc)
  cases frac with
  | none =>
    have hend : ∀ c ∈ ([] : List Char).head?, c.isDigit = false :=
      fun c hc => absurd hc (Option.not_mem_none c)
    obtain ⟨htake, hdrop⟩ := takeWhile_append_stop hwhole hend
    rw [parseFraction, Fraction.text]
    simp only [Option.elim_none, hdrop, htake]
    exact dif_pos hdigits
  | some frac =>
    have hpoint : ∀ c ∈ ('.' :: frac).head?, c.isDigit = false := by
      intro c hc
      rw [← Option.some_inj.mp hc]
      rfl
    obtain ⟨htake, hdrop⟩ := takeWhile_append_stop hwhole hpoint
    rw [parseFraction, Fraction.text]
    simp only [Option.elim_some, hdrop, htake]
    exact dif_pos ⟨trivial, hdigits⟩

/-- A text is read as a fraction exactly if it is the text of one. -/
theorem parseFraction_eq_some_iff {l : List Char} {f : Fraction} :
    parseFraction l = some f ↔ f.text = l := by
  refine ⟨fun h => ?_, fun h => h ▸ parseFraction_text f⟩
  have hsplit := List.takeWhile_append_dropWhile (p := Char.isDigit) (l := l)
  unfold parseFraction at h
  split at h
  · rename_i hdrop
    split at h
    · cases h
      rw [Fraction.text, Option.elim_none, ← hdrop, hsplit]
    · cases h
  · rename_i c frac hdrop
    split at h
    · rename_i hdot
      cases h
      rw [Fraction.text, Option.elim_some, ← hdot.1, ← hdrop, hsplit]
    · cases h

end Lib

import Mathlib.Data.List.Infix
import Mathlib.Logic.Function.Basic

/-!
# Escaping

An escaping writes some characters as words that begin with a mark, and leaves the others as they
are. The mark is one of the characters that are written so, and no word is the beginning of another.
So an escaped text can be read back in one pass: where the mark stands, a word begins, and only one
(`unescape_escape`).

## Main results

* `unescape_escape` — what was escaped is read back
* `escape_append`, `escape_prefix` — a text is escaped piece by piece, and so is its beginning
* `notMem_escape` — a character that is escaped and in no word is gone
* `code_of_mark` — where a mark stands in an escaped text, a word begins
-/

namespace Lib

/-- An escaping by words that begin with a mark. -/
structure Escaping (α : Type) where
  mark : α
  /-- The characters that are escaped, each with what follows the mark in its word. -/
  codes : List (α × List α)
  mark_mem : mark ∈ codes.map Prod.fst
  prefixFree : ∀ p ∈ codes, ∀ q ∈ codes, p.2 <+: q.2 → p = q

namespace Escaping

variable {α : Type} [DecidableEq α] (e : Escaping α)

/-- What stands for a character. -/
def word (c : α) : List α :=
  match e.codes.find? (·.1 = c) with
  | some p => e.mark :: p.2
  | none => [c]

/-- Every character on its own. -/
def escape (l : List α) : List α := l.flatMap e.word

/-- The character whose word begins here, after the mark. -/
def code? (l : List α) : Option (α × List α) := e.codes.find? fun p => p.2.isPrefixOf l

/-- One pass from left to right that puts back the characters for the words. -/
def unescape : List α → List α
  | [] => []
  | c :: l =>
    if c = e.mark then
      match e.code? l with
      | some p => p.1 :: unescape (l.drop p.2.length)
      | none => c :: unescape l
    else c :: unescape l
termination_by l => l.length
decreasing_by all_goals simp only [List.length_drop, List.length_cons]; omega

variable {e} {c : α} {l l' : List α}

/-! ### Words -/

/-- A character is escaped, or stands for itself and is not the mark. -/
theorem word_cases (e : Escaping α) (c : α) :
    (∃ w, (c, w) ∈ e.codes ∧ e.word c = e.mark :: w) ∨
      c ∉ e.codes.map Prod.fst ∧ c ≠ e.mark ∧ e.word c = [c] := by
  rw [word]
  cases h : e.codes.find? (·.1 = c) with
  | some p =>
    have hkey : p.1 = c := by simpa using List.find?_some h
    exact .inl ⟨p.2, hkey ▸ List.mem_of_find?_eq_some h, rfl⟩
  | none =>
    have hkey : c ∉ e.codes.map Prod.fst := by
      intro hmem
      obtain ⟨p, hp, rfl⟩ := List.mem_map.mp hmem
      simpa using List.find?_eq_none.mp h p hp
    exact .inr ⟨hkey, fun hc => hkey (hc ▸ e.mark_mem), rfl⟩

theorem length_word_pos (e : Escaping α) (c : α) : 0 < (e.word c).length := by
  rcases e.word_cases c with ⟨w, -, hw⟩ | ⟨-, -, hw⟩ <;> simp [hw]

/-- Where a word begins, no other one does. -/
theorem code?_append {w : List α} (h : (c, w) ∈ e.codes) : e.code? (w ++ l) = some (c, w) := by
  have hsome : (e.code? (w ++ l)).isSome := by
    rw [code?, List.find?_isSome]
    exact ⟨(c, w), h, List.isPrefixOf_iff_prefix.mpr (List.prefix_append w l)⟩
  obtain ⟨p, hp⟩ := Option.isSome_iff_exists.mp hsome
  rw [code?] at hp
  have hmem : p ∈ e.codes := List.mem_of_find?_eq_some hp
  have hpre : p.2 <+: w ++ l := by
    have hp' := List.find?_some hp
    exact List.isPrefixOf_iff_prefix.mp hp'
  have hpw : p = (c, w) := by
    rcases List.prefix_or_prefix_of_prefix hpre (List.prefix_append w l) with hle | hle
    · exact e.prefixFree p hmem (c, w) h hle
    · exact (e.prefixFree (c, w) h p hmem hle).symm
  rw [code?, hp, hpw]

/-! ### Escaping and back -/

@[simp] theorem escape_nil : e.escape [] = [] := rfl

@[simp] theorem escape_cons : e.escape (c :: l) = e.word c ++ e.escape l := List.flatMap_cons

theorem escape_append : e.escape (l ++ l') = e.escape l ++ e.escape l' := List.flatMap_append

theorem unescape_word_append (c : α) (l : List α) :
    e.unescape (e.word c ++ l) = c :: e.unescape l := by
  rcases e.word_cases c with ⟨w, hmem, hw⟩ | ⟨-, hne, hw⟩
  · rw [hw, List.cons_append, unescape, if_pos rfl, code?_append hmem]
    simp
  · rw [hw, List.singleton_append, unescape, if_neg hne]

/-- **What was escaped is read back.** -/
theorem unescape_escape (l : List α) : e.unescape (e.escape l) = l := by
  induction l with
  | nil => rw [escape_nil, unescape]
  | cons c l ih => rw [escape_cons, unescape_word_append, ih]

/-! ### What an escaped text holds -/

/-- Of a beginning of a text, the escaped text begins the escaped one. -/
theorem escape_prefix (h : l <+: l') : e.escape l <+: e.escape l' := by
  obtain ⟨t, rfl⟩ := h
  rw [escape_append]
  exact List.prefix_append _ _

/-- A character that is escaped, and in no word, is not in the escaped text. -/
theorem notMem_escape (hkey : c ∈ e.codes.map Prod.fst) (hne : c ≠ e.mark)
    (hword : ∀ p ∈ e.codes, c ∉ p.2) : c ∉ e.escape l := by
  intro hmem
  obtain ⟨d, -, hd⟩ := List.mem_flatMap.mp hmem
  rcases e.word_cases d with ⟨w, hw, heq⟩ | ⟨hnot, -, heq⟩
  · rw [heq] at hd
    rcases List.mem_cons.mp hd with hc | hc
    · exact hne hc
    · exact hword _ hw hc
  · rw [heq, List.mem_singleton] at hd
    exact hnot (hd ▸ hkey)

/-- When no word has the mark in it, a word follows every mark. -/
theorem code_of_mark (hword : ∀ p ∈ e.codes, e.mark ∉ p.2) {pre rest : List α}
    (h : e.escape l = pre ++ e.mark :: rest) : ∃ p ∈ e.codes, p.2 <+: rest := by
  induction l generalizing pre with
  | nil => simp at h
  | cons c l ih =>
    rw [escape_cons] at h
    rcases e.word_cases c with ⟨w, hmem, hw⟩ | ⟨-, hne, hw⟩
    · rw [hw] at h
      cases pre with
      | nil =>
        rw [List.nil_append, List.cons_append, List.cons.injEq] at h
        exact ⟨(c, w), hmem, h.2 ▸ List.prefix_append w _⟩
      | cons a pre =>
        rw [List.cons_append, List.cons_append, List.cons.injEq] at h
        -- The mark is not in the word, so it comes after it.
        rcases List.append_eq_append_iff.mp h.2 with ⟨t, rfl, ht⟩ | ⟨t, rfl, ht⟩
        · exact ih ht
        · cases t with
          | nil =>
            have hl : e.escape l = [] ++ e.mark :: rest := by simpa using ht.symm
            exact ih hl
          | cons b t =>
            rw [List.cons_append, List.cons.injEq] at ht
            refine absurd ?_ (hword _ hmem)
            simp [ht.1]
    · rw [hw] at h
      cases pre with
      | nil =>
        rw [List.nil_append, List.singleton_append, List.cons.injEq] at h
        exact absurd h.1 hne
      | cons a pre =>
        rw [List.singleton_append, List.cons_append, List.cons.injEq] at h
        exact ih h.2

end Escaping

end Lib

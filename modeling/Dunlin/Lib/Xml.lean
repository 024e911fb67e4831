import Dunlin.Lib.Escape
import Dunlin.Lib.Numeral

/-!
# Texts in XML

`texts` finds the texts that follow a start tag in a document, and `unescape` reads such a text: the
references in it become the characters they name. An `Escaper` is an escaping whose words are
references. What it writes is read back (`unescape_escape`), and begins no tag.

Only as much of XML is here as a reader of one element's text needs: references in decimal, in
hexadecimal and by name, and the tags that an element is between. A document is a list of
characters, and the text of an element goes up to the next `<`.

## Scope

No attribute, comment or `CDATA` is read. A document made of elements without them is read in full;
`Apart` says of a part of a document that it holds no start of the element asked for.

## Main results

* `unescape_escape` — an escaped text is read back
* `lt_notMem_escape` — an escaped text begins no tag
* `texts_append`, `texts_element` — the texts of a document, part by part
-/

namespace Lib

/-! ### Hexadecimal numbers -/

def isHexDigit (c : Char) : Bool := c.isDigit || ('a' ≤ c.toLower && c.toLower ≤ 'f')

def hexVal (c : Char) : ℕ := if c.isDigit then digitVal c else c.toLower.toNat - 'a'.toNat + 10

/-- The value of a string of hexadecimal digits. -/
def hexadecimal (l : List Char) : ℕ := l.foldl (fun n c => 16 * n + hexVal c) 0

namespace Xml

/-! ### References -/

/-- The character a number stands for. -/
def numbered (n : ℕ) : Option Char := if n.isValidChar then some (Char.ofNat n) else none

/-- The character a reference names, from what stands between `&` and `;`. -/
def entity (name : List Char) : Option Char :=
  if name = "amp".toList then some '&'
  else if name = "lt".toList then some '<'
  else if name = "gt".toList then some '>'
  else if name = "quot".toList then some '"'
  else if name = "apos".toList then some '\''
  else match name with
    | '#' :: 'x' :: l =>
      if l ≠ [] ∧ l.all isHexDigit then numbered (hexadecimal l) else none
    | '#' :: l => if Digits l then numbered (decimal l) else none
    | _ => none

/-- Read a text, perhaps from inside a reference: then its first characters are given. -/
def unescapeFrom : Option (List Char) → List Char → Option (List Char)
  | none, [] => some []
  | some _, [] => none
  | none, c :: l =>
    if c = '&' then unescapeFrom (some []) l else (unescapeFrom none l).map (c :: ·)
  | some name, c :: l =>
    if c = ';' then (entity name).bind fun d => (unescapeFrom none l).map (d :: ·)
    else unescapeFrom (some (name ++ [c])) l

/-- The characters of a text. -/
def unescape (l : List Char) : Option (List Char) := unescapeFrom none l

theorem unescapeFrom_append {name : List Char} (hname : ';' ∉ name) (start l : List Char) :
    unescapeFrom (some start) (name ++ ';' :: l) =
      (entity (start ++ name)).bind fun d => (unescape l).map (d :: ·) := by
  induction name generalizing start with
  | nil => rw [List.nil_append, unescapeFrom, if_pos rfl, List.append_nil, unescape]
  | cons c name ih =>
    obtain ⟨hc, hname⟩ := List.ne_and_not_mem_of_not_mem_cons hname
    rw [List.cons_append, unescapeFrom, if_neg hc.symm, ih hname, List.append_assoc,
      List.singleton_append]

/-! ### Escaping -/

/-- An escaping by references, of `<` at least. -/
structure Escaper extends Escaping Char where
  mark_eq : mark = '&'
  lt_mem : '<' ∈ codes.map Prod.fst
  lt_notMem : ∀ p ∈ codes, '<' ∉ p.2
  reads : ∀ p ∈ codes, ∃ name, p.2 = name ++ [';'] ∧ ';' ∉ name ∧ entity name = some p.1

variable {e : Escaper} {c : Char} {l : List Char}

theorem unescape_word_append (c : Char) (l : List Char) :
    unescape (e.word c ++ l) = (unescape l).map (c :: ·) := by
  rcases e.word_cases c with ⟨w, hmem, hw⟩ | ⟨-, hne, hw⟩
  · obtain ⟨name, rfl, hname, hentity⟩ := e.reads _ hmem
    rw [hw, e.mark_eq, List.cons_append, unescape, unescapeFrom, if_pos rfl, List.append_assoc,
      List.singleton_append, unescapeFrom_append hname, List.nil_append, hentity, Option.bind_some]
  · rw [e.mark_eq] at hne
    rw [hw, List.singleton_append, unescape, unescapeFrom, if_neg hne, unescape]

/-- **What was escaped is read back.** -/
theorem unescape_escape (l : List Char) : unescape (e.escape l) = some l := by
  induction l with
  | nil => rfl
  | cons c l ih => rw [Escaping.escape_cons, unescape_word_append, ih, Option.map_some]

theorem lt_notMem_escape : '<' ∉ e.escape l :=
  Escaping.notMem_escape e.lt_mem (by rw [e.mark_eq]; decide) e.lt_notMem

/-! ### Elements -/

/-- The text that follows a start tag, if one stands here. A tag is given without its `<`. -/
def textAfter (tag l : List Char) : Option (List Char) :=
  if ('<' :: tag).isPrefixOf l then some ((l.drop (tag.length + 1)).takeWhile (· ≠ '<')) else none

/-- The texts that follow a start tag, in the order of the document. -/
def texts (tag l : List Char) : List (List Char) := l.tails.filterMap (textAfter tag)

/-- The tag begins nowhere in `k`, whatever follows. -/
def Apart (tag k : List Char) : Prop :=
  ∀ u ∈ k.tails, u ≠ [] → ¬u <+: '<' :: tag ∧ ¬ '<' :: tag <+: u

instance (tag k : List Char) : Decidable (Apart tag k) := List.decidableBAll _ _

variable {tag k text : List Char}

theorem Apart.of_notMem (h : '<' ∉ k) : Apart tag k := by
  intro u hu hne
  obtain ⟨c, u, rfl⟩ := List.exists_cons_of_ne_nil hne
  have hc : c ≠ '<' := by
    rintro rfl
    exact h (((List.mem_tails _ _).mp hu).subset List.mem_cons_self)
  exact ⟨fun hpre => hc (List.cons_prefix_cons.mp hpre).1,
    fun hpre => hc (List.cons_prefix_cons.mp hpre).1.symm⟩

theorem texts_cons (c : Char) (l : List Char) :
    texts tag (c :: l) = (textAfter tag (c :: l)).toList ++ texts tag l := by
  rw [texts, List.tails_cons, List.filterMap_cons]
  cases textAfter tag (c :: l) <;> rfl

/-- What is apart from the tag adds no text. -/
theorem texts_append (h : Apart tag k) (l : List Char) : texts tag (k ++ l) = texts tag l := by
  induction k with
  | nil => rfl
  | cons c k ih =>
    rw [Apart, List.tails_cons] at h
    obtain ⟨hhead, htail⟩ := List.forall_mem_cons.mp h
    obtain ⟨hpre, htag⟩ := hhead (by simp)
    have hnone : textAfter tag (c :: k ++ l) = none := by
      refine if_neg fun hbegins => ?_
      rw [List.isPrefixOf_iff_prefix] at hbegins
      rcases List.prefix_or_prefix_of_prefix hbegins (List.prefix_append _ _) with hle | hle
      · exact htag hle
      · exact hpre hle
    rw [List.cons_append] at hnone ⊢
    rw [texts_cons, hnone, Option.toList_none, List.nil_append]
    exact ih htail

/-- The text of an element. -/
theorem texts_element (htag : '<' ∉ tag) (htext : '<' ∉ text) (l : List Char) :
    texts tag ('<' :: tag ++ text ++ '<' :: l) = text :: texts tag ('<' :: l) := by
  have hne : ∀ c ∈ text, decide (c ≠ '<') = true := by
    intro c hc
    exact decide_eq_true fun heq => htext (heq ▸ hc)
  have htake : (text ++ '<' :: l).takeWhile (· ≠ '<') = text :=
    (takeWhile_append_stop hne (by simp)).1
  have hafter : textAfter tag ('<' :: tag ++ text ++ '<' :: l) = some text := by
    rw [textAfter, if_pos, List.append_assoc, List.drop_append_of_le_length (by simp),
      List.drop_of_length_le (by simp), List.nil_append, htake]
    rw [List.isPrefixOf_iff_prefix, List.append_assoc]
    exact List.prefix_append _ _
  rw [List.append_assoc, List.cons_append] at hafter ⊢
  rw [texts_cons, hafter, Option.toList_some, List.singleton_append, texts_append (.of_notMem htag),
    texts_append (.of_notMem htext)]

end Xml

end Lib

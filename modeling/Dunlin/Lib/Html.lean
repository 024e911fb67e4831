import Dunlin.Lib.Xml
import Mathlib.Data.List.MinMax

/-!
# Texts in HTML

What a reader of HTML makes of a text: pieces, which are characters to show and markup. Markup is a
tag, a comment or a declaration, and a character reference counts as the characters it names. The
reader is the tokenizer of the standard outside tags and its states inside them, as far as they say
where markup ends. Elements whose content is read in another way are not told apart, and white space
is left as it is.

A character of a text is `Interpreted` where markup or a reference begins. `read_append_iff` says
that a text before a `<` is shown as it stands exactly when no character of it is. What carries the
converse is a count: a reference shows fewer characters than it has.

## Main results

* `read_cases` — what a reader does at a position
* `weight_read_le` — a text is never shown longer than it is
* `read_append_iff` — when a text before a `<` is shown as it stands
* `read_startTag`, `read_endTag` — the tags of a document around its texts
-/

namespace Lib

namespace Html

/-- A character to show, or markup. -/
inductive Piece
  | char (c : Char)
  | markup (raw : List Char)
  deriving DecidableEq, Repr

/-! ### Markup -/

/-- Whether a `<` before this begins markup. At the end of the text `</` does not. -/
def opens : List Char → Bool
  | [] => false
  | c :: l => c.isAlpha || c == '!' || c == '?' || c == '/' && !l.isEmpty

/-- Up to the first `>`, and with it. -/
def throughGt : List Char → List Char
  | [] => []
  | c :: l => if c = '>' then [c] else c :: throughGt l

/-- Up to the end of a comment, and with it. -/
def throughDashes : List Char → List Char
  | [] => []
  | c :: l =>
    if "-->".toList.isPrefixOf (c :: l) then "-->".toList
    else if "--!>".toList.isPrefixOf (c :: l) then "--!>".toList
    else c :: throughDashes l

/-- The rest of a comment, after its first dashes. -/
def comment (l : List Char) : List Char :=
  if ">".toList.isPrefixOf l then ">".toList
  else if "->".toList.isPrefixOf l then "->".toList
  else throughDashes l

/-- Where in a tag the reader is. -/
inductive TagState
  | name
  | beforeAttribute
  | attribute
  | afterAttribute
  | beforeValue
  | quoted (quote : Char)
  | unquoted
  deriving DecidableEq, Repr

def isSpace (c : Char) : Bool := c == ' ' || c == '\t' || c == '\n' || c == '\r' || c == '\x0c'

/-- One character of a tag that does not end there. -/
def TagState.next (c : Char) : TagState → TagState
  | .name => if isSpace c || c == '/' then .beforeAttribute else .name
  | .beforeAttribute => if isSpace c || c == '/' then .beforeAttribute else .attribute
  | .attribute =>
    if isSpace c then .afterAttribute
    else if c == '/' then .beforeAttribute
    else if c == '=' then .beforeValue
    else .attribute
  | .afterAttribute =>
    if isSpace c then .afterAttribute
    else if c == '/' then .beforeAttribute
    else if c == '=' then .beforeValue
    else .attribute
  | .beforeValue =>
    if isSpace c then .beforeValue
    else if c == '"' || c == '\'' then .quoted c
    else .unquoted
  | .quoted quote => if c = quote then .beforeAttribute else .quoted quote
  | .unquoted => if isSpace c then .beforeAttribute else .unquoted

/-- A `>` ends a tag, except in a quoted value. -/
def TagState.ends (c : Char) : TagState → Bool
  | .quoted _ => false
  | _ => c == '>'

/-- The rest of a tag. -/
def throughTag : TagState → List Char → List Char
  | _, [] => []
  | q, c :: l => if q.ends c then [c] else c :: throughTag (q.next c) l

/-- The markup that a `<` before this begins. -/
def markup : List Char → List Char
  | [] => []
  | c :: l =>
    if c.isAlpha then throughTag .name (c :: l)
    else if c == '/' && l.head?.any Char.isAlpha then c :: throughTag .name l
    else if "!--".toList.isPrefixOf (c :: l) then "!--".toList ++ comment ((c :: l).drop 3)
    else throughGt (c :: l)

/-! ### References -/

/-- The characters references are made of, after the `&`. -/
def isReferenceChar (c : Char) : Bool := c.isAlphanum || c == '#' || c == ';'

/-- The value of the digits a text begins with, and the number of its characters that are taken: the
digits and a semicolon after them. -/
def numeral (isDigit : Char → Bool) (value : List Char → ℕ) (l : List Char) : Option (ℕ × ℕ) :=
  let digits := l.takeWhile isDigit
  if digits = [] then none
  else some (value digits,
    digits.length + if (l.dropWhile isDigit).head? = some ';' then 1 else 0)

/-- The number a numeric reference names, and its length, after `&#`. -/
def number : List Char → Option (ℕ × ℕ)
  | [] => none
  | c :: l =>
    if c == 'x' || c == 'X' then
      (numeral isHexDigit hexadecimal l).map fun p => (p.1, p.2 + 1)
    else numeral Char.isDigit decimal (c :: l)

/-- What the standard's tables say. -/
structure Reader where
  /-- The names of character references, with or without the semicolon, and the characters they
  stand for. -/
  names : List (List Char × List Char)
  length_le : ∀ p ∈ names, p.2.length ≤ p.1.length
  /-- The character of a numeric reference. -/
  numbered : ℕ → Char

namespace Reader

variable (r : Reader)

/-- The longest name of a character reference that the text begins with. -/
def named (l : List Char) : Option (List Char × List Char) :=
  (r.names.filter fun p => p.1.isPrefixOf l).argmax fun p => p.1.length

/-- The characters a `&` before this stands for, and the length of the reference after the `&`.
Only characters of references can belong to it. -/
def reference (l : List Char) : Option (List Char × ℕ) :=
  match l.takeWhile isReferenceChar with
  | [] => none
  | c :: run =>
    if c = '#' then (number run).map fun p => ([r.numbered p.1], p.2 + 1)
    else (r.named (c :: run)).map fun p => (p.2, p.1.length)

/-! ### Reading -/

/-- Read a text after leaving out some characters. -/
def readAfter : ℕ → List Char → List Piece
  | _, [] => []
  | n + 1, _ :: l => readAfter n l
  | 0, c :: l =>
    if c = '<' then
      if opens l then .markup (c :: markup l) :: readAfter (markup l).length l
      else .char c :: readAfter 0 l
    else if c = '&' then
      match r.reference l with
      | some (shown, n) => shown.map .char ++ readAfter n l
      | none => .char c :: readAfter 0 l
    else .char c :: readAfter 0 l

/-- What a reader makes of a text. -/
def read (l : List Char) : List Piece := r.readAfter 0 l

/-- Markup or a reference begins here. -/
def interpreted : List Char → Bool
  | [] => false
  | c :: l =>
    c == '<' && l.head?.any (fun d => d.isAlpha || d == '!' || d == '?' || d == '/') ||
      c == '&' && (r.reference l).isSome

/-- No character of the text begins markup or a reference. -/
def Plain (l : List Char) : Prop := ∀ u ∈ l.tails, r.interpreted u = false

instance (l : List Char) : Decidable (r.Plain l) := List.decidableBAll _ _

end Reader

/-! ### How far markup and references go -/

theorem throughGt_isPrefix (l : List Char) : throughGt l <+: l := by
  induction l with
  | nil => exact List.prefix_refl _
  | cons c l ih =>
    rw [throughGt]
    split_ifs
    · exact List.cons_prefix_cons.mpr ⟨rfl, List.nil_prefix⟩
    · exact List.cons_prefix_cons.mpr ⟨rfl, ih⟩

theorem throughDashes_isPrefix (l : List Char) : throughDashes l <+: l := by
  induction l with
  | nil => exact List.prefix_refl _
  | cons c l ih =>
    rw [throughDashes]
    split_ifs with hdashes hbang
    · exact List.isPrefixOf_iff_prefix.mp hdashes
    · exact List.isPrefixOf_iff_prefix.mp hbang
    · exact List.cons_prefix_cons.mpr ⟨rfl, ih⟩

theorem comment_isPrefix (l : List Char) : comment l <+: l := by
  rw [comment]
  split_ifs with hgt hdash
  · exact List.isPrefixOf_iff_prefix.mp hgt
  · exact List.isPrefixOf_iff_prefix.mp hdash
  · exact throughDashes_isPrefix l

theorem throughTag_isPrefix (q : TagState) (l : List Char) : throughTag q l <+: l := by
  induction l generalizing q with
  | nil => exact List.prefix_refl _
  | cons c l ih =>
    rw [throughTag]
    split_ifs
    · exact List.cons_prefix_cons.mpr ⟨rfl, List.nil_prefix⟩
    · exact List.cons_prefix_cons.mpr ⟨rfl, ih _⟩

/-- A tag name of letters only. -/
def IsTagName (name : List Char) : Prop := name ≠ [] ∧ ∀ c ∈ name, c.isAlpha = true

instance : DecidablePred IsTagName := fun _ =>
  @instDecidableAnd _ _ inferInstance (List.decidableBAll _ _)

theorem throughTag_append {name : List Char} (h : ∀ c ∈ name, c.isAlpha = true) (l : List Char) :
    throughTag .name (name ++ '>' :: l) = name ++ ['>'] := by
  induction name with
  | nil => rfl
  | cons c name ih =>
    obtain ⟨hc, hname⟩ := List.forall_mem_cons.mp h
    have hends : TagState.ends c .name = false := by
      refine Bool.eq_false_iff.mpr fun hgt => ?_
      obtain rfl : c = '>' := by simpa [TagState.ends] using hgt
      exact absurd hc (by decide)
    have hnext : TagState.next c .name = .name := by
      have hstop : ∀ d : Char, d.isAlpha = false → (c == d) = false := fun d hd =>
        beq_eq_false_iff_ne.mpr fun heq => by simp [heq, hd] at hc
      simp [TagState.next, isSpace, hstop ' ' rfl, hstop '\t' rfl, hstop '\n' rfl, hstop '\r' rfl,
        hstop '\x0c' rfl, hstop '/' rfl]
    rw [List.cons_append, throughTag, if_neg (by simp [hends]), hnext, ih hname, List.cons_append]

theorem markup_isPrefix (l : List Char) : markup l <+: l := by
  cases l with
  | nil => exact List.prefix_refl _
  | cons c l =>
    rw [markup]
    split_ifs with halpha hslash hbang
    · exact throughTag_isPrefix _ _
    · exact List.cons_prefix_cons.mpr ⟨rfl, throughTag_isPrefix _ _⟩
    · obtain ⟨t, ht⟩ := List.isPrefixOf_iff_prefix.mp hbang
      rw [← ht]
      exact (List.prefix_append_right_inj _).mpr (comment_isPrefix _)
    · exact throughGt_isPrefix _

theorem length_le_of_numeral {isDigit : Char → Bool} {value : List Char → ℕ} {l : List Char}
    {n k : ℕ} (h : numeral isDigit value l = some (n, k)) : 1 ≤ k ∧ k ≤ l.length := by
  unfold numeral at h
  dsimp only at h
  split_ifs at h with hnil hsemi
  all_goals
    obtain ⟨-, rfl⟩ := Prod.mk.inj (Option.some.inj h)
    have hsum := congrArg List.length (List.takeWhile_append_dropWhile (p := isDigit) (l := l))
    rw [List.length_append] at hsum
    have hpos := List.length_pos_iff.mpr hnil
  · have hrest := List.length_pos_iff.mpr (List.ne_nil_of_mem (List.mem_of_mem_head? hsemi))
    omega
  · omega

theorem length_le_of_number {l : List Char} {n k : ℕ} (h : number l = some (n, k)) :
    1 ≤ k ∧ k ≤ l.length := by
  cases l with
  | nil => simp [number] at h
  | cons c l =>
    rw [number] at h
    split_ifs at h
    · obtain ⟨⟨m, j⟩, hj, heq⟩ := Option.map_eq_some_iff.mp h
      obtain ⟨-, rfl⟩ := Prod.mk.inj heq
      have hle := length_le_of_numeral hj
      rw [List.length_cons]
      omega
    · exact length_le_of_numeral h

namespace Reader

variable {r : Reader} {l s t : List Char} {c : Char} {n : ℕ}

/-- A reference has at least as many characters after its `&` as it shows. -/
theorem length_le_of_reference {shown : List Char} (h : r.reference l = some (shown, n)) :
    shown.length ≤ n ∧ n ≤ l.length := by
  have hrun : (l.takeWhile isReferenceChar).length ≤ l.length :=
    (List.takeWhile_prefix isReferenceChar).length_le
  unfold reference at h
  split at h
  · exact absurd h (by simp)
  · rename_i d run hd
    rw [hd, List.length_cons] at hrun
    split_ifs at h
    · obtain ⟨⟨m, j⟩, hj, heq⟩ := Option.map_eq_some_iff.mp h
      obtain ⟨rfl, rfl⟩ := Prod.mk.inj heq
      have hle := length_le_of_number hj
      rw [List.length_singleton]
      omega
    · obtain ⟨p, hp, heq⟩ := Option.map_eq_some_iff.mp h
      obtain ⟨rfl, rfl⟩ := Prod.mk.inj heq
      obtain ⟨hmem, hpre⟩ := List.mem_filter.mp (List.argmax_mem hp)
      have hle := (List.isPrefixOf_iff_prefix.mp hpre).length_le
      rw [List.length_cons] at hle
      exact ⟨r.length_le p hmem, by omega⟩

/-! ### Reading step by step -/

theorem readAfter_eq_read (n : ℕ) (l : List Char) : r.readAfter n l = r.read (l.drop n) := by
  induction l generalizing n with
  | nil => rw [List.drop_nil, readAfter, read, readAfter]
  | cons c l ih =>
    cases n with
    | zero => rfl
    | succ n => rw [readAfter, ih, List.drop_succ_cons]

theorem read_markup (h : opens l = true) :
    r.read ('<' :: l) = .markup ('<' :: markup l) :: r.read (l.drop (markup l).length) := by
  rw [read, readAfter, if_pos rfl, if_pos h, readAfter_eq_read]

theorem read_reference {shown : List Char} (h : r.reference l = some (shown, n)) :
    r.read ('&' :: l) = shown.map .char ++ r.read (l.drop n) := by
  rw [read, readAfter, if_neg (by decide), if_pos rfl, h, ← readAfter_eq_read]

/-- A character that begins neither markup nor a reference. -/
theorem read_char (hlt : c = '<' → opens l = false) (hamp : c = '&' → r.reference l = none) :
    r.read (c :: l) = .char c :: r.read l := by
  rw [read, readAfter, ← read]
  split_ifs with hc hopens hc'
  · rw [hlt hc] at hopens
    exact absurd hopens Bool.false_ne_true
  · rfl
  · rw [hamp hc']
  · rfl

theorem read_of_notMem (hlt : '<' ∉ t) (hamp : '&' ∉ t) (s : List Char) :
    r.read (t ++ s) = t.map .char ++ r.read s := by
  induction t with
  | nil => rfl
  | cons c t ih =>
    obtain ⟨hlt, hlt'⟩ := List.ne_and_not_mem_of_not_mem_cons hlt
    obtain ⟨hamp, hamp'⟩ := List.ne_and_not_mem_of_not_mem_cons hamp
    rw [List.cons_append, read_char (fun h => absurd h.symm hlt) (fun h => absurd h.symm hamp),
      ih hlt' hamp', List.map_cons, List.cons_append]

/-- A text begins with markup, with a reference, or with a character to show. -/
theorem read_cases (r : Reader) (c : Char) (l : List Char) :
    (∃ raw, raw.length ≤ l.length ∧
      r.read (c :: l) = .markup (c :: raw) :: r.read (l.drop raw.length)) ∨
    (∃ (shown : List Char) (n : ℕ), shown.length ≤ n ∧ n ≤ l.length ∧
      r.read (c :: l) = shown.map .char ++ r.read (l.drop n)) ∨
    r.read (c :: l) = .char c :: r.read l := by
  by_cases hlt : c = '<' ∧ opens l = true
  · obtain ⟨rfl, hopens⟩ := hlt
    exact .inl ⟨markup l, (markup_isPrefix l).length_le, read_markup hopens⟩
  by_cases hamp : c = '&' ∧ (r.reference l).isSome = true
  · obtain ⟨rfl, href⟩ := hamp
    obtain ⟨⟨shown, n⟩, href⟩ := Option.isSome_iff_exists.mp href
    obtain ⟨hshown, hn⟩ := length_le_of_reference href
    exact .inr (.inl ⟨shown, n, hshown, hn, read_reference href⟩)
  · refine .inr (.inr (read_char (fun hc => ?_) fun hc => ?_))
    · exact Bool.eq_false_iff.mpr fun h => hlt ⟨hc, h⟩
    · exact Option.not_isSome_iff_eq_none.mp fun h => hamp ⟨hc, h⟩

end Reader

/-! ### The count -/

/-- How many characters a piece counts for. -/
def Piece.weight : Piece → ℕ
  | .char _ => 1
  | .markup raw => raw.length

def weight (ps : List Piece) : ℕ := (ps.map Piece.weight).sum

@[simp] theorem weight_cons (p : Piece) (ps : List Piece) :
    weight (p :: ps) = p.weight + weight ps := by
  rw [weight, weight, List.map_cons, List.sum_cons]

@[simp] theorem weight_append (ps qs : List Piece) : weight (ps ++ qs) = weight ps + weight qs := by
  rw [weight, weight, weight, List.map_append, List.sum_append]

@[simp] theorem weight_map_char (l : List Char) : weight (l.map .char) = l.length := by
  induction l with
  | nil => rfl
  | cons c l ih =>
    rw [List.map_cons, weight_cons, ih, Piece.weight, List.length_cons]
    omega

namespace Reader

variable {r : Reader} {l s t : List Char} {c : Char} {n : ℕ}

/-- Nothing counts for more than it has characters. -/
theorem weight_read_le (r : Reader) (l : List Char) : weight (r.read l) ≤ l.length := by
  induction hn : l.length using Nat.strong_induction_on generalizing l with
  | h n ih =>
    subst hn
    cases l with
    | nil => exact Nat.le_refl _
    | cons c l =>
      have hdrop : ∀ k, weight (r.read (l.drop k)) ≤ l.length - k := by
        intro k
        have hlt : (l.drop k).length < (c :: l).length := by
          rw [List.length_drop, List.length_cons]
          omega
        exact (ih _ hlt _ rfl).trans_eq List.length_drop
      rcases r.read_cases c l with ⟨raw, hle, hread⟩ | ⟨shown, n, hshown, hle, hread⟩ | hread
      · have hrest := hdrop raw.length
        rw [hread, weight_cons, Piece.weight, List.length_cons, List.length_cons]
        omega
      · have hrest := hdrop n
        rw [hread, weight_append, weight_map_char, List.length_cons]
        omega
      · have hrest := hdrop 0
        rw [List.drop_zero] at hrest
        rw [hread, weight_cons, Piece.weight, List.length_cons]
        omega

/-! ### Plain texts -/

theorem plain_cons : r.Plain (c :: l) ↔ r.interpreted (c :: l) = false ∧ r.Plain l := by
  rw [Plain, List.tails_cons, List.forall_mem_cons, Plain]

/-- A reference does not go past a `<`. -/
theorem reference_append (t s : List Char) : r.reference (t ++ '<' :: s) = r.reference t := by
  have hrun : (t ++ '<' :: s).takeWhile isReferenceChar = t.takeWhile isReferenceChar := by
    induction t with
    | nil => rfl
    | cons c t ih => rw [List.cons_append, List.takeWhile_cons, List.takeWhile_cons, ih]
  rw [reference, reference, hrun]

/-- Whether a character is interpreted does not depend on what follows, if that is a `<`. -/
theorem interpreted_cons (c : Char) (t s : List Char) : r.interpreted (c :: t) = true ↔
    c = '<' ∧ opens (t ++ '<' :: s) = true ∨
      c = '&' ∧ (r.reference (t ++ '<' :: s)).isSome = true := by
  have hopens : opens (t ++ '<' :: s) =
      t.head?.any fun d => d.isAlpha || d == '!' || d == '?' || d == '/' := by
    cases t with
    | nil => rfl
    | cons d t =>
      have hne : (t ++ '<' :: s).isEmpty = false := by cases t <;> rfl
      rw [List.cons_append, opens, hne, Bool.not_false, Bool.and_true]
      rfl
  rw [reference_append, hopens, interpreted]
  simp only [Bool.or_eq_true, Bool.and_eq_true, beq_iff_eq]

/-- **A text before a `<` is shown as it stands exactly when it is plain**, and the rest is read as
it would be alone. -/
theorem read_append_iff {rest : List Piece} (hrest : weight rest = s.length + 1) :
    r.read (t ++ '<' :: s) = t.map .char ++ rest ↔ r.Plain t ∧ r.read ('<' :: s) = rest := by
  induction t with
  | nil => simp [Plain, interpreted]
  | cons c t ih =>
    rw [plain_cons, and_assoc, ← ih, List.map_cons, List.cons_append, List.cons_append]
    have hinterpreted := r.interpreted_cons c t s
    by_cases hmark : r.interpreted (c :: t) = true
    · refine iff_of_false (fun hread => ?_) fun h => by simp [hmark] at h
      rcases hinterpreted.mp hmark with ⟨rfl, hopens⟩ | ⟨rfl, href⟩
      · simp [read_markup hopens] at hread
      · -- The reference counts for less than its characters.
        obtain ⟨⟨shown, n⟩, href⟩ := Option.isSome_iff_exists.mp href
        have hle := length_le_of_reference href
        have hdrop := weight_read_le r ((t ++ '<' :: s).drop n)
        have hweight := congrArg weight hread
        rw [read_reference href, weight_append, weight_map_char, weight_cons, weight_append,
          weight_map_char, hrest, Piece.weight] at hweight
        rw [List.length_drop] at hdrop
        rw [List.length_append, List.length_cons] at hle hdrop
        omega
    · have hlt : c = '<' → opens (t ++ '<' :: s) = false := fun hc =>
        Bool.eq_false_iff.mpr fun h => hmark (hinterpreted.mpr (.inl ⟨hc, h⟩))
      have hamp : c = '&' → r.reference (t ++ '<' :: s) = none := fun hc =>
        Option.not_isSome_iff_eq_none.mp fun h => hmark (hinterpreted.mpr (.inr ⟨hc, h⟩))
      rw [read_char hlt hamp, List.cons_eq_cons]
      simp [hmark]

/-! ### Tags -/

/-- A start tag without attributes. -/
theorem read_startTag {name : List Char} (h : IsTagName name) (l : List Char) :
    r.read ('<' :: name ++ '>' :: l) = .markup ('<' :: name ++ ['>']) :: r.read l := by
  obtain ⟨hne, halpha⟩ := h
  obtain ⟨c, name, rfl⟩ := List.exists_cons_of_ne_nil hne
  have hc := halpha c List.mem_cons_self
  have hmarkup : markup (c :: name ++ '>' :: l) = c :: name ++ ['>'] := by
    rw [List.cons_append, markup, if_pos hc, ← List.cons_append, throughTag_append halpha]
  rw [List.cons_append, read_markup (by simp [opens, hc]), hmarkup]
  simp

/-- An end tag. -/
theorem read_endTag {name : List Char} (h : IsTagName name) (l : List Char) :
    r.read ('<' :: '/' :: name ++ '>' :: l) =
      .markup ('<' :: '/' :: name ++ ['>']) :: r.read l := by
  obtain ⟨hne, halpha⟩ := h
  have hhead : (name ++ '>' :: l).head?.any Char.isAlpha = true := by
    obtain ⟨c, name, rfl⟩ := List.exists_cons_of_ne_nil hne
    exact halpha c List.mem_cons_self
  have hmarkup : markup ('/' :: (name ++ '>' :: l)) = '/' :: (name ++ ['>']) := by
    rw [markup, if_neg (by decide), if_pos (by simp only [hhead]; rfl), throughTag_append halpha]
  rw [List.cons_append, List.cons_append, read_markup (by simp [opens]), hmarkup]
  simp

end Reader

end Html

end Lib

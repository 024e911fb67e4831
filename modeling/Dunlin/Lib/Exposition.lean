import Dunlin.Lib.Numeral

/-!
# A text format for metrics

A reader for the text-based exposition format, version 0.0.4. A text is lines, each ended by a line
feed. `readLine` reads one: nothing, a comment, the help text or the type of a metric, or a sample
with its labels, its value and perhaps a timestamp. `families` puts the lines of one metric
together.

Values and timestamps are tokens here. The help text runs to the end of its line. Whether every
metric is given only once is not checked: the families come in the order of the text.

The `_append` and `_of_` lemmas say what each reader takes of a text that continues, and what is
left.

## Main results

* `takeQuoted_append` — a written label value is read back, whatever is in it
* `readLine_help`, `readLine_type`, `readLine_sample` — each kind of line
* `parse_text` — what was written is read back, family by family
* `splitLines_text` — and has no lines but its own
-/

namespace Lib

namespace Exposition

/-! ### Names, tokens and quoted values -/

/-- What separates tokens. -/
def isBlank (c : Char) : Bool := c == ' ' || c == '\t'

def isLabelStart (c : Char) : Bool := c.isAlpha || c == '_'

def isLabelChar (c : Char) : Bool := isLabelStart c || c.isDigit

/-- A metric name may have colons. -/
def isNameStart (c : Char) : Bool := isLabelStart c || c == ':'

def isNameChar (c : Char) : Bool := isNameStart c || c.isDigit

/-- A name: its first character, and the ones that may follow. -/
def IsName (start more : Char → Bool) : List Char → Prop
  | [] => False
  | c :: l => start c = true ∧ ∀ d ∈ l, more d = true

instance (start more : Char → Bool) : DecidablePred (IsName start more)
  | [] => isFalse id
  | _ :: l => @instDecidableAnd _ _ inferInstance (List.decidableBAll _ l)

abbrev MetricName : List Char → Prop := IsName isNameStart isNameChar

abbrev LabelName : List Char → Prop := IsName isLabelStart isLabelChar

def skipBlanks (l : List Char) : List Char := l.dropWhile isBlank

def takeName (start more : Char → Bool) : List Char → Option (List Char × List Char)
  | [] => none
  | c :: l => if start c then some (c :: l.takeWhile more, l.dropWhile more) else none

/-- The characters up to the next blank. -/
def takeToken (l : List Char) : List Char × List Char :=
  (l.takeWhile fun c => !isBlank c, l.dropWhile fun c => !isBlank c)

/-- A label value up to its closing quote. -/
def takeQuoted : List Char → Option (List Char × List Char)
  | [] => none
  | '"' :: l => some ([], l)
  | '\\' :: '\\' :: l => (takeQuoted l).map fun r => ('\\' :: r.1, r.2)
  | '\\' :: '"' :: l => (takeQuoted l).map fun r => ('"' :: r.1, r.2)
  | '\\' :: 'n' :: l => (takeQuoted l).map fun r => ('\n' :: r.1, r.2)
  | '\\' :: _ => none
  | c :: l => (takeQuoted l).map fun r => (c :: r.1, r.2)

/-- A help text. -/
def unescapeText : List Char → Option (List Char)
  | [] => some []
  | '\\' :: '\\' :: l => (unescapeText l).map ('\\' :: ·)
  | '\\' :: 'n' :: l => (unescapeText l).map ('\n' :: ·)
  | '\\' :: _ => none
  | c :: l => (unescapeText l).map (c :: ·)

/-! ### Lines -/

structure Label where
  name : List Char
  value : List Char
  deriving DecidableEq, Repr

/-- `name="value"`. -/
def takeLabel (l : List Char) : Option (Label × List Char) :=
  match takeName isLabelStart isLabelChar (skipBlanks l) with
  | none => none
  | some (name, l) =>
    match skipBlanks l with
    | '=' :: l =>
      match skipBlanks l with
      | '"' :: l => (takeQuoted l).map fun r => (⟨name, r.1⟩, r.2)
      | _ => none
    | _ => none

/-- The labels up to the closing brace, a comma after the last of them allowed. One round of the
fuel is one label. -/
def takeLabels : ℕ → List Char → Option (List Label × List Char)
  | 0, _ => none
  | fuel + 1, l =>
    match skipBlanks l with
    | '}' :: l => some ([], l)
    | l =>
      match takeLabel l with
      | none => none
      | some (label, l) =>
        match skipBlanks l with
        | '}' :: l => some ([label], l)
        | ',' :: l => (takeLabels fuel l).map fun r => (label :: r.1, r.2)
        | _ => none

structure Sample where
  labels : List Label
  value : List Char
  timestamp : Option (List Char)
  deriving DecidableEq, Repr

/-- The value of a sample, a timestamp if there is one, and nothing after them. -/
def takeValue (labels : List Label) (l : List Char) : Option Sample :=
  let (value, l) := takeToken (skipBlanks l)
  let (timestamp, l) := takeToken (skipBlanks l)
  if value = [] ∨ skipBlanks l ≠ [] then none
  else some ⟨labels, value, if timestamp = [] then none else some timestamp⟩

def takeSample (l : List Char) : Option (List Char × Sample) :=
  match takeName isNameStart isNameChar l with
  | none => none
  | some (name, l) =>
    match skipBlanks l with
    | '{' :: l =>
      match takeLabels (l.length + 1) l with
      | none => none
      | some (labels, l) => (takeValue labels l).map (name, ·)
    | l => (takeValue [] l).map (name, ·)

inductive MetricType
  | counter
  | gauge
  | histogram
  | summary
  | untyped
  deriving DecidableEq, Repr

def metricType (token : List Char) : Option MetricType :=
  [("counter", MetricType.counter), ("gauge", .gauge), ("histogram", .histogram),
    ("summary", .summary), ("untyped", .untyped)].lookup (String.ofList token)

inductive Line
  | empty
  | comment
  | help (name text : List Char)
  | type (name : List Char) (type : MetricType)
  | sample (name : List Char) (sample : Sample)
  deriving DecidableEq, Repr

/-- What follows `#`. Only `HELP` and `TYPE` mean anything. -/
def readComment (l : List Char) : Option Line :=
  let (word, l) := takeToken (skipBlanks l)
  if word = ['H', 'E', 'L', 'P'] then
    match takeName isNameStart isNameChar (skipBlanks l) with
    | none => none
    | some (name, l) =>
      if l.head?.all isBlank then (unescapeText (skipBlanks l)).map (.help name) else none
  else if word = ['T', 'Y', 'P', 'E'] then
    match takeName isNameStart isNameChar (skipBlanks l) with
    | none => none
    | some (name, l) =>
      let (token, rest) := takeToken (skipBlanks l)
      if l.head?.all isBlank && (skipBlanks rest).isEmpty then
        (metricType token).map (.type name)
      else none
  else some .comment

def readLine (l : List Char) : Option Line :=
  match skipBlanks l with
  | [] => some .empty
  | '#' :: l => readComment l
  | l => (takeSample l).map fun r => .sample r.1 r.2

/-- The lines of a text, and what follows the last line feed. -/
def splitLines : List Char → List (List Char) × List Char
  | [] => ([], [])
  | '\n' :: l => ([] :: (splitLines l).1, (splitLines l).2)
  | c :: l =>
    match splitLines l with
    | (first :: lines, rest) => ((c :: first) :: lines, rest)
    | ([], rest) => ([], c :: rest)

/-! ### Families -/

/-- What a text says about one metric. -/
structure MetricFamily where
  name : List Char
  help : Option (List Char) := none
  type : Option MetricType := none
  samples : List Sample := []
  deriving DecidableEq, Repr

namespace MetricFamily

/-- The names of a family's samples; those of a histogram or a summary have suffixes. -/
def takes (f : MetricFamily) (name : List Char) : Bool :=
  name = f.name || ((f.type = some .histogram || f.type = some .summary) &&
    ["_sum", "_count", "_bucket"].any fun suffix => name = f.name ++ suffix.toList)

end MetricFamily

/-- The families so far, the latest first, with one more line. -/
def addLine (fs : List MetricFamily) : Line → List MetricFamily
  | .empty => fs
  | .comment => fs
  | .help name text =>
    match fs with
    | [] => [{ name, help := some text }]
    | f :: fs =>
      if f.name = name ∧ f.help = none ∧ f.samples = [] then { f with help := some text } :: fs
      else { name, help := some text } :: f :: fs
  | .type name type =>
    match fs with
    | [] => [{ name, type := some type }]
    | f :: fs =>
      if f.name = name ∧ f.type = none ∧ f.samples = [] then { f with type := some type } :: fs
      else { name, type := some type } :: f :: fs
  | .sample name sample =>
    match fs with
    | [] => [{ name, samples := [sample] }]
    | f :: fs =>
      if f.takes name then { f with samples := f.samples ++ [sample] } :: fs
      else { name, samples := [sample] } :: f :: fs

def families (lines : List Line) : List MetricFamily := (lines.foldl addLine []).reverse

/-- Read a text. -/
def parse (text : List Char) : Option (List MetricFamily) :=
  match splitLines text with
  | (lines, []) => (lines.mapM readLine).map families
  | (_, _ :: _) => none

/-! ### Writing

The plainest text for a family: its help text, its type, and a line for each sample. -/

/-- A character of a label value. -/
def valueCode (c : Char) : List Char :=
  if c = '\\' then ['\\', '\\'] else if c = '"' then ['\\', '"']
  else if c = '\n' then ['\\', 'n'] else [c]

/-- A character of a help text. -/
def textCode (c : Char) : List Char :=
  if c = '\\' then ['\\', '\\'] else if c = '\n' then ['\\', 'n'] else [c]

def Label.text (l : Label) : List Char :=
  l.name ++ '=' :: '"' :: (l.value.flatMap valueCode ++ ['"'])

def labelsText (labels : List Label) : List Char :=
  if labels = [] then [] else '{' :: ([','].intercalate (labels.map Label.text) ++ ['}'])

def sampleText (name : List Char) (s : Sample) : List Char :=
  name ++ labelsText s.labels ++ ' ' :: s.value

def helpText (name text : List Char) : List Char :=
  '#' :: ' ' :: (['H', 'E', 'L', 'P'] ++ ' ' :: (name ++ ' ' :: text.flatMap textCode))

def MetricType.token : MetricType → String
  | .counter => "counter"
  | .gauge => "gauge"
  | .histogram => "histogram"
  | .summary => "summary"
  | .untyped => "untyped"

def typeText (name : List Char) (type : MetricType) : List Char :=
  '#' :: ' ' :: (['T', 'Y', 'P', 'E'] ++ ' ' :: (name ++ ' ' :: type.token.toList))

/-- A label whose name may be written. -/
def Label.Valid (label : Label) : Prop := LabelName label.name

/-- What numbers are written with. -/
def isNumberChar (c : Char) : Bool := c.isAlphanum || c == '+' || c == '-' || c == '.'

/-- A token that may be a number. -/
def NumberToken (l : List Char) : Prop := l ≠ [] ∧ ∀ c ∈ l, isNumberChar c = true

instance : DecidablePred NumberToken := fun l =>
  @instDecidableAnd _ _ inferInstance (List.decidableBAll _ l)

/-- A sample as it is written: valid labels, a value, and no timestamp. -/
structure Sample.Valid (s : Sample) : Prop where
  labels : ∀ label ∈ s.labels, label.Valid
  value : NumberToken s.value
  timestamp : s.timestamp = none

/-- A family to be written. -/
structure Written where
  name : List Char
  help : List Char
  type : MetricType
  samples : List Sample

namespace Written

def lines (w : Written) : List (List Char) :=
  helpText w.name w.help :: typeText w.name w.type :: w.samples.map (sampleText w.name)

def text (w : Written) : List Char := w.lines.flatMap (· ++ ['\n'])

/-- What it says. -/
def family (w : Written) : MetricFamily := ⟨w.name, some w.help, some w.type, w.samples⟩

/-- A blank at the beginning of the help text would be taken for a separator. -/
structure Valid (w : Written) : Prop where
  name : MetricName w.name
  help : ∀ c ∈ w.help.head?, isBlank c = false
  samples : ∀ s ∈ w.samples, s.Valid

end Written

/-! ### Reading what was written -/

section Tokens

variable {start more : Char → Bool} {name token rest l : List Char}

@[simp] theorem skipBlanks_nil : skipBlanks [] = [] := rfl

theorem skipBlanks_cons {c : Char} (h : isBlank c = false) (l : List Char) :
    skipBlanks (c :: l) = c :: l := List.dropWhile_cons_of_neg (by simp [h])

theorem skipBlanks_space (l : List Char) : skipBlanks (' ' :: l) = skipBlanks l := rfl

theorem takeName_append (hname : IsName start more name)
    (hrest : ∀ c ∈ rest.head?, more c = false) :
    takeName start more (name ++ rest) = some (name, rest) := by
  cases name with
  | nil => exact absurd hname id
  | cons c l =>
    obtain ⟨htake, hdrop⟩ := takeWhile_append_stop hname.2 hrest
    rw [List.cons_append, takeName, if_pos hname.1, htake, hdrop]

theorem takeToken_append (htoken : ∀ c ∈ token, isBlank c = false)
    (hrest : ∀ c ∈ rest.head?, isBlank c = true) : takeToken (token ++ rest) = (token, rest) := by
  have hsplit := @takeWhile_append_stop Char (fun c => !isBlank c) token rest
    (fun c hc => by simp [htoken c hc]) (fun c hc => by simp [hrest c hc])
  rw [takeToken, hsplit.1, hsplit.2]

/-- **A written label value is read back**, whatever is in it. -/
theorem takeQuoted_append (v rest : List Char) :
    takeQuoted (v.flatMap valueCode ++ '"' :: rest) = some (v, rest) := by
  induction v with
  | nil => rfl
  | cons c v ih =>
    rw [List.flatMap_cons, List.append_assoc]
    by_cases hslash : c = '\\'
    · subst hslash
      simp [valueCode, takeQuoted, ih]
    by_cases hquote : c = '"'
    · subst hquote
      simp [valueCode, takeQuoted, ih]
    by_cases hnewline : c = '\n'
    · subst hnewline
      simp [valueCode, takeQuoted, ih]
    simp [valueCode, takeQuoted, hslash, hquote, hnewline, ih]

theorem unescapeText_flatMap (t : List Char) : unescapeText (t.flatMap textCode) = some t := by
  induction t with
  | nil => rfl
  | cons c t ih =>
    rw [List.flatMap_cons]
    by_cases hslash : c = '\\'
    · subst hslash
      simp [textCode, unescapeText, ih]
    by_cases hnewline : c = '\n'
    · subst hnewline
      simp [textCode, unescapeText, ih]
    simp [textCode, unescapeText, hslash, hnewline, ih]

end Tokens

section Samples

variable {labels : List Label} {label : Label} {s : Sample} {name value rest : List Char}

/-- A character of a kind that another one is not of. -/
theorem ne_of_kind {p : Char → Bool} {c d : Char} (hc : p c = true) (hd : p d = false) : c ≠ d := by
  rintro rfl
  rw [hc] at hd
  exact absurd hd (by decide)

theorem not_blank_of_kind {p : Char → Bool} {c : Char} (hc : p c = true) (hspace : p ' ' = false)
    (htab : p '\t' = false) : isBlank c = false := by
  rw [isBlank, Bool.or_eq_false_iff, beq_eq_false_iff_ne, beq_eq_false_iff_ne]
  exact ⟨ne_of_kind hc hspace, ne_of_kind hc htab⟩

theorem not_blank_of_labelStart {c : Char} (h : isLabelStart c = true) : isBlank c = false :=
  not_blank_of_kind h rfl rfl

theorem not_blank_of_nameStart {c : Char} (h : isNameStart c = true) : isBlank c = false :=
  not_blank_of_kind h rfl rfl

theorem not_blank_of_number {c : Char} (h : isNumberChar c = true) : isBlank c = false :=
  not_blank_of_kind h rfl rfl

/-- No blank stands before a name. -/
theorem skipBlanks_name {start more : Char → Bool}
    (hstart : ∀ c, start c = true → isBlank c = false) (h : IsName start more name)
    (rest : List Char) : skipBlanks (name ++ rest) = name ++ rest := by
  cases name with
  | nil => exact absurd h id
  | cons c l => exact skipBlanks_cons (hstart c h.1) _

theorem takeLabel_text (h : label.Valid) (rest : List Char) :
    takeLabel (label.text ++ rest) = some (label, rest) := by
  obtain ⟨name, v⟩ := label
  have htext : Label.text ⟨name, v⟩ ++ rest =
      name ++ '=' :: '"' :: (v.flatMap valueCode ++ '"' :: rest) := by
    simp [Label.text]
  have hname : takeName isLabelStart isLabelChar
      (name ++ '=' :: '"' :: (v.flatMap valueCode ++ '"' :: rest)) =
        some (name, '=' :: '"' :: (v.flatMap valueCode ++ '"' :: rest)) :=
    takeName_append h (by simp; decide)
  rw [htext, takeLabel, skipBlanks_name (fun _ => not_blank_of_labelStart) h, hname]
  have hequals : isBlank '=' = false := rfl
  have hquote : isBlank '"' = false := rfl
  simp only [skipBlanks_cons hequals, skipBlanks_cons hquote, takeQuoted_append, Option.map_some]

/-- A label is read before what comes after it is looked at. -/
theorem takeLabels_append (h : label.Valid) (fuel : ℕ) (rest : List Char) :
    takeLabels (fuel + 1) (label.text ++ rest) =
      match skipBlanks rest with
      | '}' :: l => some ([label], l)
      | ',' :: l => (takeLabels fuel l).map fun r => (label :: r.1, r.2)
      | _ => none := by
  have hlabel := takeLabel_text h rest
  obtain ⟨c, l, hc, htext⟩ : ∃ c l, isLabelStart c = true ∧ label.text ++ rest = c :: l := by
    obtain ⟨name, v⟩ := label
    cases name with
    | nil => exact absurd h id
    | cons c l => exact ⟨c, _, h.1, rfl⟩
  rw [htext] at hlabel
  rw [takeLabels, htext, skipBlanks_cons (not_blank_of_labelStart hc)]
  split
  · rename_i l' hbrace
    rw [(List.cons.inj hbrace).1] at hc
    exact absurd hc (by decide)
  · rw [hlabel]

/-- The labels of a sample, one round of fuel for each. -/
theorem takeLabels_text {fuel : ℕ} (h : ∀ label ∈ labels, label.Valid) (hne : labels ≠ [])
    (hfuel : labels.length ≤ fuel) (rest : List Char) :
    takeLabels fuel ([','].intercalate (labels.map Label.text) ++ '}' :: rest) =
      some (labels, rest) := by
  induction labels generalizing fuel with
  | nil => exact absurd rfl hne
  | cons label labels ih =>
    obtain ⟨fuel, rfl⟩ : ∃ n, fuel = n + 1 :=
      Nat.exists_eq_succ_of_ne_zero (Nat.ne_of_gt (Nat.lt_of_lt_of_le (by simp) hfuel))
    have hlabel := h label List.mem_cons_self
    have hbrace : isBlank '}' = false := rfl
    have hcomma : isBlank ',' = false := rfl
    cases labels with
    | nil =>
      rw [List.map_singleton, List.intercalate_singleton, takeLabels_append hlabel,
        skipBlanks_cons hbrace]
      rfl
    | cons next labels =>
      have hrest := ih (fun l hl => h l (List.mem_cons_of_mem _ hl)) (List.cons_ne_nil _ _)
        (Nat.le_of_succ_le_succ hfuel)
      rw [List.map_cons, List.map_cons, List.intercalate_cons_cons, List.append_assoc,
        List.append_assoc, takeLabels_append hlabel, List.singleton_append, skipBlanks_cons hcomma,
        ← List.map_cons]
      simp only [hrest, Option.map_some]

theorem skipBlanks_number {l : List Char} (h : ∀ c ∈ l, isNumberChar c = true) :
    skipBlanks l = l := by
  cases l with
  | nil => rfl
  | cons c l => exact skipBlanks_cons (not_blank_of_number (h c List.mem_cons_self)) l

theorem takeValue_space (labels : List Label) (l : List Char) :
    takeValue labels (' ' :: l) = takeValue labels l := by
  rw [takeValue, skipBlanks_space, takeValue]

/-- A value at the end of the line. -/
theorem takeValue_text (h : s.Valid) : takeValue s.labels s.value = some s := by
  obtain ⟨labels, value, timestamp⟩ := s
  obtain ⟨hlabels, ⟨hne, hvalue⟩, rfl⟩ := h
  have htoken : takeToken value = (value, []) := by
    have happend := @takeToken_append value [] (fun c hc => not_blank_of_number (hvalue c hc))
      (by simp)
    rwa [List.append_nil] at happend
  have hend : takeToken (skipBlanks []) = ([], []) := rfl
  rw [takeValue, skipBlanks_number hvalue, htoken]
  dsimp only
  have hsome : ¬(value = [] ∨ skipBlanks [] ≠ []) := by
    rw [skipBlanks_nil]
    exact fun h => h.elim hne fun hnil => hnil rfl
  rw [hend, if_neg hsome, if_pos rfl]

theorem length_le_intercalate (labels : List Label) :
    labels.length ≤ ([','].intercalate (labels.map Label.text)).length + 1 := by
  induction labels with
  | nil => exact Nat.zero_le _
  | cons label labels ih =>
    cases labels with
    | nil => simp
    | cons next labels =>
      rw [List.map_cons, List.map_cons, List.intercalate_cons_cons, ← List.map_cons]
      simp only [List.length_append, List.length_cons, List.length_nil] at ih ⊢
      omega

theorem takeSample_text (hname : MetricName name) (h : s.Valid) :
    takeSample (sampleText name s) = some (name, s) := by
  rw [sampleText, labelsText]
  by_cases hnone : s.labels = []
  · have hvalue := takeValue_text h
    have htake : takeName isNameStart isNameChar (name ++ ' ' :: s.value) =
        some (name, ' ' :: s.value) := takeName_append hname (by simp; decide)
    rw [hnone] at hvalue
    rw [if_pos hnone, List.append_nil, takeSample, htake]
    dsimp only
    rw [skipBlanks_space, skipBlanks_number h.value.2]
    split
    · rename_i l hbrace
      have hnumber := h.value.2 '{' (by rw [hbrace]; exact List.mem_cons_self)
      exact absurd hnumber (by decide)
    · rw [hvalue]
      rfl
  · have htake : takeName isNameStart isNameChar (name ++ ('{' ::
          ([','].intercalate (s.labels.map Label.text) ++ '}' :: ' ' :: s.value))) =
        some (name, '{' ::
          ([','].intercalate (s.labels.map Label.text) ++ '}' :: ' ' :: s.value)) :=
      takeName_append hname (by simp; decide)
    have hbrace : isBlank '{' = false := rfl
    have hfuel : s.labels.length ≤ ([','].intercalate (s.labels.map Label.text) ++
        '}' :: ' ' :: s.value).length + 1 := by
      have hle := length_le_intercalate s.labels
      rw [List.length_append]
      omega
    have htext : name ++ ('{' :: ([','].intercalate (s.labels.map Label.text) ++ ['}'])) ++
        ' ' :: s.value = name ++ ('{' ::
          ([','].intercalate (s.labels.map Label.text) ++ '}' :: ' ' :: s.value)) := by
      simp
    rw [if_neg hnone, htext, takeSample, htake]
    simp only [skipBlanks_cons hbrace, takeLabels_text h.labels hnone hfuel, takeValue_space,
      takeValue_text h, Option.map_some]

end Samples

section Lines

variable {name text l : List Char} {type : MetricType} {s : Sample}

/-- What follows `#`, read as a keyword and the name after it. -/
theorem takeKeyword {word : List Char} (hword : word.all (!isBlank ·) = true)
    (hhead : skipBlanks (word ++ ' ' :: (name ++ ' ' :: l)) = word ++ ' ' :: (name ++ ' ' :: l))
    (hname : MetricName name) :
    takeToken (skipBlanks (' ' :: (word ++ ' ' :: (name ++ ' ' :: l)))) =
        (word, ' ' :: (name ++ ' ' :: l)) ∧
      takeName isNameStart isNameChar (skipBlanks (' ' :: (name ++ ' ' :: l))) =
        some (name, ' ' :: l) := by
  constructor
  · rw [skipBlanks_space, hhead]
    refine takeToken_append (fun c hc => ?_) (by simp; decide)
    simpa using List.all_eq_true.mp hword c hc
  · rw [skipBlanks_space, skipBlanks_name (fun _ => not_blank_of_nameStart) hname]
    exact takeName_append hname (by simp; decide)

theorem readLine_comment (l : List Char) : readLine ('#' :: l) = readComment l := rfl

theorem readLine_help (hname : MetricName name) (htext : ∀ c ∈ text.head?, isBlank c = false) :
    readLine (helpText name text) = some (.help name text) := by
  obtain ⟨hkey, htake⟩ := @takeKeyword name (text.flatMap textCode) ['H', 'E', 'L', 'P']
    rfl rfl hname
  have hskip : skipBlanks (' ' :: text.flatMap textCode) = text.flatMap textCode := by
    rw [skipBlanks_space]
    cases text with
    | nil => rfl
    | cons c t =>
      have hc := htext c rfl
      rw [List.flatMap_cons, textCode]
      split_ifs
      · rfl
      · rfl
      · exact skipBlanks_cons hc _
  rw [helpText, readLine_comment, readComment, hkey]
  dsimp only
  rw [if_pos rfl, htake]
  dsimp only
  rw [hskip, unescapeText_flatMap]
  rfl

theorem readLine_type (hname : MetricName name) :
    readLine (typeText name type) = some (.type name type) := by
  obtain ⟨hkey, htake⟩ := @takeKeyword name type.token.toList ['T', 'Y', 'P', 'E'] rfl rfl
    hname
  have htoken : takeToken (skipBlanks (' ' :: type.token.toList)) = (type.token.toList, []) ∧
      metricType type.token.toList = some type := by
    cases type <;> exact ⟨rfl, rfl⟩
  rw [typeText, readLine_comment, readComment, hkey]
  dsimp only
  rw [if_neg (by decide), if_pos rfl, htake]
  dsimp only
  rw [htoken.1]
  dsimp only
  rw [htoken.2]
  rfl

theorem readLine_sample (hname : MetricName name) (h : s.Valid) :
    readLine (sampleText name s) = some (.sample name s) := by
  have hsample := takeSample_text hname h
  obtain ⟨c, l, hc, htext⟩ : ∃ c l, isNameStart c = true ∧ sampleText name s = c :: l := by
    cases name with
    | nil => exact absurd hname id
    | cons c l => exact ⟨c, _, hname.1, rfl⟩
  rw [htext] at hsample
  rw [readLine, htext, skipBlanks_cons (not_blank_of_nameStart hc)]
  split
  · rename_i heq
    exact absurd heq (List.cons_ne_nil _ _)
  · rename_i l' hhash
    rw [(List.cons.inj hhash).1] at hc
    exact absurd hc (by decide)
  · rw [hsample]
    rfl

end Lines

section Texts

variable {name l : List Char} {labels : List Label} {s : Sample} {w : Written} {ws : List Written}

/-! No line has a line feed in it. -/

theorem newline_notMem_name {start more : Char → Bool} (hstart : start '\n' = false)
    (hmore : more '\n' = false) (h : IsName start more name) : '\n' ∉ name := by
  cases name with
  | nil => exact List.not_mem_nil
  | cons c l =>
    intro hmem
    rcases List.mem_cons.mp hmem with heq | hl
    · exact ne_of_kind h.1 hstart heq.symm
    · exact ne_of_kind (h.2 _ hl) hmore rfl

theorem newline_notMem_valueCodes (v : List Char) : '\n' ∉ v.flatMap valueCode := by
  intro hmem
  obtain ⟨c, -, hc⟩ := List.mem_flatMap.mp hmem
  unfold valueCode at hc
  split_ifs at hc with hslash hquote hnewline
  · exact absurd hc (by decide)
  · exact absurd hc (by decide)
  · exact absurd hc (by decide)
  · exact hnewline (List.mem_singleton.mp hc).symm

theorem newline_notMem_textCodes (t : List Char) : '\n' ∉ t.flatMap textCode := by
  intro hmem
  obtain ⟨c, -, hc⟩ := List.mem_flatMap.mp hmem
  unfold textCode at hc
  split_ifs at hc with hslash hnewline
  · exact absurd hc (by decide)
  · exact absurd hc (by decide)
  · exact hnewline (List.mem_singleton.mp hc).symm

theorem newline_notMem_intercalate (h : ∀ label ∈ labels, label.Valid) :
    '\n' ∉ [','].intercalate (labels.map Label.text) := by
  induction labels with
  | nil => exact List.not_mem_nil
  | cons label labels ih =>
    have hlabel : '\n' ∉ label.text := by
      have hname := newline_notMem_name rfl rfl (h label List.mem_cons_self)
      have hvalue := newline_notMem_valueCodes label.value
      simp [Label.text, hname, hvalue]
    have hrest := ih fun l hl => h l (List.mem_cons_of_mem _ hl)
    cases labels with
    | nil => simpa using hlabel
    | cons next labels =>
      rw [List.map_cons] at hrest
      rw [List.map_cons, List.map_cons, List.intercalate_cons_cons]
      simp [hlabel, hrest]

theorem newline_notMem_sampleText (hname : MetricName name) (h : s.Valid) :
    '\n' ∉ sampleText name s := by
  have hn := newline_notMem_name rfl rfl hname
  have hl := newline_notMem_intercalate h.labels
  have hv : '\n' ∉ s.value := fun hmem => ne_of_kind (h.value.2 _ hmem) rfl rfl
  rw [sampleText, labelsText]
  split_ifs <;> simp [hn, hl, hv]

theorem Written.newline_notMem (h : w.Valid) : ∀ l ∈ w.lines, '\n' ∉ l := by
  have hname := newline_notMem_name rfl rfl h.name
  intro l hl
  rcases List.mem_cons.mp hl with rfl | hl
  · have htext := newline_notMem_textCodes w.help
    simp [helpText, hname, htext]
  · rcases List.mem_cons.mp hl with rfl | hl
    · have htoken : '\n' ∉ w.type.token.toList := by cases w.type <;> decide
      simp [typeText, hname, htoken]
    · obtain ⟨s, hs, rfl⟩ := List.mem_map.mp hl
      exact newline_notMem_sampleText h.name (h.samples s hs)

/-- A line is split off at its line feed. -/
theorem splitLines_append (h : '\n' ∉ l) (rest : List Char) :
    splitLines (l ++ '\n' :: rest) = (l :: (splitLines rest).1, (splitLines rest).2) := by
  induction l with
  | nil => rfl
  | cons c l ih =>
    have hc : c ≠ '\n' := fun heq => h (heq ▸ List.mem_cons_self)
    have hl := ih fun hmem => h (List.mem_cons_of_mem _ hmem)
    rw [List.cons_append, splitLines, hl]
    exact hc

theorem splitLines_flatMap {lines : List (List Char)} (h : ∀ l ∈ lines, '\n' ∉ l) :
    splitLines (lines.flatMap (· ++ ['\n'])) = (lines, []) := by
  induction lines with
  | nil => rfl
  | cons l lines ih =>
    rw [List.flatMap_cons, List.append_assoc, List.singleton_append,
      splitLines_append (h l List.mem_cons_self), ih fun l hl => h l (List.mem_cons_of_mem _ hl)]

/-- The lines of a family, as they are read. -/
def Written.read (w : Written) : List Line :=
  .help w.name w.help :: .type w.name w.type :: w.samples.map (.sample w.name)

theorem Written.mapM_readLine (h : w.Valid) : w.lines.mapM readLine = some w.read := by
  have hsamples : ∀ l : List Sample, (∀ s ∈ l, s.Valid) →
      (l.map (sampleText w.name)).mapM readLine = some (l.map (.sample w.name)) := by
    intro l hl
    induction l with
    | nil => rfl
    | cons s l ih =>
      rw [List.map_cons, List.mapM_cons, readLine_sample h.name (hl s List.mem_cons_self),
        ih fun s hs => hl s (List.mem_cons_of_mem _ hs)]
      rfl
  rw [Written.lines, List.mapM_cons, readLine_help h.name h.help, List.mapM_cons,
    readLine_type h.name, hsamples _ h.samples]
  rfl

theorem mapM_readLine_flatMap (h : ∀ w ∈ ws, w.Valid) :
    (ws.flatMap Written.lines).mapM readLine = some (ws.flatMap Written.read) := by
  induction ws with
  | nil => rfl
  | cons w ws ih =>
    rw [List.flatMap_cons, List.mapM_append, Written.mapM_readLine (h w List.mem_cons_self),
      ih fun w hw => h w (List.mem_cons_of_mem _ hw)]
    rfl

/-- Samples are added to the family of their name. -/
theorem foldl_addLine_samples (f : MetricFamily) (fs : List MetricFamily) (samples : List Sample) :
    (samples.map (Line.sample f.name)).foldl addLine (f :: fs) =
      { f with samples := f.samples ++ samples } :: fs := by
  induction samples generalizing f with
  | nil => rw [List.append_nil]; rfl
  | cons s samples ih =>
    have htakes : f.takes f.name = true := by simp [MetricFamily.takes]
    have hrest := ih { f with samples := f.samples ++ [s] }
    rw [List.map_cons, List.foldl_cons, addLine]
    dsimp only at hrest ⊢
    rw [if_pos htakes, hrest, List.append_assoc, List.singleton_append]

/-- After a family that has its help text, another help text begins a family. -/
theorem foldl_addLine_read {fs : List MetricFamily} (hfs : ∀ f ∈ fs.head?, f.help ≠ none) :
    w.read.foldl addLine fs = w.family :: fs := by
  have hhelp : addLine fs (.help w.name w.help) =
      { name := w.name, help := some w.help } :: fs := by
    cases fs with
    | nil => rfl
    | cons f fs => rw [addLine, if_neg fun h => hfs f rfl h.2.1]
  have hsamples := foldl_addLine_samples
    { name := w.name, help := some w.help, type := some w.type } fs w.samples
  rw [Written.read, List.foldl_cons, List.foldl_cons, hhelp, addLine]
  dsimp only at hsamples ⊢
  rw [if_pos ⟨rfl, rfl, rfl⟩, hsamples]
  rfl

theorem families_flatMap (ws : List Written) :
    families (ws.flatMap Written.read) = ws.map Written.family := by
  have hfold : ∀ fs : List MetricFamily, (∀ f ∈ fs.head?, f.help ≠ none) →
      (ws.flatMap Written.read).foldl addLine fs = (ws.map Written.family).reverse ++ fs := by
    induction ws with
    | nil => exact fun fs _ => rfl
    | cons w ws ih =>
      intro fs hfs
      rw [List.flatMap_cons, List.foldl_append, foldl_addLine_read hfs,
        ih _ (by simp [Written.family]), List.map_cons, List.reverse_cons, List.append_assoc]
      rfl
  rw [families, hfold [] (by simp), List.append_nil, List.reverse_reverse]

/-- The lines of what was written. -/
theorem splitLines_text (h : ∀ w ∈ ws, w.Valid) :
    splitLines (ws.flatMap Written.text) = (ws.flatMap Written.lines, []) := by
  have hlines : ws.flatMap Written.text = (ws.flatMap Written.lines).flatMap (· ++ ['\n']) := by
    rw [List.flatMap_assoc]
    rfl
  rw [hlines, splitLines_flatMap]
  intro l hl
  obtain ⟨w, hw, hlw⟩ := List.mem_flatMap.mp hl
  exact Written.newline_notMem (h w hw) l hlw

/-- **What was written is read back**, family by family. -/
theorem parse_text (h : ∀ w ∈ ws, w.Valid) :
    parse (ws.flatMap Written.text) = some (ws.map Written.family) := by
  rw [parse, splitLines_text h]
  dsimp only
  rw [mapM_readLine_flatMap h, Option.map_some, families_flatMap]

end Texts

end Exposition

end Lib

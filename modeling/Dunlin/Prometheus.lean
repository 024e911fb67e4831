import Dunlin.Lib.Exposition
import Dunlin.MessageLinks

/-!
# The metrics page

The model of `prometheus.rs`: gauge families with their series, written in the text exposition
format. The values of labels come from the config, the file system and Docker, and can be any
string. `render` escapes them one way and help texts another; `render_read_back` says that a reader
of the format gets back what was put in.

A value is what `format_value` tells apart, and a finite one is its text: what `f64` writes has only
digits, a sign and a point.
-/

namespace Dunlin

open Lib

namespace Prometheus

/-- What `f64::to_string` makes of a finite number. -/
structure FiniteText where
  text : String
  token : Exposition.NumberToken text.toList

inductive Value
  | nan
  | infinite (positive : Bool)
  | finite (text : FiniteText)

/-- One gauge family: its HELP/TYPE header and every series under it. -/
structure Family where
  name : String
  help : String
  samples : List (List (String × String) × Value)

/-- `Family::gauge`. -/
def Family.gauge (name help : String) : Family := ⟨name, help, []⟩

/-- `Family::push`. -/
def Family.push (labels : List (String × String)) (value : Value) (f : Family) : Family :=
  { f with samples := f.samples ++ [(labels, value)] }

def escapeLabel (v : String) : String :=
  String.ofList <| v.toList.flatMap fun c =>
    match c with
    | '\\' => "\\\\".toList
    | '"' => "\\\"".toList
    | '\n' => "\\n".toList
    | c => [c]

/-- HELP text escapes only backslash and newline; quotes stay as they are. -/
def escapeHelp (v : String) : String := replaceChar '\n' "\\n" (replaceChar '\\' "\\\\" v)

def formatValue : Value → String
  | .nan => "NaN"
  | .infinite positive => if positive then "+Inf" else "-Inf"
  | .finite t => t.text

/-- The labels of a series in braces, if it has any. -/
def renderLabels (labels : List (String × String)) : String :=
  if labels.isEmpty then ""
  else
    "\x7b" ++ ",".intercalate (labels.map fun l => s!"{l.1}=\"{escapeLabel l.2}\"") ++ "\x7d"

/-- The line of a series. -/
def renderSample (name : String) (s : List (String × String) × Value) : String :=
  s!"{name}{renderLabels s.1} {formatValue s.2}\n"

/-- The lines of a family. One with no series still gets its header. -/
def renderFamily (f : Family) : String :=
  s!"# HELP {f.name} {escapeHelp f.help}\n" ++ s!"# TYPE {f.name} gauge\n" ++
    String.join (f.samples.map (renderSample f.name))

/-- Render families in order. -/
def render (families : List Family) : String := String.join (families.map renderFamily)

/-! ### What the families say -/

/-- A series, as a reader of the format is to get it. -/
def sampleOf (s : List (String × String) × Value) : Exposition.Sample where
  labels := s.1.map fun l => ⟨l.1.toList, l.2.toList⟩
  value := (formatValue s.2).toList
  timestamp := none

namespace Family

def written (f : Family) : Exposition.Written where
  name := f.name.toList
  help := f.help.toList
  type := .gauge
  samples := f.samples.map sampleOf

/-- The names are names, and the help text does not begin with a blank. -/
structure Valid (f : Family) : Prop where
  name : Exposition.MetricName f.name.toList
  help : ∀ c ∈ f.help.toList.head?, Exposition.isBlank c = false
  labels : ∀ s ∈ f.samples, ∀ l ∈ s.1, Exposition.LabelName l.1.toList

end Family

variable {f : Family} {fs : List Family}

theorem numberToken_formatValue (v : Value) : Exposition.NumberToken (formatValue v).toList := by
  cases v with
  | nan => decide
  | infinite positive => cases positive <;> decide
  | finite t => exact t.token

theorem Family.Valid.written (h : f.Valid) : f.written.Valid := by
  refine ⟨h.name, h.help, fun sample hsample => ?_⟩
  obtain ⟨s, hs, rfl⟩ := List.mem_map.mp hsample
  refine ⟨fun label hlabel => ?_, numberToken_formatValue s.2, rfl⟩
  obtain ⟨l, hl, rfl⟩ := List.mem_map.mp hlabel
  exact h.labels s hs l hl

/-! ### The rendered text -/

theorem toList_escapeLabel (v : String) :
    (escapeLabel v).toList = v.toList.flatMap Exposition.valueCode := by
  have hcode : ∀ c : Char, (match c with
      | '\\' => "\\\\".toList
      | '"' => "\\\"".toList
      | '\n' => "\\n".toList
      | c => [c]) = Exposition.valueCode c := by
    intro c
    rw [Exposition.valueCode]
    split
    · rfl
    · rfl
    · rfl
    · rename_i hslash hquote hnewline
      rw [if_neg hslash, if_neg hquote, if_neg hnewline]
  rw [escapeLabel, String.toList_ofList]
  simp only [hcode]

/-- Backslashes go first, so that the ones of the newlines are not doubled. -/
theorem toList_escapeHelp (v : String) :
    (escapeHelp v).toList = v.toList.flatMap Exposition.textCode := by
  have hcode : ∀ c : Char, ((if c = '\\' then "\\\\".toList else [c]).flatMap fun x =>
      if x = '\n' then "\\n".toList else [x]) = Exposition.textCode c := by
    intro c
    rw [Exposition.textCode]
    split_ifs with hslash hnewline
    · rfl
    · rw [hnewline]
      rfl
    · simp [hnewline]
  rw [escapeHelp, toList_replaceChar, toList_replaceChar, List.flatMap_assoc]
  simp only [hcode]

theorem toList_renderLabels (labels : List (String × String)) :
    (renderLabels labels).toList =
      Exposition.labelsText (labels.map fun l => ⟨l.1.toList, l.2.toList⟩) := by
  have hlabel : ∀ l : String × String, (s!"{l.1}=\"{escapeLabel l.2}\"").toList =
      Exposition.Label.text ⟨l.1.toList, l.2.toList⟩ := by
    intro l
    simp [toString, Exposition.Label.text, toList_escapeLabel]
  rw [renderLabels, Exposition.labelsText]
  cases labels with
  | nil => rfl
  | cons l labels =>
    rw [if_neg (by simp), if_neg (by simp), String.toList_append, String.toList_append,
      String.toList_intercalate, List.map_map, List.map_map]
    simp only [Function.comp_def, hlabel]
    rfl

theorem toList_renderSample (name : String) (s : List (String × String) × Value) :
    (renderSample name s).toList =
      Exposition.sampleText name.toList (sampleOf s) ++ ['\n'] := by
  simp [toString, renderSample, Exposition.sampleText, sampleOf, toList_renderLabels]

theorem toList_renderFamily (f : Family) : (renderFamily f).toList = f.written.text := by
  simp [toString, renderFamily, Exposition.Written.text, Exposition.Written.lines, Family.written,
    Exposition.helpText, Exposition.typeText, toList_escapeHelp, toList_renderSample,
    List.flatMap_map]
  rfl

theorem toList_render (fs : List Family) :
    (render fs).toList = (fs.map Family.written).flatMap Exposition.Written.text := by
  rw [render, String.toList_join, List.flatMap_map, List.flatMap_map]
  simp only [toList_renderFamily]

/-- **The metrics page is read back as it was meant**: the same families in order, each with its
help text, its type and its series, whatever is in the label values; and it has the lines of the
families and no others. That a name, a series or a label is given once is for whoever builds the
families to see to: the reader takes what it is given twice for two. -/
theorem render_read_back (h : ∀ f ∈ fs, f.Valid) :
    Exposition.parse (render fs).toList = some (fs.map fun f =>
      { name := f.name.toList
        help := some f.help.toList
        type := some .gauge
        samples := f.samples.map sampleOf }) ∧
      (Exposition.splitLines (render fs).toList).1.length =
        (fs.map fun f => 2 + f.samples.length).sum := by
  have hvalid : ∀ w ∈ fs.map Family.written, w.Valid := by
    intro w hw
    obtain ⟨f, hf, rfl⟩ := List.mem_map.mp hw
    exact (h f hf).written
  constructor
  · rw [toList_render, Exposition.parse_text hvalid, List.map_map]
    rfl
  · rw [toList_render, Exposition.splitLines_text hvalid, List.length_flatMap, List.map_map]
    congr 2
    funext f
    simp only [Function.comp_apply, Exposition.Written.lines, Family.written, List.length_cons,
      List.length_map]
    omega

/-- A check with a name that would add a line, if nothing were escaped, and one that is at a
quarter. -/
def oddName : Family :=
  ((Family.gauge "dunlin_check_up" "Passed \\ or\nfailed.").push
    [("check", "a\\b \"c\"\n# TYPE d gauge"), ("state", "")] (.infinite true)).push
    [("check", "web")] (.finite ⟨"0.25", by decide⟩)

theorem oddName_valid : oddName.Valid where
  name := by decide
  help c hc := by
    obtain rfl : 'P' = c := Option.some.inj hc
    rfl
  labels := by
    refine List.forall_mem_cons.mpr ⟨?_, List.forall_mem_singleton.mpr ?_⟩
    · exact List.forall_mem_cons.mpr ⟨by decide, List.forall_mem_singleton.mpr (by decide)⟩
    · exact List.forall_mem_singleton.mpr (by decide)

theorem render_read_back_oddName :
    Exposition.parse (render [oddName]).toList = some [
      { name := "dunlin_check_up".toList
        help := some "Passed \\ or\nfailed.".toList
        type := some .gauge
        samples := [{
          labels := [⟨"check".toList, "a\\b \"c\"\n# TYPE d gauge".toList⟩, ⟨"state".toList, []⟩]
          value := "+Inf".toList
          timestamp := none }, {
          labels := [⟨"check".toList, "web".toList⟩]
          value := "0.25".toList
          timestamp := none }] }] :=
  (render_read_back (List.forall_mem_singleton.mpr oddName_valid)).1

end Prometheus

end Dunlin

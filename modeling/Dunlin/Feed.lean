import Dunlin.CheckResults
import Dunlin.ClientIp
import Dunlin.Lib.Html
import Dunlin.Messages
import Dunlin.Timelines

/-!
# The feed

The model of `feed` in `web.rs` and of its template: the newest incidents as an Atom feed. A feed
reader finds the content elements in the document, undoes the escaping of XML, and reads what it
gets as HTML.

The content of an entry is HTML around two texts, and the template escapes it for XML. For HTML
nothing is escaped: `feed_shows_iff` says for which texts the entry shows them as they are.

The reader is made of two of the library's: `Lib.Xml` for the document and `Lib.Html` for what is in
it. A text is plain when reading it as HTML gives the text itself, with nothing in it that begins a
tag, a comment, a declaration or a reference.

## Scope

Times in the feed are written by a parameter, whose output has no markup. The addresses in it are
those of `feedBase`.

## Main results

* `texts_render` — which texts are in the document
* `read_feedContent_iff` — an entry, by its two texts
* `feed_shows_iff` — every store, config and request
* `feed_bold` — an incident with a title that is not shown as it is
-/

namespace Dunlin

open Lib

/-! ### Queries -/

/-- `ORDER BY ts, id`. -/
def IncidentUpdate.Upto (a b : IncidentUpdate) : Prop := a.ts < b.ts ∨ a.ts = b.ts ∧ a.id ≤ b.id

instance : DecidableRel IncidentUpdate.Upto := fun _ _ => inferInstanceAs (Decidable (_ ∨ _))

instance : Std.Total IncidentUpdate.Upto := ⟨fun a b => by unfold IncidentUpdate.Upto; omega⟩

instance : IsTrans IncidentUpdate IncidentUpdate.Upto :=
  ⟨fun a b c => by unfold IncidentUpdate.Upto; omega⟩

namespace Store

/-- `recent_incidents`. -/
def recentIncidents (pf : Platform) (limit : ℤ) (s : Store) : List Incident :=
  limited limit (pf.newestFirst s.incidents.rows)

/-- `incident_updates`. -/
def incidentUpdates (s : Store) (id : ℤ) : List IncidentUpdate :=
  (s.updates.rows.filter (·.incidentId == id)).insertionSort IncidentUpdate.Upto

theorem mem_incidentUpdates {s : Store} {id : ℤ} {u : IncidentUpdate} :
    u ∈ s.incidentUpdates id ↔ u ∈ s.updates.rows ∧ u.incidentId = id := by
  rw [incidentUpdates, List.mem_insertionSort, List.mem_filter, beq_iff_eq]

theorem upto_last {s : Store} {id : ℤ} {u v : IncidentUpdate}
    (hu : u ∈ s.incidentUpdates id) (hv : (s.incidentUpdates id).getLast? = some v) : u.Upto v := by
  obtain ⟨init, hinit⟩ := List.getLast?_eq_some_iff.mp hv
  have hsorted := List.pairwise_insertionSort IncidentUpdate.Upto
    (s.updates.rows.filter (·.incidentId == id))
  rw [← incidentUpdates, hinit] at hsorted
  rw [hinit] at hu
  rcases List.mem_append.mp hu with hu | hu
  · exact (List.pairwise_append.mp hsorted).2.2 u hu v List.mem_cons_self
  · rw [List.mem_singleton.mp hu]
    exact .inr ⟨rfl, Int.le_refl _⟩

/-- The last one is the newest entry of the timeline. -/
theorem getLast?_incidentUpdates (s : Store) (id : ℤ) :
    (s.incidentUpdates id).getLast? = s.newest id := by
  cases hnewest : s.newest id with
  | none =>
    have hnil := foldl_laterEntry _ (s.updates.sorted.filter (·.incidentId == id))
    rw [newest] at hnewest
    rw [hnewest] at hnil
    rw [incidentUpdates, hnil, List.insertionSort_nil, List.getLast?_nil]
  | some u =>
    obtain ⟨hu, huid, hmax⟩ := newest_eq_some hnewest
    have hin := mem_incidentUpdates.mpr ⟨hu, huid⟩
    cases hlast : (s.incidentUpdates id).getLast? with
    | none => exact absurd (List.getLast?_eq_none_iff.mp hlast) (List.ne_nil_of_mem hin)
    | some v =>
      -- Each of the two is no earlier than the other.
      obtain ⟨hv, hvid⟩ := mem_incidentUpdates.mp (List.mem_of_mem_getLast? hlast)
      have hle := hmax v hv hvid
      have hge := upto_last hin hlast
      have hid : v.id = u.id := by
        unfold IncidentUpdate.Upto at hge
        omega
      rw [Table.eq_of_id hv hu hid]

/-- The message of the newest entry of a timeline, as the feed shows it. -/
def newestMessage (s : Store) (id : ℤ) : String :=
  ((s.incidentUpdates id).getLast?.map (·.message)).getD ""

end Store

/-! ### Entries -/

/-- Times are instants here; `render` writes them. -/
structure FeedEntry where
  title : String
  id : String
  url : String
  updated : ℤ
  published : ℤ
  content : String
  deriving DecidableEq, Repr

structure FeedTemplate where
  feedTitle : String
  feedId : String
  feedUrl : String
  updated : ℤ
  entries : List FeedEntry
  deriving DecidableEq, Repr

/-- When an incident last changed, for the feed. -/
def Incident.feedUpdated (i : Incident) : ℤ := i.resolvedAt.getD i.createdAt

/-- The content of an entry. -/
def feedContent (i : Incident) (body : String) : String :=
  s!"<p><strong>{i.state.label}</strong> {i.component}</p><p>{body}</p>"

def feedEntry (base : String) (s : Store) (i : Incident) : FeedEntry where
  title := i.title
  id := s!"{base}/incidents/{i.id}"
  url := s!"{base}/incidents/{i.id}"
  updated := i.feedUpdated
  published := i.createdAt
  content := feedContent i (s.newestMessage i.id)

/-- The address ids and links begin with. -/
def feedBase (cfg : Config) (headers : HeaderMap) : String :=
  match cfg.publicUrl with
  | some u => trimEndSlashes u
  | none =>
    let host := ((headers.get "host").bind HeaderValue.toStr).getD "localhost"
    s!"http://{host}"

/-- `feed`, for a request that may read, with every query answered. -/
def feed (pf : Platform) (cfg : Config) (headers : HeaderMap) (now : ℤ) (s : Store) :
    FeedTemplate :=
  let base := feedBase cfg headers
  let entries := (s.recentIncidents pf 20).map (feedEntry base s)
  { feedTitle := s!"{trim cfg.theme.title} incidents"
    feedId := s!"{base}/feed.xml"
    feedUrl := s!"{base}/feed.xml"
    updated := (entries.head?.map (·.updated)).getD now
    entries := entries }

/-! ### The document

The template engine escapes what it is given, and chrono writes the times. -/

section Render

variable (esc : Xml.Escaper) (utc : ℤ → Option String)

/-- What the template writes for a text. -/
def escaped (s : String) : String := String.ofList (esc.escape s.toList)

def iso8601 (ts : ℤ) : String := (utc ts).getD ""

def FeedEntry.render (e : FeedEntry) : String :=
  "\n  <entry>\n    <title>" ++ escaped esc e.title ++ "</title>\n    <id>" ++ escaped esc e.id ++
  "</id>\n    <link href=\"" ++ escaped esc e.url ++ "\"/>\n    <updated>" ++
  escaped esc (iso8601 utc e.updated) ++ "</updated>\n    <published>" ++
  escaped esc (iso8601 utc e.published) ++ "</published>\n    <content type=\"html\">" ++
  escaped esc e.content ++ "</content>\n  </entry>\n  "

def FeedTemplate.render (t : FeedTemplate) : String :=
  "<?xml version=\"1.0\" encoding=\"utf-8\"?>\n<feed xmlns=\"http://www.w3.org/2005/Atom\">\n" ++
  "  <title>" ++ escaped esc t.feedTitle ++ "</title>\n  <id>" ++ escaped esc t.feedId ++
  "</id>\n  <link href=\"" ++ escaped esc t.feedUrl ++ "\" rel=\"alternate\"/>\n  <link href=\"" ++
  escaped esc t.feedUrl ++ "\" rel=\"self\"/>\n  <updated>" ++
  escaped esc (iso8601 utc t.updated) ++ "</updated>\n  <author><name>dunlin</name></author>\n  " ++
  String.join (t.entries.map (FeedEntry.render esc utc)) ++ "\n</feed>"

end Render

/-! ### Reading the feed -/

/-- The start tag of a content element, after its `<`. -/
def contentTag : List Char := "content type=\"html\">".toList

/-- What a feed reader makes of the content elements of a document. -/
def readContents (r : Html.Reader) (doc : String) : List (Option (List Html.Piece)) :=
  (Xml.texts contentTag doc.toList).map fun text => (Xml.unescape text).map r.read

def literal (s : String) : List Html.Piece := s.toList.map .char

def tag (s : String) : Html.Piece := .markup s.toList

/-- The content of an entry with its texts as they are. -/
def shownContent (i : Incident) (body : String) : List Html.Piece :=
  tag "<p>" :: tag "<strong>" :: (literal i.state.label ++ tag "</strong>" :: .char ' ' ::
    (literal i.component ++ tag "</p>" :: tag "<p>" :: (literal body ++ [tag "</p>"])))

/-! ### The texts of the document -/

section Texts

variable {esc : Xml.Escaper} {utc : ℤ → Option String} {k l : List Char}

@[simp] theorem toList_escaped (s : String) :
    (escaped esc s).toList = esc.escape s.toList := String.toList_ofList

theorem texts_escaped (s : String) (l : List Char) :
    Xml.texts contentTag (esc.escape s.toList ++ l) = Xml.texts contentTag l :=
  Xml.texts_append (.of_notMem Xml.lt_notMem_escape) l

theorem texts_entry (e : FeedEntry) (l : List Char) :
    Xml.texts contentTag ((e.render esc utc).toList ++ l) =
      esc.escape e.content.toList :: Xml.texts contentTag l := by
  unfold FeedEntry.render
  simp only [String.toList_append, toList_escaped, List.append_assoc]
  rw [Xml.texts_append (by decide), texts_escaped, Xml.texts_append (by decide), texts_escaped,
    Xml.texts_append (by decide), texts_escaped, Xml.texts_append (by decide), texts_escaped,
    Xml.texts_append (by decide), texts_escaped]
  have hopen : "</published>\n    <content type=\"html\">".toList =
      "</published>\n    ".toList ++ '<' :: contentTag := rfl
  have hclose : "</content>\n  </entry>\n  ".toList =
      '<' :: "/content>\n  </entry>\n  ".toList := rfl
  have htag : '<' ∉ contentTag := by decide
  have helement := Xml.texts_element htag (Xml.lt_notMem_escape (e := esc) (l := e.content.toList))
    ("/content>\n  </entry>\n  ".toList ++ l)
  rw [hopen, hclose, List.append_assoc, Xml.texts_append (by decide)]
  simp only [List.cons_append, List.append_assoc] at helement ⊢
  rw [helement, ← List.cons_append, ← hclose, Xml.texts_append (by decide)]

theorem texts_entries (es : List FeedEntry) (l : List Char) :
    Xml.texts contentTag ((String.join (es.map (FeedEntry.render esc utc))).toList ++ l) =
      (es.map fun e => esc.escape e.content.toList) ++ Xml.texts contentTag l := by
  induction es with
  | nil => rfl
  | cons e es ih =>
    rw [List.map_cons, String.join_cons, String.toList_append, List.append_assoc, texts_entry, ih,
      List.map_cons, List.cons_append]

/-- The content elements of the document are those of the entries, in order. -/
theorem texts_render (t : FeedTemplate) : Xml.texts contentTag (t.render esc utc).toList =
    t.entries.map fun e => esc.escape e.content.toList := by
  unfold FeedTemplate.render
  simp only [String.toList_append, toList_escaped, List.append_assoc]
  rw [Xml.texts_append (by decide), Xml.texts_append (by decide), texts_escaped,
    Xml.texts_append (by decide), texts_escaped, Xml.texts_append (by decide), texts_escaped,
    Xml.texts_append (by decide), texts_escaped, Xml.texts_append (by decide), texts_escaped,
    Xml.texts_append (by decide), texts_entries]
  have hend : Xml.texts contentTag "\n</feed>".toList = [] := by decide
  rw [hend, List.append_nil]

end Texts

/-! ### The content of an entry -/

section Content

variable {r : Html.Reader} {i : Incident} {body : String}

theorem read_label (state : IncidentState) (l : List Char) :
    r.read (state.label.toList ++ l) = literal state.label ++ r.read l := by
  cases state <;> exact Html.Reader.read_of_notMem (by decide) (by decide) l

theorem isTagName_p : Html.IsTagName "p".toList := by decide

theorem isTagName_strong : Html.IsTagName "strong".toList := by decide

theorem read_start (l : List Char) : r.read ("<p><strong>".toList ++ l) =
    tag "<p>" :: tag "<strong>" :: r.read l := by
  have hp := Html.Reader.read_startTag (r := r) isTagName_p ("<strong>".toList ++ l)
  have hstrong := Html.Reader.read_startTag (r := r) isTagName_strong l
  exact hp.trans (congrArg _ hstrong)

theorem read_middle (l : List Char) : r.read ("</strong> ".toList ++ l) =
    tag "</strong>" :: .char ' ' :: r.read l := by
  have hstrong := Html.Reader.read_endTag (r := r) isTagName_strong (' ' :: l)
  have hblank := Html.Reader.read_of_notMem (r := r) (t := [' ']) (by decide) (by decide) l
  exact hstrong.trans (congrArg _ hblank)

theorem read_paragraph (l : List Char) : r.read ("</p><p>".toList ++ l) =
    tag "</p>" :: tag "<p>" :: r.read l := by
  have hend := Html.Reader.read_endTag (r := r) isTagName_p ("<p>".toList ++ l)
  have hp := Html.Reader.read_startTag (r := r) isTagName_p l
  exact hend.trans (congrArg _ hp)

theorem read_end : r.read "</p>".toList = [tag "</p>"] :=
  Html.Reader.read_endTag isTagName_p []

theorem toList_feedContent : (feedContent i body).toList =
    "<p><strong>".toList ++ (i.state.label.toList ++ ("</strong> ".toList ++
      (i.component.toList ++ ("</p><p>".toList ++ (body.toList ++ "</p>".toList))))) := by
  simp [feedContent, toString]

/-- **An entry shows its texts as they are exactly when both are plain.** -/
theorem read_feedContent_iff : r.read (feedContent i body).toList = shownContent i body ↔
    r.Plain i.component.toList ∧ r.Plain body.toList := by
  have hbody : r.read (body.toList ++ "</p>".toList) = literal body ++ [tag "</p>"] ↔
      r.Plain body.toList := by
    refine (Html.Reader.read_append_iff (s := "/p>".toList) rfl).trans ?_
    exact and_iff_left read_end
  have hweight : Html.weight (tag "</p>" :: tag "<p>" :: (literal body ++ [tag "</p>"])) =
      ("/p><p>".toList ++ (body.toList ++ "</p>".toList)).length + 1 := by
    rw [Html.weight_cons, Html.weight_cons, Html.weight_append, literal, Html.weight_map_char,
      List.length_append, List.length_append]
    show 4 + (3 + (body.toList.length + 4)) = 6 + (body.toList.length + 4) + 1
    omega
  rw [toList_feedContent, read_start, read_label, read_middle, shownContent]
  simp only [List.cons.injEq, List.append_cancel_left_eq, true_and]
  refine (Html.Reader.read_append_iff hweight).trans (and_congr_right' ?_)
  have hparagraph := read_paragraph (r := r) (body.toList ++ "</p>".toList)
  rw [← hbody]
  refine (Eq.congr_left hparagraph).trans ?_
  simp only [List.cons.injEq, true_and]

end Content

/-! ### What a reader shows -/

section Shows

variable (pf : Platform) (r : Html.Reader) (esc : Xml.Escaper) (utc : ℤ → Option String)
  (cfg : Config) (headers : HeaderMap) (now : ℤ) (s : Store)

/-- Every entry of the feed shows the state, the component and the newest message of its incident
as they are, and nothing else. -/
def FeedShows : Prop :=
  readContents r ((feed pf cfg headers now s).render esc utc) =
    (s.recentIncidents pf 20).map fun i => some (shownContent i (s.newestMessage i.id))

variable {pf r esc utc cfg headers now s}

theorem feedShows_iff_read : FeedShows pf r esc utc cfg headers now s ↔
    ∀ i ∈ s.recentIncidents pf 20, r.read (feedContent i (s.newestMessage i.id)).toList =
      shownContent i (s.newestMessage i.id) := by
  have hread : readContents r ((feed pf cfg headers now s).render esc utc) =
      (s.recentIncidents pf 20).map fun i =>
        some (r.read (feedContent i (s.newestMessage i.id)).toList) := by
    rw [readContents, texts_render, List.map_map]
    rw [feed]
    rw [List.map_map]
    refine List.map_congr_left fun i _ => ?_
    simp only [Function.comp_apply, Xml.unescape_escape, Option.map_some, feedEntry]
  rw [FeedShows, hread, List.map_inj_left]
  simp only [Option.some.injEq]

end Shows

/-- **The feed shows the texts of its incidents as they are exactly when they are plain**: no `<`
in them begins a tag, a comment or a declaration, and no `&` a character reference. -/
theorem feed_shows_iff (pf : Platform) (r : Html.Reader) (esc : Xml.Escaper)
    (utc : ℤ → Option String) (cfg : Config) (headers : HeaderMap) (now : ℤ) (s : Store) :
    FeedShows pf r esc utc cfg headers now s ↔
      ∀ i ∈ s.recentIncidents pf 20,
        r.Plain i.component.toList ∧ r.Plain (s.newestMessage i.id).toList := by
  rw [feedShows_iff_read]
  exact forall₂_congr fun i _ => read_feedContent_iff

/-! ### An update with a tag -/

/-- What askama writes for the characters it escapes. -/
def askama : Xml.Escaper where
  mark := '&'
  codes := [('&', "#38;".toList), ('<', "#60;".toList), ('>', "#62;".toList), ('"', "#34;".toList),
    ('\'', "#39;".toList)]
  mark_mem := List.mem_cons_self
  prefixFree := by decide
  mark_eq := rfl
  lt_mem := by decide
  lt_notMem := by decide
  reads :=
    List.forall_mem_cons.mpr ⟨⟨"#38".toList, by decide⟩,
      List.forall_mem_cons.mpr ⟨⟨"#60".toList, by decide⟩,
        List.forall_mem_cons.mpr ⟨⟨"#62".toList, by decide⟩,
          List.forall_mem_cons.mpr ⟨⟨"#34".toList, by decide⟩,
            List.forall_mem_singleton.mpr ⟨"#39".toList, by decide⟩⟩⟩⟩⟩

/-- A reader that knows a few names. -/
def fewNames : Html.Reader where
  names := [("amp;".toList, ['&']), ("amp".toList, ['&']), ("lt;".toList, ['<']),
    ("lt".toList, ['<']), ("gt;".toList, ['>']), ("gt".toList, ['>'])]
  length_le := by decide
  numbered := Char.ofNat

/-- An operator's incident, with a tag in its message. -/
def boldForm : CreateIncidentForm where
  component := "web"
  title := "Outage"
  message := "<b>down</b>"

def boldStore : Store := Store.empty.operatorCreated quickConfig boldForm 100

/-- The reader shows the message in bold, and its tags nowhere. -/
theorem feed_bold :
    ¬FeedShows .ascii fewNames askama (fun _ => some "1970-01-01T00:01:40Z") quickConfig
      (fun _ => []) 100 boldStore := by
  rw [feedShows_iff_read]
  intro h
  have hrecent : boldStore.recentIncidents .ascii 20 =
      [Store.newIncident "web" "Outage" .majorOutage .investigating false 100 1] := by decide
  have hread := h _ (by rw [hrecent]; exact List.mem_cons_self)
  exact absurd hread (by decide)

end Dunlin

import Dunlin.Dispatch

/-!
# What a message looks like

The model of the renderers of `subscriptions/`: the email wording (`compose`), which every channel
builds on, the mail around it, the Slack, Discord and JSON payloads of `webhook.rs` and the HTML of
`telegram.rs`, with their escaping and their length limits.

Writing a time is chrono's: `Chrono` is any way to do it.

The renderers are functions of the notification and the link, and total. JSON is a tree here
(`Json`), built field by field as the source builds it; no result depends on the order of its
fields.

## Scope

The texts of the labels are the source's own. Sending is in `Webhook` and `WebhookGuard`; what a
message says over a run is in `MessageGrammar` and `MaintenanceMessages`, and that the link stays in
it in `MessageLinks`.
-/

namespace Dunlin

/-! ### Names and colours -/

def State.label : State → String
  | .operational => "Operational"
  | .maintenance => "Under maintenance"
  | .degraded => "Degraded performance"
  | .partialOutage => "Partial outage"
  | .majorOutage => "Major outage"

/-- Colour for notifications and badges. -/
def State.rgb : State → ℕ
  | .operational => 0x2e9e5b
  | .maintenance => 0x2f64d8
  | .degraded => 0xe0a21b
  | .partialOutage => 0xe2461f
  | .majorOutage => 0xb8121d

def IncidentState.label : IncidentState → String
  | .investigating => "Investigating"
  | .identified => "Identified"
  | .monitoring => "Monitoring"
  | .resolved => "Resolved"

/-! ### Text -/

/-- `str::trim_end`. -/
def trimEnd (s : String) : String := String.ofList (s.toList.reverse.dropWhile isWhitespace).reverse

/-- `str::replace` of one character. -/
def replaceChar (c : Char) (text s : String) : String :=
  String.ofList (s.toList.flatMap fun x => if x = c then text.toList else [x])

/-- `slack_escape`: the characters that mean something to Slack. Telegram's `escape` is the same
function. -/
def slackEscape (s : String) : String :=
  replaceChar '>' "&gt;" (replaceChar '<' "&lt;" (replaceChar '&' "&amp;" s))

/-- Cut to at most `max` characters, ending in "…" when cut. -/
def truncateChars (s : String) (max : ℕ) : String :=
  if s.length ≤ max then s else String.ofList (s.toList.take (max - 1) ++ ['…'])

/-- Times as text. -/
structure Chrono where
  /-- A time in the zone of this name; `none` outside the range of `DateTime`. -/
  format : String → ℤ → Option String
  rfc3339 : ℤ → String

/-! ### JSON -/

/-- `serde_json::Value`, as far as payloads are made of it. -/
inductive Json
  | null
  | num (n : ℤ)
  | str (s : String)
  | arr (items : List Json)
  | obj (fields : List (String × Json))

namespace Json

def ofOption (s : Option String) : Json := (s.map str).getD null

/-- `value[key] = new`, on an object that lacks the key. -/
def set (value : Json) (key : String) (new : Json) : Json :=
  match value with
  | obj fields => obj (fields ++ [(key, new)])
  | _ => value

/-- `value[key]`. -/
def field (value : Json) (key : String) : Json :=
  match value with
  | obj fields => (fields.lookup key).getD null
  | _ => null

/-- `value[i]`. -/
def item (value : Json) (i : ℕ) : Json :=
  match value with
  | arr items => items.getD i null
  | _ => null

/-- `as_str`. -/
def asStr : Json → Option String
  | str s => some s
  | _ => none

end Json

section Wording

variable (chrono : Chrono)

/-! ### The email wording -/

/-- `when`: a time the way the status page writes it. -/
def whenText (timezone : String) (ts : ℤ) : String :=
  match chrono.format timezone ts with
  | some t => s!"{t} ({timezone})"
  | none => ""

def impactLabel (name : String) : String :=
  ((State.fromName name).map State.label).getD "Unknown impact"

def stateLabel (name : String) : String :=
  ((IncidentState.fromName name).map IncidentState.label).getD "Update"

def incidentBody (e : IncidentEvent) : String :=
  let body :=
    s!"{e.title}\n{e.componentName} · {impactLabel e.impact} · {stateLabel e.state}\n\n" ++
      s!"{trim e.message}\n"
  match e.url with
  | some url => body ++ s!"\nDetails: {url}\n"
  | none => body

def maintenanceBody (e : MaintenanceEvent) (timezone headline : String) : String :=
  let body := s!"{headline}\nFrom {whenText chrono timezone e.startsAt}\n" ++
    s!"to   {whenText chrono timezone e.endsAt}\n"
  let body := if trim e.note = "" then body else body ++ s!"\n{trim e.note}\n"
  match e.url with
  | some url => body ++ s!"\nStatus page: {url}\n"
  | none => body

/-- Subject and body of a message, without the unsubscribe footer. -/
def compose (d : Delivery) : String × String :=
  let site := d.siteTitle
  match d.message with
  | .confirm confirmUrl _ =>
    (s!"Confirm your subscription to {site}",
      s!"Someone, hopefully you, asked for status updates from {site} at this address.\n\n" ++
        s!"Confirm here: {confirmUrl}\n\n" ++
        "The link works for 24 hours. If this was not you, ignore this mail and nothing more " ++
        "will be sent.\n")
  | .event event _ =>
    match event with
    | .incidentOpened e => (s!"[{site}] Incident: {e.title}", incidentBody e)
    | .incidentUpdated e => (s!"[{site}] Update: {e.title}", incidentBody e)
    | .incidentResolved e => (s!"[{site}] Resolved: {e.title}", incidentBody e)
    | .maintenanceScheduled e =>
      (s!"[{site}] Maintenance planned: {e.componentName}",
        maintenanceBody chrono e d.timezone s!"Maintenance is planned on {e.componentName}.")
    | .maintenanceStarted e =>
      (s!"[{site}] Maintenance started: {e.componentName}",
        maintenanceBody chrono e d.timezone s!"Maintenance on {e.componentName} has started.")
    | .maintenanceCompleted e =>
      (s!"[{site}] Maintenance completed: {e.componentName}",
        maintenanceBody chrono e d.timezone s!"Maintenance on {e.componentName} is complete.")
    | .maintenanceCancelled e =>
      (s!"[{site}] Maintenance cancelled: {e.componentName}",
        maintenanceBody chrono e d.timezone
          s!"The maintenance planned on {e.componentName} will not happen.")

/-- A mail, as far as it is made from the delivery. -/
structure Mail where
  recipient : String
  subject : String
  /-- The header `List-Unsubscribe`. -/
  listUnsubscribe : String
  body : String
  deriving DecidableEq, Repr

/-- The mail `EmailChannel::send` builds. -/
def mail (d : Delivery) : Mail :=
  let (subject, body) := compose chrono d
  let unsubscribe := d.message.unsubscribeUrl
  { recipient := d.address
    subject := subject
    listUnsubscribe := s!"<{unsubscribe}>"
    body := body ++
      s!"\n-- \nYou get this because you subscribed to updates from {d.siteTitle}.\n" ++
      s!"Unsubscribe: {unsubscribe}\n" }

/-! ### Webhook payloads -/

/-- The colour a message is drawn in. -/
def colour (d : Delivery) : ℕ :=
  State.rgb <| match d.message with
    | .confirm .. => .maintenance
    | .event event _ =>
      match event with
      | .incidentOpened e | .incidentUpdated e => (State.fromName e.impact).getD .majorOutage
      | .incidentResolved _ | .maintenanceCompleted _ | .maintenanceCancelled _ => .operational
      | .maintenanceScheduled _ | .maintenanceStarted _ => .maintenance

/-- Where the message's title links to. -/
def link (d : Delivery) : Option String :=
  match d.message with
  | .confirm confirmUrl _ => some confirmUrl
  | .event event _ =>
    match event with
    | .incidentOpened e | .incidentUpdated e | .incidentResolved e => e.url
    | .maintenanceScheduled e | .maintenanceStarted e | .maintenanceCompleted e
    | .maintenanceCancelled e => e.url

/-- Title and text for a chat message: the email wording, with the unsubscribe link at the end. -/
def chatText (d : Delivery) : String × String :=
  let (title, body) := compose chrono d
  (title, s!"{trimEnd body}\n\nUnsubscribe: {d.message.unsubscribeUrl}")

/-- `{:06x}`. -/
def hex6 (n : ℕ) : String :=
  let digits := Nat.toDigits 16 n
  String.ofList (List.replicate (6 - digits.length) '0' ++ digits)

def slackPayload (d : Delivery) (now : ℤ) : Json :=
  let (title, text) := chatText chrono d
  let title := slackEscape title
  let attachment := Json.obj [
    ("color", .str s!"#{hex6 (colour d)}"),
    ("title", .str title),
    ("text", .str (slackEscape text)),
    ("ts", .num now)]
  let attachment := match link d with
    | some url => attachment.set "title_link" (.str url)
    | none => attachment
  .obj [("text", .str title), ("attachments", .arr [attachment])]

/-- The longest description Discord takes. -/
def discordLimit : ℕ := 4096

def discordPayload (d : Delivery) (now : ℤ) : Json :=
  let (title, text) := chatText chrono d
  let embed := Json.obj [
    ("title", .str (truncateChars title 256)),
    ("description", .str (truncateChars text discordLimit)),
    ("color", .num (colour d)),
    ("timestamp", .str (chrono.rfc3339 now))]
  let embed := match link d with
    | some url => embed.set "url" (.str url)
    | none => embed
  .obj [("embeds", .arr [embed]), ("allowed_mentions", .obj [("parse", .arr [])])]

def componentJson (id name : String) : Json := .obj [("id", .str id), ("name", .str name)]

def incidentJson (e : IncidentEvent) : Json := .obj [
  ("id", .num e.incidentId),
  ("title", .str e.title),
  ("component", componentJson e.component e.componentName),
  ("impact", .str e.impact),
  ("state", .str e.state),
  ("message", .str e.message),
  ("url", .ofOption e.url)]

def maintenanceJson (e : MaintenanceEvent) : Json := .obj [
  ("id", .num e.maintenanceId),
  ("component", componentJson e.component e.componentName),
  ("note", .str e.note),
  ("starts_at", .num e.startsAt),
  ("ends_at", .num e.endsAt),
  ("url", .ofOption e.url)]

/-- The documented JSON body for any other endpoint. -/
def jsonPayload (d : Delivery) (now : ℤ) : Json :=
  let body := Json.obj [
    ("meta", .obj [("unsubscribe", .str d.message.unsubscribeUrl), ("generated_at", .num now)]),
    ("page", .obj [("title", .str d.siteTitle), ("url", .ofOption d.siteUrl)])]
  match d.message with
  | .confirm confirmUrl _ =>
    (body.set "event" (.str "confirm")).set "confirm" (.obj [("url", .str confirmUrl)])
  | .event event _ =>
    let body := body.set "event" (.str event.kind)
    match event with
    | .incidentOpened e | .incidentUpdated e | .incidentResolved e =>
      body.set "incident" (incidentJson e)
    | .maintenanceScheduled e | .maintenanceStarted e | .maintenanceCompleted e
    | .maintenanceCancelled e => body.set "maintenance" (maintenanceJson e)

/-! ### Telegram -/

/-- Telegram's limit on a message's text. -/
def maxText : ℕ := 4096

/-- The loop of `escape_within`, with `used` characters written. -/
def escapeLoop (budget : ℕ) : ℕ → List Char → List Char
  | _, [] => []
  | used, c :: chars =>
    let piece := slackEscape (String.singleton c)
    -- keep room for the ellipsis unless this is the last character
    let reserve := if chars.isEmpty then 0 else 1
    if used + piece.length + reserve > budget then ['…']
    else piece.toList ++ escapeLoop budget (used + piece.length) chars

/-- The text escaped, cut so that the escaped text fits `budget` characters. -/
def escapeWithin (s : String) (budget : ℕ) : String := String.ofList (escapeLoop budget 0 s.toList)

/-- The message as Telegram HTML. -/
def render (d : Delivery) : String :=
  let (subject, body) := compose chrono d
  let head := s!"<b>{slackEscape (truncateChars subject 256)}</b>\n\n"
  let foot := s!"\n\nUnsubscribe: send /stop or open {slackEscape d.message.unsubscribeUrl}"
  let budget := maxText - (head.length + foot.length)
  s!"{head}{escapeWithin (trimEnd body) budget}{foot}"

end Wording

end Dunlin

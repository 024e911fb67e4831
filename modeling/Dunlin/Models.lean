import Dunlin.Lib.Table

/-!
# Domain types

The rows and messages the rest of the model passes around, after `models.rs` and the migrations.
Timestamps are Unix seconds, in `ℤ`; nothing here comes near the ends of an `i64`.

Columns that hold one of a fixed set of names are typed by the name. The one thing this hides is
`row_to_incident`'s fallback for a name it does not know, which no statement ever writes.

A `Notification` is what the engine hands to the notifiers; what subscribers are told is an event of
`Subscriptions`. White space is what `char::is_whitespace` says it is, since `trim` decides which
forms are accepted.

## Main results

* `State.fromName_asStr`, `IncidentState.fromName_asStr` — a name in a column is read back
* `trim_visible` — what `trim` leaves of a text between white space
-/

namespace Dunlin

/-- Component and overall status, mildest first. -/
inductive State
  | operational
  | maintenance
  | degraded
  | partialOutage
  | majorOutage
  deriving DecidableEq, Repr

/-- The name a state is stored under. -/
def State.asStr : State → String
  | .operational => "operational"
  | .maintenance => "maintenance"
  | .degraded => "degraded"
  | .partialOutage => "partial_outage"
  | .majorOutage => "major_outage"

/-- The state with a given name. -/
def State.fromName : String → Option State
  | "operational" => some .operational
  | "maintenance" => some .maintenance
  | "degraded" => some .degraded
  | "partial_outage" => some .partialOutage
  | "major_outage" => some .majorOutage
  | _ => none

theorem State.fromName_asStr (s : State) : State.fromName s.asStr = some s := by
  cases s <;> rfl

/-- Internal up/down state of a check's alert machine. -/
inductive Health
  | up
  | down
  deriving DecidableEq, Repr

/-- Incident lifecycle states. -/
inductive IncidentState
  | investigating
  | identified
  | monitoring
  | resolved
  deriving DecidableEq, Repr

/-- The name an incident state is stored under. -/
def IncidentState.asStr : IncidentState → String
  | .investigating => "investigating"
  | .identified => "identified"
  | .monitoring => "monitoring"
  | .resolved => "resolved"

/-- The incident state with a given name. -/
def IncidentState.fromName : String → Option IncidentState
  | "investigating" => some .investigating
  | "identified" => some .identified
  | "monitoring" => some .monitoring
  | "resolved" => some .resolved
  | _ => none

theorem IncidentState.fromName_asStr (s : IncidentState) :
    IncidentState.fromName s.asStr = some s := by
  cases s <;> rfl

/-- A row of `incidents`. `quiet` is the column added with subscriptions: subscribers hear nothing
about a quiet incident. -/
structure Incident where
  id : ℤ
  /-- Component id; empty for all components. -/
  component : String
  title : String
  state : IncidentState
  impact : State
  createdAt : ℤ
  resolvedAt : Option ℤ
  auto : Bool
  quiet : Bool
  deriving DecidableEq, Repr

instance : Lib.HasId Incident := ⟨Incident.id⟩

@[simp] theorem id_incident (i : Incident) : Lib.HasId.id i = i.id := rfl

/-- A row of `incident_updates`: one entry of an incident's timeline. -/
structure IncidentUpdate where
  id : ℤ
  incidentId : ℤ
  ts : ℤ
  state : IncidentState
  message : String
  auto : Bool
  deriving DecidableEq, Repr

instance : Lib.HasId IncidentUpdate := ⟨IncidentUpdate.id⟩

@[simp] theorem id_incidentUpdate (u : IncidentUpdate) : Lib.HasId.id u = u.id := rfl

/-- Outbound notification built by the alert engine. -/
structure Notification where
  event : String
  title : String
  message : String
  component : String
  state : State
  incidentId : Option ℤ
  /-- Incident page under `public_url`. -/
  link : Option String
  deriving DecidableEq, Repr

/-- `char::is_whitespace`: the characters with Unicode's `White_Space` property. -/
def isWhitespace (c : Char) : Bool :=
  let n := c.toNat
  (9 ≤ n && n ≤ 13) || n == 0x20 || n == 0x85 || n == 0xA0 || n == 0x1680 ||
    (0x2000 ≤ n && n ≤ 0x200A) || n == 0x2028 || n == 0x2029 || n == 0x202F || n == 0x205F ||
    n == 0x3000

/-- `str::trim`. -/
def trim (s : String) : String :=
  String.ofList ((s.toList.dropWhile isWhitespace).reverse.dropWhile isWhitespace).reverse

theorem dropWhile_visible {l : List Char} (h : ∀ c ∈ l, isWhitespace c = false) :
    l.dropWhile isWhitespace = l := by
  cases l with
  | nil => rfl
  | cons c l => exact List.dropWhile_cons_of_neg (by simp [h c List.mem_cons_self])

/-- White space around a text that has none. -/
theorem trim_visible {blanks l : List Char} (hblanks : ∀ c ∈ blanks, isWhitespace c = true)
    (h : ∀ c ∈ l, isWhitespace c = false) :
    trim (String.ofList (blanks ++ l)) = String.ofList l := by
  rw [trim, String.toList_ofList, List.dropWhile_append_of_pos hblanks, dropWhile_visible h,
    dropWhile_visible fun c hc => h c (List.mem_reverse.mp hc), List.reverse_reverse]

/-- `str::trim_end_matches('/')`. -/
def trimEndSlashes (s : String) : String :=
  String.ofList (s.toList.reverse.dropWhile (· == '/')).reverse

/-- Absolute link to an incident page under the configured public URL. -/
def incidentUrl (base : String) (id : ℤ) : String :=
  s!"{trimEndSlashes base}/incidents/{id}"

end Dunlin

import Dunlin.Models
import Mathlib.Algebra.Group.Nat.Defs

/-!
# Configuration

The part of `config.rs` that the alert engine and the subscriptions read: checks, the components
that mirror them, and which component a check's incidents are filed under.

`validate` is modelled for the fields the model has: ids and the references between them, intervals,
retention. Its other checks (addresses, URLs, colours, password hashes) concern fields that are not
part of the model.

Problems are listed in the order in which the source finds them, with its texts; a config is
accepted when there are none. What later modules take from that are the two facts at the end: no two
checks have one id, and no two components.

## Main results

* `nodup_checks`, `nodup_components` — ids are given once in a config that is accepted
-/

namespace Dunlin

/-! ### Quoted text -/

/-- `{:?}` of a character in a string. Beyond Latin-1 the ones without a glyph, which are escaped
too, are left as they are. -/
def debugChar (c : Char) : String :=
  if c = '"' then "\\\""
  else if c = '\\' then "\\\\"
  else if c = '\n' then "\\n"
  else if c = '\r' then "\\r"
  else if c = '\t' then "\\t"
  else if c = '\x00' then "\\0"
  else if c.toNat < 32 ∨ (127 ≤ c.toNat ∧ c.toNat ≤ 160) ∨ c.toNat = 173 then
    "\\u\x7b" ++ String.ofList (Nat.toDigits 16 c.toNat) ++ "\x7d"
  else String.singleton c

/-- `{:?}` of a string. -/
def debugStr (s : String) : String := "\"" ++ String.join (s.toList.map debugChar) ++ "\""

/-! ### The records -/

/-- `std::time::Duration`. -/
structure Duration where
  nanos : ℕ
  deriving DecidableEq, Repr

/-- Whole seconds, rounded down. -/
def Duration.asSecs (d : Duration) : ℕ := d.nanos / 1000000000

/-- A duration of whole seconds. -/
def Duration.fromSecs (n : ℕ) : Duration := ⟨n * 1000000000⟩

/-- `Duration::MAX`, in nanoseconds. -/
def durationMax : ℕ := 2 ^ 64 * 1000000000 - 1

@[simp] theorem Duration.asSecs_fromSecs (n : ℕ) : (Duration.fromSecs n).asSecs = n :=
  Nat.mul_div_cancel n (by decide)

/-- `u64 as i64`: two's complement. -/
def asI64 (n : ℕ) : ℤ := (n : ℤ).bmod (2 ^ 64)

theorem asI64_of_lt {n : ℕ} (h : n < 2 ^ 63) : asI64 n = n := by
  unfold asI64
  rw [Int.bmod_eq_of_le] <;> omega

/-- `[[checks]]`, as far as the alert engine reads it. -/
structure CheckConfig where
  id : String
  name : String
  interval : Duration := .fromSecs 60
  failuresToOpen : ℕ := 3
  successesToResolve : ℕ := 2
  reminderInterval : Duration := .fromSecs 3600
  deriving DecidableEq, Repr

/-- `[[components]]`. -/
structure ComponentConfig where
  id : String
  name : String
  group : Option String := none
  /-- Id of the check this component mirrors; empty for a purely manual component. -/
  check : Option String := none
  deriving DecidableEq, Repr

/-- `[[groups]]`. -/
structure GroupConfig where
  id : String
  name : String
  deriving DecidableEq, Repr

/-- `[retention]`, in days. -/
structure RetentionConfig where
  rawDays : ℕ := 7
  hourlyDays : ℕ := 90
  deriving DecidableEq, Repr

/-- `[subscriptions]`. -/
structure SubscriptionsConfig where
  enabled : Bool := false
  deriving DecidableEq, Repr

/-- `[theme]`. -/
structure ThemeConfig where
  title : String := "Status"
  deriving DecidableEq, Repr

/-- The root configuration. -/
structure Config where
  publicUrl : Option String := none
  timezone : String := "UTC"
  retention : RetentionConfig := {}
  subscriptions : SubscriptionsConfig := {}
  groups : List GroupConfig := []
  components : List ComponentConfig := []
  checks : List CheckConfig := []
  theme : ThemeConfig := {}
  deriving DecidableEq, Repr

namespace Config

/-- The check with a given id. -/
def check (cfg : Config) (id : String) : Option CheckConfig := cfg.checks.find? (·.id == id)

/-- The component with a given id. -/
def component (cfg : Config) (id : String) : Option ComponentConfig :=
  cfg.components.find? (·.id == id)

/-- The component a check's incidents are filed under: the first one that mirrors it, or the check
id itself when no component does. -/
def incidentComponent (cfg : Config) (checkId : String) : String :=
  ((cfg.components.find? (·.check == some checkId)).map (·.id)).getD checkId

/-- Validate the elements of one list in order: each is reported when its id occurred before it,
and then for what `more` finds. -/
def validateEach {ρ : Type} (kind : String) (id : ρ → String) (more : ρ → List String) :
    List String → List ρ → List String
  | _, [] => []
  | seen, r :: rs =>
    (if id r ∈ seen then [s!"duplicate {kind} id {debugStr (id r)}"] else []) ++ more r ++
      validateEach kind id more (id r :: seen) rs

def validateRetention (r : RetentionConfig) : List String :=
  (if r.rawDays = 0 then ["retention.raw_days must be at least 1"] else []) ++
  if r.hourlyDays < r.rawDays then ["retention.hourly_days must be >= retention.raw_days"] else []

/-- What is wrong with one check, as far as the model has its fields. -/
def validateCheck (c : CheckConfig) : List String :=
  if c.interval.nanos = 0 then [s!"check {debugStr c.id} interval must be > 0"] else []

/-- What is wrong with one component's references. -/
def validateComponent (cfg : Config) (c : ComponentConfig) : List String :=
  (match c.group with
    | some g =>
      if g ∈ cfg.groups.map (·.id) then []
      else [s!"component {debugStr c.id} references unknown group {debugStr g}"]
    | none => []) ++
  match c.check with
    | some chk =>
      if chk ≠ "" ∧ chk ∉ cfg.checks.map (·.id) then
        [s!"component {debugStr c.id} references unknown check {debugStr chk}"]
      else []
    | none => []

/-- Every problem found; a config is accepted when the list is empty. -/
def validate (cfg : Config) : List String :=
  validateRetention cfg.retention ++
  validateEach "group" GroupConfig.id (fun _ => []) [] cfg.groups ++
  validateEach "check" CheckConfig.id validateCheck [] cfg.checks ++
  validateEach "component" ComponentConfig.id (validateComponent cfg) [] cfg.components ++
  if cfg.subscriptions.enabled && cfg.publicUrl.isNone then
    ["subscriptions need public_url: confirmation and unsubscribe links point there"]
  else []

theorem nodup_of_validateEach {ρ : Type} {kind : String} {id : ρ → String}
    {more : ρ → List String} {seen : List String} {rs : List ρ}
    (h : validateEach kind id more seen rs = []) :
    (rs.map id).Nodup ∧ ∀ r ∈ rs, id r ∉ seen ∧ more r = [] := by
  induction rs generalizing seen with
  | nil => simp
  | cons r rs ih =>
    obtain ⟨⟨hdup, hmore⟩, hrest⟩ : (id r ∉ seen ∧ more r = []) ∧
        validateEach kind id more (id r :: seen) rs = [] := by
      simpa [validateEach, and_assoc] using h
    obtain ⟨hnd, hall⟩ := ih hrest
    refine ⟨?_, ?_⟩
    · rw [List.map_cons, List.nodup_cons]
      refine ⟨fun hmem => ?_, hnd⟩
      obtain ⟨r', hr', hid⟩ := List.mem_map.mp hmem
      exact (hall r' hr').1 (hid ▸ List.mem_cons_self)
    · intro r' hr'
      rcases List.mem_cons.mp hr' with rfl | hr'
      · exact ⟨hdup, hmore⟩
      · exact ⟨fun hseen => (hall r' hr').1 (List.mem_cons_of_mem _ hseen), (hall r' hr').2⟩

/-- In an accepted config check ids are unique. -/
theorem nodup_checks {cfg : Config} (h : cfg.validate = []) : (cfg.checks.map (·.id)).Nodup := by
  have hc : validateEach "check" CheckConfig.id validateCheck [] cfg.checks = [] := by
    simp only [validate, List.append_eq_nil_iff] at h
    exact h.1.1.2
  exact (nodup_of_validateEach hc).1

/-- In an accepted config component ids are unique. -/
theorem nodup_components {cfg : Config} (h : cfg.validate = []) :
    (cfg.components.map (·.id)).Nodup := by
  have hc : validateEach "component" ComponentConfig.id (validateComponent cfg) []
      cfg.components = [] := by
    simp only [validate, List.append_eq_nil_iff] at h
    exact h.1.2
  exact (nodup_of_validateEach hc).1

end Config

end Dunlin

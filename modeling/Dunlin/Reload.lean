import Dunlin.Durations
import Dunlin.Lib.Run

/-!
# Reloading the config

The model of `load` in `config.rs` and of `apply_reload` and `coalesce_reloads` in `app.rs`, with
the arithmetic of the code's durations: floats, and a `Duration` whose operations panic outside
their range. A panic ends the task that reloads, and the edits after it are not seen.

The TOML reader with the derived deserializers is a parameter, a `ConfigReader`: which strings of a
text it hands to `parse_duration`, in order, and what it makes of the values. What `validate` and
`load_theme_files` find in fields that the model does not have is a parameter too.

## Scope

A run of edits is a list of files, each read whole. The tasks that an edit passes through, and files
that change while one of them is at it, are in `HotReload`.

## Main results

* `parseDuration_machine_panics_iff` — when a duration panics
* `load_panics_iff` — when reading a file does
* `always_handled_iff` — which runs of edits are handled to their end
* `reloader_stands` — all three in one statement
* `far_off_panics` — an interval that ends the task
-/

namespace Dunlin

open Lib

/-! ### When a duration panics -/

theorem ofSecsF64_eq_none {x : Floating} (h : x.AtLeast (2 ^ 64)) :
    Duration.ofSecsF64 x = none := by
  cases x with
  | finite secs => exact if_neg (not_lt.mpr h)
  | infinity => rfl
  | nan => rfl

namespace DurationGroup

/-- The seconds of a group, in floating point. -/
def secsF64 (g : DurationGroup) : Floating :=
  binary64.mul (binary64.round g.number.value) g.unit.duration.asSecsF64

/-- Its nanoseconds, if they are a `Duration`. -/
def nanos (g : DurationGroup) : Option ℕ := (Duration.ofSecsF64 g.secsF64).map (·.nanos)

/-- Each of the groups is a `Duration`, and so is their sum. -/
def Fit (gs : List DurationGroup) : Prop :=
  (∀ g ∈ gs, g.nanos ≠ none) ∧ (gs.map fun g => g.nanos.getD 0).sum ≤ durationMax

end DurationGroup

open DurationGroup

/-- The groups that a text begins with fit. -/
def Fitting (s : String) : Prop :=
  ∀ gs tail, (trim s).toList = texts gs ++ tail → AtNumber tail → Fit gs

/-- What fails in a sum. -/
theorem sum_machine_eq_none_iff {total : Duration} (htotal : total.nanos ≤ durationMax)
    (gs : List DurationGroup) : Arith.machine.sum total gs = none ↔
      ¬((∀ g ∈ gs, g.nanos ≠ none) ∧
        total.nanos + (gs.map fun g => g.nanos.getD 0).sum ≤ durationMax) := by
  induction gs generalizing total with
  | nil =>
    refine iff_of_false (by simp [Arith.sum]) (not_not.mpr ⟨List.forall_mem_nil _, ?_⟩)
    rwa [List.map_nil, List.sum_nil, Nat.add_zero]
  | cons g gs ih =>
    have hcons : Arith.machine.sum total (g :: gs) =
        ((Duration.ofSecsF64 g.secsF64).bind total.checkedAdd).bind
          fun total => Arith.machine.sum total gs := rfl
    rw [hcons, List.forall_mem_cons, List.map_cons, List.sum_cons]
    cases hg : Duration.ofSecsF64 g.secsF64 with
    | none =>
      refine iff_of_true rfl fun h => h.1.1 ?_
      rw [DurationGroup.nanos, hg, Option.map_none]
    | some d =>
      have hnanos : g.nanos = some d.nanos := by rw [DurationGroup.nanos, hg, Option.map_some]
      rw [hnanos, Option.getD_some, Option.bind_some, Duration.checkedAdd]
      split
      · rename_i hle
        rw [Option.bind_some, ih hle, Nat.add_assoc]
        simp only [ne_eq, reduceCtorEq, not_false_eq_true, true_and]
      · rename_i hgt
        refine iff_of_true rfl fun h => hgt ?_
        exact (Nat.add_le_add_left (Nat.le_add_right _ _) _).trans h.2

/-- When a duration panics. -/
theorem parseDuration_machine_panics_iff (s : String) :
    parseDuration Arith.machine s = .error .panicked ↔ ¬Fitting s := by
  have hzero : (Arith.machine.fromSecs 0).nanos ≤ durationMax := Nat.zero_le _
  have hfit : ∀ gs, Arith.machine.sum (Arith.machine.fromSecs 0) gs = none ↔ ¬Fit gs := by
    intro gs
    rw [sum_machine_eq_none_iff hzero, Fit]
    simp only [Arith.machine, Duration.fromSecs, Nat.zero_mul, Nat.zero_add]
  rw [parseDuration_eq_panicked_iff]
  simp only [hfit, Fitting]
  constructor
  · rintro ⟨gs, tail, hs, hat, hnot⟩ h
    exact hnot (h gs tail hs hat)
  · intro h
    by_contra hnone
    refine h fun gs tail hs hat => ?_
    by_contra hnot
    exact hnone ⟨gs, tail, hs, hat, hnot⟩

/-- A duration by the grammar. -/
def IsDuration (s : String) : Prop :=
  (∃ n, IsSeconds (trim s).toList n) ∨ ∃ gs ≠ [], (trim s).toList = texts gs

theorem isDuration_iff_exact {s : String} :
    IsDuration s ↔ ∃ v, parseDuration Arith.exact s = .ok v := by
  simp only [parseDuration_exact]
  constructor
  · rintro (⟨n, hn⟩ | ⟨gs, hgs, hs⟩)
    · exact ⟨n, .inl ⟨n, hn, rfl⟩⟩
    · exact ⟨_, .inr ⟨gs, hgs, hs, rfl⟩⟩
  · rintro ⟨v, ⟨n, hn, -⟩ | ⟨gs, hgs, hs, -⟩⟩
    · exact .inl ⟨n, hn⟩
    · exact .inr ⟨gs, hgs, hs⟩

/-- When a duration is accepted. -/
theorem parseDuration_machine_ok_iff (s : String) :
    (∃ v, parseDuration Arith.machine s = .ok v) ↔ Fitting s ∧ IsDuration s := by
  rw [isDuration_iff_exact]
  by_cases hfits : Fitting s
  · have hnot : parseDuration Arith.machine s ≠ .error .panicked :=
      fun h => (parseDuration_machine_panics_iff s).mp h hfits
    rw [isOk_iff_exact Arith.machine hnot]
    exact (and_iff_right hfits).symm
  · refine iff_of_false ?_ fun h => hfits h.1
    rintro ⟨v, hv⟩
    cases hv.symm.trans ((parseDuration_machine_panics_iff s).mpr hfits)

/-! ### Reading a config -/

structure ConfigReader where
  /-- The strings in a text that are read as durations, in order, up to where reading ends. -/
  durations : String → List String
  /-- The config, from their values. -/
  config : String → List Duration → Except String Config
  /-- What `validate` finds in other fields, each with how many of the messages about the fields of
  a `Config` come before it. -/
  otherErrors : String → List (ℕ × String)

/-- The messages of `validate` in its order: those about the fields of a `Config`, and the others
where they belong. -/
def interleave (own : List String) (others : List (ℕ × String)) : List String :=
  (List.range (own.length + 1)).flatMap fun n =>
    (others.filter fun other => min other.1 own.length == n).map (·.2) ++ own[n]?.toList

theorem eq_nil_of_interleave {own : List String} {others : List (ℕ × String)}
    (h : interleave own others = []) : own = [] := by
  cases own with
  | nil => rfl
  | cons message own =>
    have hfirst := List.flatMap_eq_nil_iff.mp h 0 (List.mem_range.mpr (Nat.succ_pos _))
    cases (List.append_eq_nil_iff.mp hfirst).2

/-- A config file, at one time. -/
structure ConfigFile where
  path : String
  text : Except String String
  /-- `load_theme_files`, with the files the config names. -/
  themeFiles : Except String Unit

/-- `with_context`. -/
def Fault.withContext (message : String) : Fault → Fault
  | .error _ => .error message
  | .panicked => .panicked

namespace ConfigReader

variable (r : ConfigReader)

/-- `toml::from_str`. -/
def fromStr (text : String) : Except Fault Config := do
  let durations ← (r.durations text).mapM (parseDuration Arith.machine)
  (r.config text durations).mapError .error

/-- `parse_str_at`. -/
def parseStrAt (text : String) (themeFiles : Except String Unit) : Except Fault Config := do
  let cfg ← (r.fromStr text).mapError (.withContext "invalid TOML")
  let errs := interleave cfg.validate (r.otherErrors text)
  if errs ≠ [] then
    throw (.error ("configuration is invalid:\n  - " ++ "\n  - ".intercalate errs))
  themeFiles.mapError .error
  return cfg

def load (file : ConfigFile) : Except Fault Config :=
  match file.text with
  | .error _ => .error (.error s!"cannot read config {file.path}")
  | .ok text =>
    (r.parseStrAt text file.themeFiles).mapError (.withContext s!"config {file.path}")

end ConfigReader

/-- Up to the first that is no duration, the strings fit. -/
def AllFitting : List String → Prop
  | [] => True
  | s :: strings => Fitting s ∧ (IsDuration s → AllFitting strings)

/-- The durations of the file fit. -/
def ConfigFile.Fits (file : ConfigFile) (r : ConfigReader) : Prop :=
  ∀ text, file.text = .ok text → AllFitting (r.durations text)

/-! ### Panics -/

section Panics

variable {α β : Type} {x : Except Fault α} {g : α → Except Fault β}

theorem mapError_eq_ok {f : Fault → Fault} {a : α} (h : x.mapError f = .ok a) : x = .ok a := by
  cases x with
  | error e => cases h
  | ok a' => exact h

theorem bind_eq_panicked_iff : x >>= g = .error .panicked ↔
    x = .error .panicked ∨ ∃ a, x = .ok a ∧ g a = .error .panicked := by
  cases x with
  | error e => simp [bind, Except.bind]
  | ok a => simp [bind, Except.bind]

theorem bind_eq_panicked_iff_left (h : ∀ a, g a ≠ .error .panicked) :
    x >>= g = .error .panicked ↔ x = .error .panicked := by
  rw [bind_eq_panicked_iff]
  exact or_iff_left fun ⟨a, _, ha⟩ => h a ha

theorem mapError_ne_panicked (x : Except String α) : x.mapError .error ≠ .error Fault.panicked := by
  cases x <;> simp [Except.mapError]

theorem mapError_eq_panicked_iff {message : String} :
    x.mapError (Fault.withContext message) = .error Fault.panicked ↔
      x = .error Fault.panicked := by
  cases x with
  | error e => cases e <;> simp [Except.mapError, Fault.withContext]
  | ok a => simp [Except.mapError]

end Panics

theorem mapM_parseDuration_panics_iff (strings : List String) :
    strings.mapM (parseDuration Arith.machine) = .error .panicked ↔ ¬AllFitting strings := by
  induction strings with
  | nil => exact iff_of_false (by simp [pure, Except.pure]) (not_not.mpr trivial)
  | cons s strings ih =>
    have hpanics := parseDuration_machine_panics_iff s
    have haccepts := parseDuration_machine_ok_iff s
    rw [List.mapM_cons, AllFitting]
    cases hparse : parseDuration Arith.machine s with
    | error e =>
      rw [hparse] at hpanics haccepts
      cases e with
      | panicked => exact iff_of_true rfl fun h => hpanics.mp rfl h.1
      | error message =>
        have hfits : Fitting s := by
          by_contra hnot
          cases hpanics.mpr hnot
        refine iff_of_false (by simp [bind, Except.bind]) (not_not.mpr ⟨hfits, fun hdur => ?_⟩)
        obtain ⟨v, hv⟩ := haccepts.mpr ⟨hfits, hdur⟩
        cases hv
    | ok v =>
      obtain ⟨hfits, hdur⟩ := haccepts.mp ⟨v, hparse⟩
      change (strings.mapM (parseDuration Arith.machine) >>= fun vs => pure (v :: vs)) = _ ↔ _
      rw [bind_eq_panicked_iff_left (by simp [pure, Except.pure]), ih]
      exact not_congr ⟨fun h => ⟨hfits, fun _ => h⟩, fun h => h.2 hdur⟩

/-- A config that was loaded has passed its checks. -/
theorem validate_of_load {r : ConfigReader} {file : ConfigFile} {cfg : Config}
    (h : r.load file = .ok cfg) : cfg.validate = [] := by
  rw [ConfigReader.load] at h
  cases htext : file.text with
  | error e =>
    rw [htext] at h
    cases h
  | ok text =>
    rw [htext] at h
    dsimp only at h
    have hparse := mapError_eq_ok h
    rw [ConfigReader.parseStrAt] at hparse
    cases hread : (r.fromStr text).mapError (Fault.withContext "invalid TOML") with
    | error e =>
      rw [hread] at hparse
      cases hparse
    | ok cfg' =>
      rw [hread] at hparse
      change (if interleave cfg'.validate (r.otherErrors text) ≠ [] then _ else _) = _ at hparse
      split at hparse
      · cases hparse
      · rename_i herrs
        have hvalid := eq_nil_of_interleave (not_not.mp herrs)
        cases hthemes : file.themeFiles with
        | error e =>
          rw [hthemes] at hparse
          cases hparse
        | ok u =>
          rw [hthemes] at hparse
          cases hparse
          exact hvalid

/-- When loading panics. -/
theorem load_panics_iff (r : ConfigReader) (file : ConfigFile) :
    r.load file = .error .panicked ↔ ¬file.Fits r := by
  rw [ConfigReader.load, ConfigFile.Fits]
  cases file.text with
  | error e => exact iff_of_false (by simp) (not_not.mpr fun _ h => nomatch h)
  | ok text =>
    have hfits : (∀ text', (.ok text : Except String String) = .ok text' →
        AllFitting (r.durations text')) ↔ AllFitting (r.durations text) :=
      ⟨fun h => h text rfl, fun h _ heq => Except.ok.inj heq ▸ h⟩
    dsimp only
    rw [hfits, ← mapM_parseDuration_panics_iff, mapError_eq_panicked_iff]
    rw [ConfigReader.parseStrAt]
    rw [bind_eq_panicked_iff_left, mapError_eq_panicked_iff]
    · exact bind_eq_panicked_iff_left fun _ => mapError_ne_panicked _
    · intro cfg
      dsimp only
      split
      · simp [bind, Except.bind, throw, throwThe, MonadExceptOf.throw]
      · cases file.themeFiles with
        | error e => simp [bind, Except.bind, Except.mapError]
        | ok u => simp [bind, Except.bind, pure, Except.pure, Except.mapError]

/-! ### The task -/

/-- The running config, and whether the task that reloads is still there. -/
structure Reloader where
  running : Config
  serving : Bool

namespace Reloader

variable (r : ConfigReader)

/-- `apply_reload`. -/
def applyReload (s : Reloader) (file : ConfigFile) : Reloader :=
  match r.load file with
  | .ok new => { s with running := new }
  | .error (.error _) => s
  | .error .panicked => { s with serving := false }

/-- A burst of events in `coalesce_reloads`. -/
def edit (s : Reloader) (file : ConfigFile) : Reloader :=
  if s.serving then s.applyReload r file else s

/-- The edit installs the new config or keeps the running one, and the task goes on. -/
def Handled (s : Reloader) (file : ConfigFile) : Prop :=
  (s.edit r file).serving = true ∧
    ((∃ new, r.load file = .ok new ∧ (s.edit r file).running = new) ∨
      (∃ message, r.load file = .error (.error message)) ∧ (s.edit r file).running = s.running)

variable {r} {s : Reloader} {file : ConfigFile}

/-- An edit is handled unless loading panics. -/
theorem handled_iff (h : s.serving = true) : s.Handled r file ↔ file.Fits r := by
  rw [← not_iff_not, ← load_panics_iff, Handled, edit, if_pos h, applyReload]
  cases r.load file with
  | ok new => simpa using h
  | error e =>
    cases e with
    | error message => simpa using h
    | panicked => simp

/-- **When edits are handled.** A run of edits is, if and only if the durations of each fit. -/
theorem always_handled_iff (h : s.serving = true) (files : List ConfigFile) :
    Always (edit r) (Handled r) s files ↔ ∀ file ∈ files, file.Fits r := by
  induction files generalizing s with
  | nil => exact iff_of_true trivial (List.forall_mem_nil _)
  | cons file files ih =>
    rw [List.forall_mem_cons, ← handled_iff h]
    exact and_congr_right fun hfile => ih hfile.1

end Reloader

/-- **A config edit takes the reloader down only by a duration out of range.** Parsing a duration
panics exactly if the groups it begins with do not fit, loading a file exactly if a string that is
read as a duration does not fit, and every edit of a run is handled exactly if that is so of none of
the files. -/
theorem reloader_stands (r : ConfigReader) (running : Config) (files : List ConfigFile) :
    (∀ s, parseDuration Arith.machine s ≠ .error .panicked ↔ Fitting s) ∧
    (∀ file, r.load file ≠ .error .panicked ↔ file.Fits r) ∧
    (Always (Reloader.edit r) (Reloader.Handled r) ⟨running, true⟩ files ↔
      ∀ file ∈ files, file.Fits r) :=
  ⟨fun s => not_iff_comm.mp (parseDuration_machine_panics_iff s).symm,
    fun file => not_iff_comm.mp (load_panics_iff r file).symm,
    Reloader.always_handled_iff rfl files⟩

/-- A config file with one check, at an interval of 99999999999999999999 days. -/
def farOff : ConfigFile where
  path := "dunlin.toml"
  text := .ok ("listen = \"127.0.0.1:8080\"\n[[checks]]\nid = \"web\"\nname = \"Web\"\n" ++
    "type = \"http\"\ninterval = \"99999999999999999999d\"\n")
  themeFiles := .ok ()

def farOffReader : ConfigReader where
  durations text := if .ok text = farOff.text then ["99999999999999999999d"] else []
  config _ _ := .ok {}
  otherErrors _ := []

/-- The text `99999999999999999999d`. -/
def farOffGroup : DurationGroup := ⟨⟨List.replicate 20 '9', none, by decide⟩, .d⟩

theorem farOffGroup_nanos : farOffGroup.nanos = none := by
  have hnumber : (binary64.round farOffGroup.number.value).AtLeast (2 ^ (64 : ℤ)) := by
    have hdecimal : decimal (farOffGroup.number.whole ++ farOffGroup.number.frac.getD []) =
        99999999999999999999 := by rfl
    refine FloatFormat.atLeast_round (by decide) (by decide) ?_
    rw [Fraction.value, hdecimal]
    norm_num [farOffGroup]
  have hunit : farOffGroup.unit.duration.asSecsF64.AtLeast (2 ^ (0 : ℤ)) := by
    rw [Duration.asSecsF64]
    refine FloatFormat.atLeast_add (by decide) (by decide) ?_ FloatFormat.atLeast_round_zero
    refine FloatFormat.atLeast_round (by decide) (by decide) ?_
    norm_num [farOffGroup, TimeUnit.duration, Duration.asSecs_fromSecs]
  have hsecs := FloatFormat.atLeast_mul (f := binary64) (by decide) (by decide) hnumber hunit
  rw [DurationGroup.nanos, DurationGroup.secsF64, ofSecsF64_eq_none hsecs, Option.map_none]

theorem not_fitting_farOff : ¬Fitting "99999999999999999999d" := by
  intro h
  have htexts : "99999999999999999999d".toList = texts [farOffGroup] := rfl
  have hfit := h [farOffGroup] [] (by rw [trim_texts htexts, List.append_nil, htexts]) atNumber_nil
  exact hfit.1 farOffGroup (List.mem_singleton_self _) farOffGroup_nanos

/-- **The edit that is not handled.** -/
theorem far_off_panics :
    ¬(∀ s, parseDuration Arith.machine s ≠ .error .panicked) ∧
    (¬∀ (r : ConfigReader) (file : ConfigFile), r.load file ≠ .error .panicked) ∧
    ¬∀ (r : ConfigReader) (running : Config) (files : List ConfigFile),
      Always (Reloader.edit r) (Reloader.Handled r) ⟨running, true⟩ files := by
  have hfits : ¬farOff.Fits farOffReader := by
    intro h
    have hfirst := h _ rfl
    have hread : farOffReader.durations _ = ["99999999999999999999d"] := if_pos rfl
    rw [hread] at hfirst
    exact not_fitting_farOff hfirst.1
  refine ⟨fun h => ?_, fun h => ?_, fun h => ?_⟩
  · exact h _ ((parseDuration_machine_panics_iff _).mpr not_fitting_farOff)
  · exact h farOffReader farOff ((load_panics_iff _ _).mpr hfits)
  · exact hfits ((Reloader.always_handled_iff rfl [farOff]).mp (h farOffReader {} [farOff]) farOff
      (List.mem_singleton_self _))

end Dunlin

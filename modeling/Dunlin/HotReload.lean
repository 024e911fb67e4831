import Dunlin.Lib.Watch
import Dunlin.Reload

/-!
# An edit of the config on its way

What happens to an edit of the config file while the program runs, by the tasks of `app.rs` that
carry it: the thread that watches the directory, `coalesce_reloads`, `apply_reload`, and the two
loops that rebuild what was built from the config, `notifier_reload_loop` and `channel_reload_loop`.
Each takes steps of its own, and the file may change between any two of them.

`Reload` has the same `apply_reload` for a run of edits one after the other, each of them read
whole. `HotReload.reloader` is the part of the state that it is about; `reloader_applyReload`, next
to the runs, says that the two reload alike.

## Scope

A change of the file and its event are one step, and the start of the program, before the watcher is
there, is left out: the run begins with the config that is in the file. That a file of the theme
changes alone is not in the model.
-/

namespace Dunlin

open Lib

/-! ### What the followers build -/

inductive NotifierConfig
  | telegram (token chatId : String)
  | webhook (url : String) (headers : List (String × String))
  | ntfy (url topic : String) (token : Option String)
  | discord (url : String)
  | slack (url : String)
  | pushover (token user : String)
  deriving DecidableEq, Repr

inductive SmtpTls
  | starttls
  | implicit
  deriving DecidableEq, Repr

/-- `[subscriptions.email]`. -/
structure EmailConfig where
  enabled : Bool := false
  host : String
  port : Option ℕ := none
  tls : SmtpTls := .starttls
  username : Option String := none
  password : Option String := none
  sender : String
  deriving DecidableEq, Repr

/-- `[subscriptions.telegram]`. -/
structure SubscriberTelegramConfig where
  enabled : Bool := false
  token : String
  username : Option String := none
  deriving DecidableEq, Repr

/-- `[subscriptions]`, with the tables of its channels. -/
structure ChannelsConfig where
  enabled : Bool := false
  email : Option EmailConfig := none
  webhook : Option Bool := none
  telegram : Option SubscriberTelegramConfig := none
  deriving DecidableEq, Repr

/-- A config with the parts that the followers read. -/
structure LiveConfig where
  config : Config
  notifiers : List NotifierConfig
  channels : ChannelsConfig
  /-- The paths of the theme's files. -/
  themeFiles : List String
  deriving DecidableEq, Repr

/-- What is built from a config, and how it is read. -/
structure ReloadCrates (ν χ : Type) where
  reader : ConfigReader
  /-- The other parts of a text that `reader` takes for a config. -/
  notifiers : String → List NotifierConfig
  channels : String → ChannelsConfig
  themeFiles : String → List String
  /-- `canonicalize`, or the path itself where that fails. -/
  canonical : String → String
  notifier : NotifierConfig → ν
  email : EmailConfig → Option χ
  telegram : SubscriberTelegramConfig → Option χ
  webhook : Option χ

variable {ν χ : Type} (rc : ReloadCrates ν χ)

/-- `build_notifiers`. -/
def buildNotifiers (cfg : LiveConfig) : List ν := cfg.notifiers.map rc.notifier

/-- `build_channels`: one that cannot be built is left out. -/
def buildChannels (cfg : LiveConfig) : List (String × χ) :=
  if !cfg.channels.enabled then []
  else
    (((cfg.channels.email.filter (·.enabled)).bind rc.email).map ("email", ·)).toList ++
    (((cfg.channels.telegram.filter (·.enabled)).bind rc.telegram).map ("telegram", ·)).toList ++
    if cfg.channels.webhook.any id then (rc.webhook.map ("webhook", ·)).toList else []

/-- `load`. -/
def ReloadCrates.load (file : ConfigFile) : Except Fault LiveConfig := do
  let cfg ← rc.reader.load file
  let text ← file.text.mapError .error
  return ⟨cfg, rc.notifiers text, rc.channels text, rc.themeFiles text⟩

/-! ### The tasks -/

/-- `RELOAD_QUIET`, in milliseconds. -/
def reloadQuiet : ℕ := 300

/-- Whether an event concerns the config file or one of the theme files. -/
def touchesWatched (paths : List String) (config : String) (theme : List String) : Bool :=
  let theme := theme.map rc.canonical
  paths.any fun p => rc.canonical p == config || theme.contains (rc.canonical p)

/-- Where `coalesce_reloads` is. -/
inductive ReloadTask
  /-- It waits for an event. -/
  | idle
  /-- It waits until the deadline, or for another event. -/
  | quiet (deadline : ℕ)
  /-- It is about to read the file. -/
  | reading
  /-- It has read the file. -/
  | loaded (file : ConfigFile)
  /-- It panicked. -/
  | ended

/-- The program as far as reloads go. -/
structure HotReload (ν χ : Type) where
  /-- The config file. -/
  file : ConfigFile
  /-- The events the thread has not seen, each with its paths. -/
  events : List (List String)
  /-- What the thread has sent and `coalesce_reloads` has not received. -/
  queue : ℕ
  task : ReloadTask
  config : Watched LiveConfig
  notifiers : Follower LiveConfig (List NotifierConfig) (List ν)
  channels : Follower LiveConfig ChannelsConfig (List (String × χ))
  /-- Milliseconds. -/
  clock : ℕ

inductive HotStep
  /-- The file changes, with an event for these paths. -/
  | write (file : ConfigFile) (paths : List String)
  /-- Something else happens in a directory that is watched. -/
  | event (paths : List String)
  /-- The thread takes an event. -/
  | observe
  /-- `coalesce_reloads` goes on. -/
  | coalesce
  /-- `notifier_reload_loop` goes on. -/
  | notifiers
  /-- `channel_reload_loop` goes on. -/
  | channels
  /-- A millisecond passes. -/
  | tick

/-- A step by the program itself. -/
def HotStep.isOwn : HotStep → Bool
  | .write .. => false
  | .event _ => false
  | _ => true

namespace HotReload

/-- The program has just been started with the config in the file. -/
def initial (file : ConfigFile) (cfg : LiveConfig) : HotReload ν χ where
  file := file
  events := []
  queue := 0
  task := .idle
  config := ⟨cfg, 0⟩
  notifiers := .of (·.notifiers) (buildNotifiers rc) ⟨cfg, 0⟩
  channels := .of (·.channels) (buildChannels rc) ⟨cfg, 0⟩
  clock := 0

/-- `apply_reload`, with the file as it was read. -/
def applyReload (s : HotReload ν χ) (file : ConfigFile) : HotReload ν χ :=
  match rc.load file with
  | .ok new => { s with task := .idle, config := s.config.send new }
  | .error (.error _) => { s with task := .idle }
  | .error .panicked => { s with task := .ended }

/-- The task is still there. -/
def serving (s : HotReload ν χ) : Bool :=
  match s.task with
  | .ended => false
  | _ => true

/-- The part that the runs of edits in `Reload` are about. -/
def reloader (s : HotReload ν χ) : Reloader := ⟨s.config.value.config, s.serving⟩

/-- `coalesce_reloads`. A timeout looks for an event first. -/
def coalesce (s : HotReload ν χ) : HotReload ν χ :=
  match s.task with
  | .idle =>
    if s.queue = 0 then s
    else { s with queue := s.queue - 1, task := .quiet (s.clock + reloadQuiet) }
  | .quiet deadline =>
    if s.queue = 0 then
      if deadline ≤ s.clock then { s with task := .reading } else s
    else { s with queue := s.queue - 1, task := .quiet (s.clock + reloadQuiet) }
  | .reading => { s with task := .loaded s.file }
  | .loaded file => s.applyReload rc file
  | .ended => s

/-- One step; `config` is the canonical path of the config file. -/
def step (config : String) (s : HotReload ν χ) : HotStep → HotReload ν χ
  | .write file paths => { s with file := file, events := s.events ++ [paths] }
  | .event paths => { s with events := s.events ++ [paths] }
  | .observe =>
    match s.events with
    | [] => s
    | paths :: events =>
      { s with
        events := events
        queue := if touchesWatched rc paths config s.config.value.themeFiles then s.queue + 1
          else s.queue }
  | .coalesce => s.coalesce rc
  | .notifiers =>
    { s with notifiers := s.notifiers.step (·.notifiers) (buildNotifiers rc) s.config }
  | .channels => { s with channels := s.channels.step (·.channels) (buildChannels rc) s.config }
  | .tick => { s with clock := s.clock + 1 }

end HotReload

end Dunlin

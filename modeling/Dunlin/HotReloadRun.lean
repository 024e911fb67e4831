import Dunlin.HotReload

/-!
# No edit is lost

`edits_in_force` says what runs when nothing is under way: what the config file says, if it says
anything valid, with the notifiers and channels that are built from it. That holds in every run,
however the file is edited while events, reloads and rebuilds of earlier edits are on their way. The
invariant is `Carried`: the file as it is now is either in force or somewhere on its way.

`edits_settle` says that the program gets there. Once the file is left alone, a bounded number of
rounds is enough, where a round is any order of steps in which every task takes one.

## Scope

A change of the config file comes with an event that names its path (`Reported`), as the watcher is
there to see to. The measure of `edits_settle` counts what is on its way; time has to pass for the
quiet period, so a round has a tick in it.

## Main results

* `Carried.step` — no step loses the file
* `left_round_lt` — a round comes nearer to rest
* `edits_in_force` — what is in force when nothing is under way
* `edits_settle` — a bounded number of rounds gets there
* `reloader_applyReload` — the reloads of `Reload` are these
-/

namespace Dunlin

open Lib

variable {ν χ : Type} {rc : ReloadCrates ν χ} {config : String} {s : HotReload ν χ}

namespace HotReload

/-- Nothing is under way. -/
structure AtRest (s : HotReload ν χ) : Prop where
  events : s.events = []
  queue : s.queue = 0
  task : s.task = .idle
  notifiers : s.notifiers.Idle s.config
  channels : s.channels.Idle s.config

/-- The event has the path of the config file. -/
def Names (rc : ReloadCrates ν χ) (config : String) (paths : List String) : Prop :=
  ∃ p ∈ paths, rc.canonical p = config

/-- What the file says has been applied, if it is valid. -/
structure InForce (rc : ReloadCrates ν χ) (s : HotReload ν χ) : Prop where
  applied : ∀ cfg, rc.load s.file = .ok cfg → s.config.value = cfg
  survived : rc.load s.file ≠ .error .panicked

/-- The file as it is now is in force or on its way. -/
inductive Carried (rc : ReloadCrates ν χ) (config : String) (s : HotReload ν χ) : Prop
  | event (paths : List String) (hmem : paths ∈ s.events) (hnames : Names rc config paths)
  | queued (h : s.queue ≠ 0)
  | quiet (deadline : ℕ) (h : s.task = .quiet deadline)
  | reading (h : s.task = .reading)
  | loaded (h : s.task = .loaded s.file)
  | ended (h : s.task = .ended)
  | inForce (htask : s.task = .idle) (h : s.InForce rc)

/-- An event comes with every change of the file. -/
def Reported (rc : ReloadCrates ν χ) (config : String) (_ : HotReload ν χ) : HotStep → Prop
  | .write _ paths => Names rc config paths
  | _ => True

theorem touchesWatched_of_names {paths theme : List String} (h : Names rc config paths) :
    touchesWatched rc paths config theme = true := by
  obtain ⟨p, hp, hcanonical⟩ := h
  rw [touchesWatched, List.any_eq_true]
  exact ⟨p, hp, by rw [hcanonical, beq_self_eq_true, Bool.true_or]⟩

/-- Reloading the file puts it in force, or ends the task. -/
theorem carried_applyReload : (s.applyReload rc s.file).Carried rc config := by
  rw [applyReload]
  cases hload : rc.load s.file with
  | ok new =>
    refine .inForce rfl ⟨fun cfg hcfg => ?_, fun hpanic => ?_⟩
    · exact Except.ok.inj (hload.symm.trans hcfg)
    · exact absurd (hload.symm.trans hpanic) nofun
  | error e =>
    cases e with
    | error message =>
      refine .inForce rfl ⟨fun cfg hcfg => ?_, fun hpanic => ?_⟩
      · exact absurd (hload.symm.trans hcfg) nofun
      · exact absurd (hload.symm.trans hpanic) nofun
    | panicked => exact .ended rfl

theorem events_applyReload (rc : ReloadCrates ν χ) (s : HotReload ν χ) (file : ConfigFile) :
    (s.applyReload rc file).events = s.events ∧ (s.applyReload rc file).queue = s.queue ∧
      (s.applyReload rc file).file = s.file := by
  rw [applyReload]
  split <;> exact ⟨rfl, rfl, rfl⟩

/-- `coalesce_reloads` carries the file on. -/
theorem Carried.coalesce (h : s.Carried rc config) : (s.coalesce rc).Carried rc config := by
  rw [HotReload.coalesce]
  cases htask : s.task with
  | idle =>
    dsimp only
    split
    · exact h
    · exact .quiet _ rfl
  | quiet deadline =>
    dsimp only
    split
    · split
      · exact .reading rfl
      · exact h
    · exact .quiet _ rfl
  | reading => exact .loaded rfl
  | loaded file =>
    obtain ⟨hevents, hqueue, hfile⟩ := events_applyReload rc s file
    cases h with
    | event paths hmem hnames => exact .event paths (hevents ▸ hmem) hnames
    | queued h => exact .queued (hqueue ▸ h)
    | quiet deadline h => exact absurd (htask.symm.trans h) nofun
    | reading h => exact absurd (htask.symm.trans h) nofun
    | loaded h =>
      obtain rfl := ReloadTask.loaded.inj (htask.symm.trans h)
      exact carried_applyReload
    | ended h => exact absurd (htask.symm.trans h) nofun
    | inForce h => exact absurd (htask.symm.trans h) nofun
  | ended => exact .ended htask

/-- Where nothing is taken from what is on its way. -/
theorem Carried.congr {s' : HotReload ν χ} (h : s.Carried rc config)
    (hevents : ∀ paths ∈ s.events, Names rc config paths → paths ∈ s'.events ∨ s'.queue ≠ 0)
    (hqueue : s.queue ≠ 0 → s'.queue ≠ 0) (htask : s'.task = s.task) (hfile : s'.file = s.file)
    (hconfig : s'.config = s.config) : s'.Carried rc config := by
  cases h with
  | event paths hmem hnames =>
    rcases hevents paths hmem hnames with hmem | hqueued
    · exact .event paths hmem hnames
    · exact .queued hqueued
  | queued h => exact .queued (hqueue h)
  | quiet deadline h => exact .quiet deadline (htask.trans h)
  | reading h => exact .reading (htask.trans h)
  | loaded h => exact .loaded (htask.trans (h.trans (hfile ▸ rfl)))
  | ended h => exact .ended (htask.trans h)
  | inForce hidle h =>
    exact .inForce (htask.trans hidle) ⟨hfile ▸ hconfig ▸ h.applied, hfile ▸ h.survived⟩

/-- **No step loses the file.** -/
theorem Carried.step (h : s.Carried rc config) {op : HotStep} (hop : Reported rc config s op) :
    (HotReload.step rc config s op).Carried rc config := by
  cases op with
  | write file paths =>
    exact .event paths (List.mem_append_right _ (List.mem_singleton_self _)) hop
  | event paths =>
    exact h.congr (fun paths' hmem _ => .inl (List.mem_append_left _ hmem)) id rfl rfl rfl
  | observe =>
    rw [HotReload.step]
    cases hevents : s.events with
    | nil => exact h
    | cons paths events =>
      refine h.congr (fun paths' hmem hnames => ?_) (fun hqueue => ?_) rfl rfl rfl
      · rw [hevents, List.mem_cons] at hmem
        rcases hmem with rfl | hmem
        · dsimp only
          rw [touchesWatched_of_names hnames, if_pos rfl]
          exact .inr (Nat.succ_ne_zero _)
        · exact .inl hmem
      · dsimp only
        split
        · exact Nat.succ_ne_zero _
        · exact hqueue
  | coalesce => exact h.coalesce
  | notifiers => exact h.congr (fun _ hmem _ => .inl hmem) id rfl rfl rfl
  | channels => exact h.congr (fun _ hmem _ => .inl hmem) id rfl rfl rfl
  | tick => exact h.congr (fun _ hmem _ => .inl hmem) id rfl rfl rfl

/-! ### The followers -/

/-- The followers, and where the config comes from. -/
structure Fed (rc : ReloadCrates ν χ) (files : List ConfigFile) (s : HotReload ν χ) : Prop where
  notifiers : s.notifiers.Sound (·.notifiers) (buildNotifiers rc) s.config
  channels : s.channels.Sound (·.channels) (buildChannels rc) s.config
  file : s.file ∈ files
  loaded : ∀ file, s.task = .loaded file → file ∈ files
  value : ∃ file ∈ files, rc.load file = .ok s.config.value

/-- The files a run has written. -/
def written (ops : List HotStep) : List ConfigFile := ops.filterMap fun op =>
  match op with
  | .write file _ => some file
  | _ => none

theorem Fed.mono {files files' : List ConfigFile} (h : s.Fed rc files)
    (hsub : ∀ file ∈ files, file ∈ files') : s.Fed rc files' where
  notifiers := h.notifiers
  channels := h.channels
  file := hsub _ h.file
  loaded file htask := hsub _ (h.loaded file htask)
  value := by
    obtain ⟨file, hmem, hload⟩ := h.value
    exact ⟨file, hsub _ hmem, hload⟩

/-- The task goes on to another stage with the same config. -/
theorem Fed.toTask {files : List ConfigFile} (h : s.Fed rc files) (queue : ℕ) {task : ReloadTask}
    (htask : ∀ file, task = .loaded file → file ∈ files) :
    ({ s with queue := queue, task := task } : HotReload ν χ).Fed rc files where
  notifiers := h.notifiers
  channels := h.channels
  file := h.file
  loaded := htask
  value := h.value

theorem Fed.coalesce {files : List ConfigFile} (h : s.Fed rc files) :
    (s.coalesce rc).Fed rc files := by
  rw [HotReload.coalesce]
  cases htask : s.task with
  | idle =>
    dsimp only
    split
    · exact h
    · exact h.toTask _ nofun
  | quiet deadline =>
    dsimp only
    split
    · split
      · exact h.toTask _ nofun
      · exact h
    · exact h.toTask _ nofun
  | reading => exact h.toTask _ fun file heq => ReloadTask.loaded.inj heq ▸ h.file
  | loaded file =>
    dsimp only
    rw [applyReload]
    cases hload : rc.load file with
    | ok new => exact ⟨h.notifiers.send new, h.channels.send new, h.file, nofun, file,
        h.loaded file htask, hload⟩
    | error e =>
      cases e with
      | error message => exact h.toTask _ nofun
      | panicked => exact h.toTask _ nofun
  | ended => exact h

theorem Fed.step {files : List ConfigFile} (h : s.Fed rc files) (op : HotStep) :
    (HotReload.step rc config s op).Fed rc (files ++ written [op]) := by
  cases op with
  | write file paths =>
    have hmono : s.Fed rc (files ++ [file]) := h.mono fun _ => List.mem_append_left _
    exact ⟨h.notifiers, h.channels, List.mem_append_right _ (List.mem_singleton_self _),
      hmono.loaded, hmono.value⟩
  | event paths => exact Fed.mono ⟨h.1, h.2, h.3, h.4, h.5⟩ fun _ => List.mem_append_left _
  | observe =>
    rw [HotReload.step]
    split
    · exact h.mono fun _ => List.mem_append_left _
    · exact Fed.mono ⟨h.1, h.2, h.3, h.4, h.5⟩ fun _ => List.mem_append_left _
  | coalesce => exact Fed.mono h.coalesce fun _ => List.mem_append_left _
  | notifiers => exact Fed.mono ⟨h.1.step, h.2, h.3, h.4, h.5⟩ fun _ => List.mem_append_left _
  | channels => exact Fed.mono ⟨h.1, h.2.step, h.3, h.4, h.5⟩ fun _ => List.mem_append_left _
  | tick => exact Fed.mono ⟨h.1, h.2, h.3, h.4, h.5⟩ fun _ => List.mem_append_left _

theorem written_append (ops ops' : List HotStep) :
    written (ops ++ ops') = written ops ++ written ops' := List.filterMap_append

variable (config) in
theorem fed_run {file : ConfigFile} {cfg : LiveConfig} (hload : rc.load file = .ok cfg)
    (ops : List HotStep) :
    (run (HotReload.step rc config) (initial rc file cfg) ops).Fed rc (file :: written ops) := by
  induction ops using List.reverseRecOn with
  | nil =>
    exact ⟨Follower.sound_of _ _ _, Follower.sound_of _ _ _, List.mem_cons_self, nofun, file,
      List.mem_cons_self, hload⟩
  | append_singleton ops op ih =>
    rw [written_append, ← List.cons_append, run_append]
    exact ih.step op

/-- The file is the one that was written last. -/
theorem file_step (op : HotStep) :
    (HotReload.step rc config s op).file = (written [op]).getLastD s.file := by
  cases op with
  | write file paths => rfl
  | event paths => rfl
  | observe =>
    rw [HotReload.step]
    split <;> rfl
  | coalesce =>
    show (s.coalesce rc).file = s.file
    rw [HotReload.coalesce]
    split
    · split <;> rfl
    · split
      · split <;> rfl
      · rfl
    · rfl
    · exact (events_applyReload rc s _).2.2
    · rfl
  | notifiers => rfl
  | channels => rfl
  | tick => rfl

variable (rc config) in
theorem file_run (s : HotReload ν χ) (ops : List HotStep) :
    (run (HotReload.step rc config) s ops).file = (written ops).getLastD s.file := by
  induction ops generalizing s with
  | nil => rfl
  | cons op ops ih =>
    rw [run_cons, ih, file_step]
    cases op with
    | write file paths => exact (List.getLastD_cons ..).symm
    | event paths => rfl
    | observe => rfl
    | coalesce => rfl
    | notifiers => rfl
    | channels => rfl
    | tick => rfl

/-- The notifiers of two configs that agree on them are the same. -/
theorem buildNotifiers_congr (a b : LiveConfig) (h : a.notifiers = b.notifiers) :
    buildNotifiers rc a = buildNotifiers rc b := by
  rw [buildNotifiers, buildNotifiers, h]

theorem buildChannels_congr (a b : LiveConfig) (h : a.channels = b.channels) :
    buildChannels rc a = buildChannels rc b := by
  rw [buildChannels, buildChannels, h]

/-- At rest the last edit is in force, if it is valid. -/
theorem inForce_of_atRest {file : ConfigFile} {cfg : LiveConfig} (hload : rc.load file = .ok cfg)
    {ops : List HotStep}
    (h : Always (HotReload.step rc config) (Reported rc config) (initial rc file cfg) ops)
    (hrest : (run (HotReload.step rc config) (initial rc file cfg) ops).AtRest) {new : LiveConfig}
    (hnew : rc.load ((written ops).getLastD file) = .ok new) :
    (run (HotReload.step rc config) (initial rc file cfg) ops).config.value = new := by
  have hcarried : (run (HotReload.step rc config) (initial rc file cfg) ops).Carried rc config := by
    refine h.run_inv ?_ fun s op (hs : s.Carried rc config) hop => hs.step hop
    refine .inForce rfl ⟨fun cfg' hcfg => ?_, fun hpanic => ?_⟩
    · exact Except.ok.inj (hload.symm.trans hcfg)
    · exact absurd (hload.symm.trans hpanic) nofun
  have hfile := file_run rc config (initial rc file cfg) ops
  cases hcarried with
  | event paths hmem hnames =>
    rw [hrest.events] at hmem
    exact absurd hmem List.not_mem_nil
  | queued h => exact absurd hrest.queue h
  | quiet deadline h => exact absurd (hrest.task.symm.trans h) nofun
  | reading h => exact absurd (hrest.task.symm.trans h) nofun
  | loaded h => exact absurd (hrest.task.symm.trans h) nofun
  | ended h => exact absurd (hrest.task.symm.trans h) nofun
  | inForce htask h =>
    refine h.applied new ?_
    rw [hfile]
    exact hnew

/-! ### Coming to rest -/

/-- The steps of the program itself. -/
def ownSteps : List HotStep := [.observe, .coalesce, .notifiers, .channels, .tick]

/-- Steps of the program itself, each at least once. -/
def IsRound (round : List HotStep) : Prop :=
  (∀ op ∈ round, op.isOwn = true) ∧ ∀ op ∈ ownSteps, op ∈ round

/-- How far the task is from waiting. -/
def taskLeft (clock : ℕ) : ReloadTask → ℕ
  | .idle => 0
  | .quiet deadline => 11 + (deadline - clock)
  | .reading => 10
  | .loaded _ => 9
  | .ended => 0

/-- How far the program is from rest. An event counts more than a burst, and a burst more than what
both followers do about a new config. -/
def left (s : HotReload ν χ) : ℕ :=
  313 * s.events.length + 312 * s.queue + taskLeft s.clock s.task +
    s.notifiers.left s.config + s.channels.left s.config

/-- The task is there, and will be. -/
structure Alive (rc : ReloadCrates ν χ) (s : HotReload ν χ) : Prop where
  running : s.task ≠ .ended
  file : rc.load s.file ≠ .error .panicked
  loaded : ∀ file, s.task = .loaded file → rc.load file ≠ .error .panicked

/-- The task, where what it has read does not panic. -/
theorem Alive.coalesce (h : s.Alive rc) : (s.coalesce rc).Alive rc := by
  rw [HotReload.coalesce]
  cases htask : s.task with
  | idle =>
    dsimp only
    split
    · exact h
    · exact ⟨nofun, h.file, nofun⟩
  | quiet deadline =>
    dsimp only
    split
    · split
      · exact ⟨nofun, h.file, nofun⟩
      · exact h
    · exact ⟨nofun, h.file, nofun⟩
  | reading => exact ⟨nofun, h.file, fun file heq => ReloadTask.loaded.inj heq ▸ h.file⟩
  | loaded file =>
    dsimp only
    rw [applyReload]
    cases hload : rc.load file with
    | ok new => exact ⟨nofun, h.file, nofun⟩
    | error e =>
      cases e with
      | error message => exact ⟨nofun, h.file, nofun⟩
      | panicked => exact absurd hload (h.loaded file htask)
  | ended => exact h

theorem Alive.step (h : s.Alive rc) {op : HotStep}
    (hop : ∀ file ∈ written [op], rc.load file ≠ .error .panicked) :
    (HotReload.step rc config s op).Alive rc := by
  cases op with
  | write file paths => exact ⟨h.running, hop file (List.mem_singleton_self _), h.loaded⟩
  | event paths => exact ⟨h.running, h.file, h.loaded⟩
  | observe =>
    rw [HotReload.step]
    split
    · exact h
    · exact ⟨h.running, h.file, h.loaded⟩
  | coalesce => exact h.coalesce
  | notifiers => exact ⟨h.running, h.file, h.loaded⟩
  | channels => exact ⟨h.running, h.file, h.loaded⟩
  | tick => exact ⟨h.running, h.file, h.loaded⟩

theorem written_of_isOwn {op : HotStep} (h : op.isOwn = true) : written [op] = [] := by
  cases op with
  | write => exact absurd h nofun
  | event => exact absurd h nofun
  | observe => rfl
  | coalesce => rfl
  | notifiers => rfl
  | channels => rfl
  | tick => rfl

/-- The same but for the time, and as far from the deadline. -/
structure Alike (s s' : HotReload ν χ) : Prop where
  same : s' = { s with clock := s'.clock }
  deadline : ∀ deadline, s.task = .quiet deadline → deadline - s'.clock = deadline - s.clock

theorem Alike.refl (s : HotReload ν χ) : s.Alike s := ⟨rfl, fun _ _ => rfl⟩

theorem Alike.trans {s' s'' : HotReload ν χ} (h : s.Alike s') (h' : s'.Alike s'') :
    s.Alike s'' where
  same := by rw [h'.same, h.same]
  deadline d hd := by
    have hd' : s'.task = .quiet d := by rw [h.same]; exact hd
    rw [h'.deadline d hd', h.deadline d hd]

theorem Alike.left {s' : HotReload ν χ} (h : s.Alike s') : s'.left = s.left := by
  have htask : taskLeft s'.clock s.task = taskLeft s.clock s.task := by
    cases htask : s.task with
    | quiet deadline => exact congrArg (11 + ·) (h.deadline deadline htask)
    | idle => rfl
    | reading => rfl
    | loaded file => rfl
    | ended => rfl
  rw [h.same]
  show 313 * s.events.length + 312 * s.queue + taskLeft s'.clock s.task + _ + _ = _
  rw [htask]
  rfl

theorem left_toTask (queue : ℕ) (task : ReloadTask) :
    ({ s with queue := queue, task := task } : HotReload ν χ).left =
      313 * s.events.length + 312 * queue + taskLeft s.clock task +
        s.notifiers.left s.config + s.channels.left s.config := rfl

theorem left_of_task {task : ReloadTask} (htask : s.task = task) :
    s.left = 313 * s.events.length + 312 * s.queue + taskLeft s.clock task +
      s.notifiers.left s.config + s.channels.left s.config := by
  rw [left, htask]

/-- `coalesce_reloads` comes nearer to rest, or has to wait. -/
theorem coalesce_left (h : s.Alive rc) :
    (s.coalesce rc).left < s.left ∨ s.coalesce rc = s ∧ s.queue = 0 ∧
      (s.task = .idle ∨ ∃ deadline, s.task = .quiet deadline ∧ s.clock < deadline) := by
  have hquiet : taskLeft s.clock (.quiet (s.clock + reloadQuiet)) = 311 := by
    rw [taskLeft, Nat.add_sub_cancel_left]
    rfl
  have hreading : taskLeft s.clock .reading = 10 := rfl
  rw [HotReload.coalesce]
  cases htask : s.task with
  | idle =>
    dsimp only
    split
    · rename_i hqueue
      exact .inr ⟨rfl, hqueue, .inl rfl⟩
    · left
      rw [left_toTask, left_of_task htask, hquiet, taskLeft]
      omega
  | quiet deadline =>
    dsimp only
    split
    · rename_i hqueue
      split
      · left
        show HotReload.left { s with queue := s.queue, task := .reading } < _
        rw [left_toTask, left_of_task htask, hreading, taskLeft]
        omega
      · rename_i hlate
        exact .inr ⟨rfl, hqueue, .inr ⟨deadline, rfl, by omega⟩⟩
    · left
      rw [left_toTask, left_of_task htask, hquiet, taskLeft]
      omega
  | reading =>
    left
    show HotReload.left { s with queue := s.queue, task := .loaded s.file } < _
    rw [left_toTask, left_of_task htask, hreading, taskLeft]
    omega
  | loaded file =>
    left
    dsimp only
    rw [applyReload]
    cases hload : rc.load file with
    | ok new =>
      have hn := s.notifiers.left_send_le s.config new
      have hc := s.channels.left_send_le s.config new
      show 313 * s.events.length + 312 * s.queue + 0 + s.notifiers.left (s.config.send new) +
        s.channels.left (s.config.send new) < _
      rw [left_of_task htask, taskLeft]
      omega
    | error e =>
      cases e with
      | error message =>
        show HotReload.left { s with queue := s.queue, task := .idle } < _
        rw [left_toTask, left_of_task htask, taskLeft, taskLeft]
        omega
      | panicked => exact absurd hload (h.loaded file htask)
  | ended => exact absurd htask h.running

section Steps

variable (rc config s)

/-- The thread comes nearer to rest, or has nothing to do. -/
theorem observe_left :
    (HotReload.step rc config s .observe).left < s.left ∨
      HotReload.step rc config s .observe = s ∧ s.events = [] := by
  rw [HotReload.step]
  cases hevents : s.events with
  | nil => exact .inr ⟨rfl, rfl⟩
  | cons paths events =>
    have hqueue : (if touchesWatched rc paths config s.config.value.themeFiles then s.queue + 1
        else s.queue) ≤ s.queue + 1 := by
      split
      · exact le_refl _
      · exact Nat.le_succ _
    left
    show 313 * events.length + 312 * (if touchesWatched rc paths config s.config.value.themeFiles
      then s.queue + 1 else s.queue) + taskLeft s.clock s.task + s.notifiers.left s.config +
      s.channels.left s.config < _
    rw [left, hevents, List.length_cons]
    omega

/-- So do the followers. -/
theorem notifiers_left :
    (HotReload.step rc config s .notifiers).left < s.left ∨
      HotReload.step rc config s .notifiers = s ∧ s.notifiers.Idle s.config := by
  by_cases hidle : s.notifiers.Idle s.config
  · refine .inr ⟨?_, hidle⟩
    rw [HotReload.step, hidle.step]
  · left
    have hleft : (s.notifiers.step (·.notifiers) (buildNotifiers rc) s.config).left s.config <
        s.notifiers.left s.config := Follower.left_step hidle
    show 313 * s.events.length + 312 * s.queue + taskLeft s.clock s.task +
      (s.notifiers.step (·.notifiers) (buildNotifiers rc) s.config).left s.config +
      s.channels.left s.config < _
    rw [left]
    omega

theorem channels_left :
    (HotReload.step rc config s .channels).left < s.left ∨
      HotReload.step rc config s .channels = s ∧ s.channels.Idle s.config := by
  by_cases hidle : s.channels.Idle s.config
  · refine .inr ⟨?_, hidle⟩
    rw [HotReload.step, hidle.step]
  · left
    have hleft : (s.channels.step (·.channels) (buildChannels rc) s.config).left s.config <
        s.channels.left s.config := Follower.left_step hidle
    show 313 * s.events.length + 312 * s.queue + taskLeft s.clock s.task +
      s.notifiers.left s.config +
      (s.channels.step (·.channels) (buildChannels rc) s.config).left s.config < _
    rw [left]
    omega

/-- Time brings a deadline nearer, and changes nothing otherwise. -/
theorem tick_left :
    (HotReload.step rc config s .tick).left < s.left ∨
      s.Alike (HotReload.step rc config s .tick) ∧
        ∀ deadline, s.task = .quiet deadline → deadline ≤ s.clock := by
  by_cases hlate : ∀ deadline, s.task = .quiet deadline → deadline ≤ s.clock
  · refine .inr ⟨⟨rfl, fun deadline htask => ?_⟩, hlate⟩
    have hle := hlate deadline htask
    show deadline - (s.clock + 1) = deadline - s.clock
    omega
  · left
    simp only [not_forall] at hlate
    obtain ⟨deadline, htask, hlt⟩ := hlate
    show 313 * s.events.length + 312 * s.queue + taskLeft (s.clock + 1) s.task +
      s.notifiers.left s.config + s.channels.left s.config < _
    rw [left_of_task htask, htask, taskLeft, taskLeft]
    omega

end Steps

section Rounds

variable (config)

/-- **A step of the program comes nearer to rest, or changes nothing but the time.** -/
theorem step_left (h : s.Alive rc) {op : HotStep} (hop : op.isOwn = true) :
    (HotReload.step rc config s op).left < s.left ∨ s.Alike (HotReload.step rc config s op) := by
  cases op with
  | write => exact absurd hop nofun
  | event => exact absurd hop nofun
  | observe => exact (observe_left rc config s).imp_right fun ⟨hsame, _⟩ => hsame.symm ▸ .refl s
  | coalesce =>
    refine (coalesce_left h).imp_right fun hsame => ?_
    show s.Alike (s.coalesce rc)
    rw [hsame.1]
    exact .refl s
  | notifiers => exact (notifiers_left rc config s).imp_right fun ⟨hsame, _⟩ => hsame.symm ▸ .refl s
  | channels => exact (channels_left rc config s).imp_right fun ⟨hsame, _⟩ => hsame.symm ▸ .refl s
  | tick => exact (tick_left rc config s).imp_right fun hsame => hsame.1

/-- A task that is alive at another time. -/
theorem Alike.alive {s' : HotReload ν χ} (h : s.Alike s') (ha : s.Alive rc) : s'.Alive rc := by
  rw [h.same]
  exact ⟨ha.running, ha.file, ha.loaded⟩

theorem left_of_atRest (h : s.AtRest) : s.left = 0 := by
  have hnotifiers : s.notifiers.left s.config = 0 := by
    rw [Follower.left, h.notifiers.1, if_pos h.notifiers.2]
    rfl
  have hchannels : s.channels.left s.config = 0 := by
    rw [Follower.left, h.channels.1, if_pos h.channels.2]
    rfl
  rw [left, h.events, h.queue, h.task, hnotifiers, hchannels]
  rfl

/-- **Not at rest, some step of the program comes nearer**, whatever the time. -/
theorem exists_left_lt (ha : s.Alive rc) (h : ¬s.AtRest) :
    ∃ op ∈ ownSteps, ∀ s' : HotReload ν χ, s.Alike s' →
      (HotReload.step rc config s' op).left < s'.left := by
  by_cases hevents : s.events = []
  swap
  · refine ⟨.observe, by simp [ownSteps], fun s' halike => ?_⟩
    refine (observe_left rc config s').resolve_right fun hsame => hevents ?_
    rw [← hsame.2, halike.same]
  by_cases hwait : ∃ deadline, s.task = .quiet deadline ∧ s.clock < deadline ∧ s.queue = 0
  · obtain ⟨deadline, htask, hlt, -⟩ := hwait
    refine ⟨.tick, by simp [ownSteps], fun s' halike => ?_⟩
    refine (tick_left rc config s').resolve_right fun hsame => ?_
    have htask' : s'.task = .quiet deadline := by rw [halike.same]; exact htask
    have hle := hsame.2 deadline htask'
    have hsub := halike.deadline deadline htask
    omega
  by_cases hidle : s.task = .idle ∧ s.queue = 0
  swap
  · refine ⟨.coalesce, by simp [ownSteps], fun s' halike => ?_⟩
    refine (coalesce_left (halike.alive ha)).resolve_right ?_
    rintro ⟨-, hqueue, htask⟩
    have hqueue' : s.queue = 0 := by rw [← hqueue, halike.same]
    have htask' : s'.task = s.task := by rw [halike.same]
    rcases htask with htask | ⟨deadline, htask, hlt⟩
    · exact hidle ⟨htask'.symm.trans htask, hqueue'⟩
    · have hquiet := htask'.symm.trans htask
      have hsub := halike.deadline deadline hquiet
      exact hwait ⟨deadline, hquiet, by omega, hqueue'⟩
  by_cases hnotifiers : s.notifiers.Idle s.config
  swap
  · refine ⟨.notifiers, by simp [ownSteps], fun s' halike => ?_⟩
    refine (notifiers_left rc config s').resolve_right fun hsame => hnotifiers ?_
    have hidle' := hsame.2
    rw [halike.same] at hidle'
    exact hidle'
  · refine ⟨.channels, by simp [ownSteps], fun s' halike => ?_⟩
    refine (channels_left rc config s').resolve_right fun hsame => ?_
    have hidle' := hsame.2
    rw [halike.same] at hidle'
    exact h ⟨hevents, hidle.2, hidle.1, hnotifiers, hidle'⟩

/-- Steps of the program never lead away from rest. -/
theorem left_run_le {ops : List HotStep} (ha : s.Alive rc) (hops : ∀ op ∈ ops, op.isOwn = true) :
    (run (HotReload.step rc config) s ops).left ≤ s.left ∧
      (run (HotReload.step rc config) s ops).Alive rc := by
  induction ops generalizing s with
  | nil => exact ⟨le_refl _, ha⟩
  | cons op ops ih =>
    have hop := hops op List.mem_cons_self
    have hstep : (HotReload.step rc config s op).left ≤ s.left := by
      rcases step_left config ha hop with hless | halike
      · exact hless.le
      · exact halike.left.le
    have halive : (HotReload.step rc config s op).Alive rc :=
      ha.step (by rw [written_of_isOwn hop]; exact nofun)
    obtain ⟨hle, hrest⟩ := ih halive fun op' h => hops op' (List.mem_cons_of_mem _ h)
    exact ⟨hle.trans hstep, hrest⟩

/-- **A round comes nearer to rest.** Up to the step that does nothing else does more than let time
pass, or there has been progress already. -/
theorem left_round_lt {round : List HotStep} (hround : IsRound round) (ha : s.Alive rc)
    (h : ¬s.AtRest) : (run (HotReload.step rc config) s round).left < s.left := by
  obtain ⟨op, hop, hless⟩ := exists_left_lt config ha h
  have hloop : ∀ (ops : List HotStep) (s' : HotReload ν χ), (∀ op ∈ ops, op.isOwn = true) →
      op ∈ ops → s.Alike s' → (run (HotReload.step rc config) s' ops).left < s.left := by
    intro ops
    induction ops with
    | nil => exact fun _ _ hmem _ => absurd hmem List.not_mem_nil
    | cons op' ops ih =>
      intro s' hown hmem halike
      have hop' := hown op' List.mem_cons_self
      have hown' : ∀ op ∈ ops, op.isOwn = true := fun op h => hown op (List.mem_cons_of_mem _ h)
      have halive : (HotReload.step rc config s' op').Alive rc :=
        (halike.alive ha).step (by rw [written_of_isOwn hop']; exact nofun)
      rw [run_cons]
      rcases step_left config (halike.alive ha) hop' with hnear | hsame
      · have hle := (left_run_le config halive hown').1
        rw [← halike.left]
        omega
      · rcases List.mem_cons.mp hmem with rfl | hmem
        · exact absurd hsame.left (hless s' halike).ne
        · exact ih _ hown' hmem (halike.trans hsame)
  exact hloop round s hround.1 (hround.2 op hop) (.refl s)

theorem alive_run {ops : List HotStep} (ha : s.Alive rc)
    (hfits : ∀ file ∈ written ops, rc.load file ≠ .error .panicked) :
    (run (HotReload.step rc config) s ops).Alive rc := by
  induction ops generalizing s with
  | nil => exact ha
  | cons op ops ih =>
    have hwritten : written (op :: ops) = written [op] ++ written ops := written_append [op] ops
    rw [hwritten] at hfits
    exact ih (ha.step fun file h => hfits file (List.mem_append_left _ h))
      fun file h => hfits file (List.mem_append_right _ h)

theorem atRest_of_rounds (ha : s.Alive rc) {rounds : List (List HotStep)}
    (hrounds : ∀ round ∈ rounds, IsRound round) (hlen : s.left ≤ rounds.length) :
    (run (HotReload.step rc config) s rounds.flatten).AtRest := by
  induction rounds generalizing s with
  | nil =>
    by_contra h
    obtain ⟨op, -, hless⟩ := exists_left_lt config ha h
    have hpos := hless s (.refl s)
    rw [List.length_nil] at hlen
    omega
  | cons round rounds ih =>
    have hround := hrounds round List.mem_cons_self
    obtain ⟨hle, halive⟩ := left_run_le config ha hround.1
    rw [List.flatten_cons, run_append]
    refine ih halive (fun round' h => hrounds round' (List.mem_cons_of_mem _ h)) ?_
    rw [List.length_cons] at hlen
    by_cases h : s.AtRest
    · rw [left_of_atRest h] at hle
      omega
    · have hless := left_round_lt config hround ha h
      omega

end Rounds

/-- The program writes nothing to its config. -/
theorem written_of_own {ops : List HotStep} (hown : ∀ op ∈ ops, op.isOwn = true) :
    written ops = [] := by
  induction ops with
  | nil => rfl
  | cons op ops ih =>
    have hwritten : written (op :: ops) = written [op] ++ written ops := written_append [op] ops
    rw [hwritten, written_of_isOwn (hown op List.mem_cons_self), List.nil_append]
    exact ih fun op' h => hown op' (List.mem_cons_of_mem _ h)

theorem always_reported_of_own {ops : List HotStep} (hown : ∀ op ∈ ops, op.isOwn = true) :
    Always (HotReload.step rc config) (Reported rc config) s ops := by
  induction ops generalizing s with
  | nil => trivial
  | cons op ops ih =>
    refine ⟨?_, ih fun op' h => hown op' (List.mem_cons_of_mem _ h)⟩
    have hop := hown op List.mem_cons_self
    cases op with
    | write => exact absurd hop nofun
    | event => exact absurd hop nofun
    | observe => trivial
    | coalesce => trivial
    | notifiers => trivial
    | channels => trivial
    | tick => trivial

/-! ### The reloads of `Reload` -/

/-- **The two are one.** A reload here is a reload there. -/
theorem reloader_applyReload {s : HotReload ν χ} (h : s.serving = true) (file : ConfigFile) :
    (s.applyReload rc file).reloader = s.reloader.applyReload rc.reader file := by
  have hserving : s.reloader = ⟨s.config.value.config, true⟩ :=
    congrArg (Reloader.mk s.config.value.config) h
  rw [Reloader.applyReload, applyReload, ReloadCrates.load, hserving]
  cases hload : rc.reader.load file with
  | error e => cases e <;> rfl
  | ok cfg =>
    cases htext : file.text with
    | error e =>
      rw [ConfigReader.load, htext] at hload
      cases hload
    | ok text => rfl

end HotReload

open HotReload

/-! ### An edit of the title, a notifier and a channel -/

/-- The text of a small config. -/
def titleText (title topic : String) (webhooks : Bool) : String :=
  "listen = \"127.0.0.1:8080\"\npublic_url = \"https://status.example.org\"\n[web]\n" ++
  "password_hash = \"$argon2id$v=19$m=19456,t=2,p=1$HAxHiOcZJRfd5p0TbNMaUA$" ++
  "WaS5hjKfMZye0zcHnrwWqsUu3nWHgBWqzO/9D46dUYo\"\n" ++
  "[theme]\ntitle = \"" ++ title ++ "\"\n[subscriptions]\nenabled = true\n" ++
  "[subscriptions.webhook]\nenabled = " ++ toString webhooks ++
  "\n[[notifiers]]\ntype = \"ntfy\"\nurl = \"https://ntfy.sh\"\ntopic = \"" ++ topic ++ "\"\n"

def textBefore : String := titleText "Before" "ops" false

def textAfter : String := titleText "After" "alerts" true

def titleFile (text : String) : ConfigFile := ⟨"dunlin.toml", .ok text, .ok ()⟩

def titleConfig (title topic : String) (webhooks : Bool) : LiveConfig where
  config := {
    publicUrl := some "https://status.example.org"
    subscriptions := { enabled := true }
    theme := { title := title } }
  notifiers := [.ntfy "https://ntfy.sh" topic none]
  channels := { enabled := true, webhook := some webhooks }
  themeFiles := []

def configBefore : LiveConfig := titleConfig "Before" "ops" false

def configAfter : LiveConfig := titleConfig "After" "alerts" true

/-- The reader, on the two texts. A notifier is what it is built from. -/
def titleCrates : ReloadCrates NotifierConfig String where
  reader :=
    { durations := fun _ => []
      config := fun text _ =>
        if text = textBefore then .ok configBefore.config
        else if text = textAfter then .ok configAfter.config
        else .error "invalid"
      otherErrors := fun _ => [] }
  notifiers text := if text = textBefore then configBefore.notifiers else configAfter.notifiers
  channels text := if text = textBefore then configBefore.channels else configAfter.channels
  themeFiles _ := []
  canonical := id
  notifier := id
  email _ := none
  telegram _ := none
  webhook := some "webhook"

theorem load_before : titleCrates.load (titleFile textBefore) = .ok configBefore := by
  decide +kernel

theorem load_after : titleCrates.load (titleFile textAfter) = .ok configAfter := by
  decide +kernel

def titleEdit : List HotStep := [.write (titleFile textAfter) ["dunlin.toml"]]

def titleRounds : List (List HotStep) := List.replicate 313 ownSteps

theorem isRound_titleRounds : ∀ round ∈ titleRounds, IsRound round := by
  intro round hmem
  rw [List.eq_of_mem_replicate hmem]
  exact ⟨by simp [ownSteps, HotStep.isOwn], fun op => id⟩

theorem alive_titleEdit : (run (HotReload.step titleCrates "dunlin.toml")
    (initial titleCrates (titleFile textBefore) configBefore) titleEdit).Alive
      titleCrates where
  running := nofun
  file hpanic := absurd (load_after.symm.trans hpanic) nofun
  loaded := nofun

theorem left_titleEdit : (run (HotReload.step titleCrates "dunlin.toml")
    (initial titleCrates (titleFile textBefore) configBefore) titleEdit).left = 313 := rfl

/-- **At rest the last edit is in force.** However often the file was edited, and whatever was under
way when it was: if what was written last is valid then the program runs on it, and otherwise on
what some earlier version said; and the notifiers and channels are those of that config. -/
theorem edits_in_force (rc : ReloadCrates ν χ) (config : String) (file : ConfigFile)
    (cfg : LiveConfig) (hload : rc.load file = .ok cfg) (ops : List HotStep)
    (h : Always (HotReload.step rc config) (Reported rc config) (initial rc file cfg) ops)
    (hrest : (run (HotReload.step rc config) (initial rc file cfg) ops).AtRest) :
    (∀ new, rc.load ((written ops).getLastD file) = .ok new →
      (run (HotReload.step rc config) (initial rc file cfg) ops).config.value = new) ∧
    (∃ earlier ∈ file :: written ops, rc.load earlier =
      .ok (run (HotReload.step rc config) (initial rc file cfg) ops).config.value) ∧
    (run (HotReload.step rc config) (initial rc file cfg) ops).notifiers.built = buildNotifiers rc
      (run (HotReload.step rc config) (initial rc file cfg) ops).config.value ∧
    (run (HotReload.step rc config) (initial rc file cfg) ops).channels.built = buildChannels rc
      (run (HotReload.step rc config) (initial rc file cfg) ops).config.value := by
  have hfed := fed_run config hload ops
  exact ⟨fun new hnew => inForce_of_atRest hload h hrest hnew, hfed.value,
    hfed.notifiers.built_eq hrest.notifiers buildNotifiers_congr,
    hfed.channels.built_eq hrest.channels buildChannels_congr⟩

/-- The program after the edit and its rounds. -/
def titleEdited : HotReload NotifierConfig String :=
  run (HotReload.step titleCrates "dunlin.toml")
    (initial titleCrates (titleFile textBefore) configBefore) (titleEdit ++ titleRounds.flatten)

theorem edits_in_force_title : titleEdited.config.value = configAfter ∧
    titleEdited.notifiers.built = [.ntfy "https://ntfy.sh" "alerts" none] ∧
    titleEdited.channels.built = [("webhook", "webhook")] := by
  have hown : ∀ op ∈ titleRounds.flatten, op.isOwn = true := by
    intro op hop
    obtain ⟨round, hround, hmem⟩ := List.mem_flatten.mp hop
    exact (isRound_titleRounds round hround).1 op hmem
  have hreported : Always (HotReload.step titleCrates "dunlin.toml")
      (Reported titleCrates "dunlin.toml")
      (initial titleCrates (titleFile textBefore) configBefore)
      (titleEdit ++ titleRounds.flatten) :=
    always_append.mpr ⟨⟨⟨_, List.mem_singleton_self _, rfl⟩, trivial⟩, always_reported_of_own hown⟩
  have hrest : (run (HotReload.step titleCrates "dunlin.toml")
      (initial titleCrates (titleFile textBefore) configBefore)
      (titleEdit ++ titleRounds.flatten)).AtRest := by
    rw [run_append]
    refine atRest_of_rounds "dunlin.toml" alive_titleEdit isRound_titleRounds ?_
    rw [titleRounds, List.length_replicate]
    exact left_titleEdit.le
  obtain ⟨hlast, -, hnotifiers, hchannels⟩ :=
    edits_in_force titleCrates "dunlin.toml" _ _ load_before _ hreported hrest
  have hvalue := hlast configAfter (by
    rw [written_append, written_of_own hown, List.append_nil]
    exact load_after)
  rw [hvalue] at hnotifiers hchannels
  rw [titleEdited]
  exact ⟨hvalue, hnotifiers, hchannels⟩

/-- **Left alone, the program comes to rest.** After any run in which no duration is out of range, a
bounded number of rounds is enough, whatever the order of the steps in a round; and then the last
edit is in force. -/
theorem edits_settle (rc : ReloadCrates ν χ) (config : String) (file : ConfigFile)
    (cfg : LiveConfig) (hload : rc.load file = .ok cfg) (ops : List HotStep)
    (h : Always (HotReload.step rc config) (Reported rc config) (initial rc file cfg) ops)
    (hfits : ∀ file ∈ written ops, rc.load file ≠ .error .panicked) (rounds : List (List HotStep))
    (hrounds : ∀ round ∈ rounds, IsRound round)
    (hlen : (run (HotReload.step rc config) (initial rc file cfg) ops).left ≤ rounds.length) :
    (run (HotReload.step rc config) (initial rc file cfg) (ops ++ rounds.flatten)).AtRest ∧
      ∀ new, rc.load ((written ops).getLastD file) = .ok new →
        (run (HotReload.step rc config) (initial rc file cfg)
          (ops ++ rounds.flatten)).config.value = new := by
  have hown : ∀ op ∈ rounds.flatten, op.isOwn = true := by
    intro op hop
    obtain ⟨round, hround, hmem⟩ := List.mem_flatten.mp hop
    exact (hrounds round hround).1 op hmem
  have halive : (initial rc file cfg).Alive rc :=
    ⟨nofun, fun hpanic => absurd (hload.symm.trans hpanic) nofun, nofun⟩
  have hrest : (run (HotReload.step rc config) (initial rc file cfg)
      (ops ++ rounds.flatten)).AtRest := by
    rw [run_append]
    exact atRest_of_rounds config (alive_run config halive hfits) hrounds hlen
  refine ⟨hrest, fun new hnew => ?_⟩
  have hwritten : written (ops ++ rounds.flatten) = written ops := by
    rw [written_append, written_of_own hown, List.append_nil]
  refine inForce_of_atRest hload (always_append.mpr ⟨h, always_reported_of_own hown⟩) hrest ?_
  rw [hwritten]
  exact hnew

theorem edits_settle_title : titleEdited.AtRest ∧ titleEdited.config.value = configAfter := by
  rw [titleEdited]
  refine (edits_settle titleCrates "dunlin.toml" _ _ load_before titleEdit ?_ ?_ titleRounds
    isRound_titleRounds ?_).imp_right fun h => h configAfter load_after
  · exact ⟨⟨_, List.mem_singleton_self _, rfl⟩, trivial⟩
  · intro file hmem
    rw [List.mem_singleton.mp hmem, load_after]
    exact nofun
  · rw [titleRounds, List.length_replicate]
    exact left_titleEdit.le

end Dunlin

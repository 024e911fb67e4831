import Dunlin.Lib.Prog

/-!
# Programs whose statements have names

The statements of a `Prog` are functions on the state, so one cannot ask a program which statement
it is about to execute. A `Script` has the same shape, but its statements are commands of a type
`κ`. It stands for the program in which every command acts (`toProg`), and it can be executed a
piece at a time (`advance`), which is what an interleaving of several scripts is made of.

## Protocols

A `Protocol` keeps a note for each running script: what the script has done so far, as far as
anybody cares. It says how a command changes the note, and which commands may come at a note.
`Script.Obeys` is the weakest precondition of keeping to a protocol, by recursion on the script, and
`Obeys.advance` says that a script keeps to it piece by piece, whatever others do to the state in
between.

## Phases

A script that is to go through phases, each of which says what may come next, `Runs`. Where a
protocol has notes that are computed, a phase is a relation, so what has been read from the state is
part of it.

## Main results

* `Obeys.advance` — a script that obeys keeps to its protocol piece by piece
* `Runs.move_piece` — a script goes through its phases piece by piece
* `exists_moves` — a script that nothing disturbs is its program
-/

namespace Lib

variable {κ σ α β γ : Type}

/-- A program over a state of type `σ` whose statements are commands of type `κ`. -/
inductive Script (κ σ α : Type) : Type
  | done (a : α)
  | fail
  /-- A command, the rest of the script (which sees the state before it), and what to do if it
  fails. -/
  | stmt (command : κ) (next : σ → Script κ σ α) (onErr : Script κ σ α)
  /-- Work on memory, which never fails. -/
  | mem (effect : σ → σ) (next : σ → Script κ σ α)

namespace Script

/-- Sequencing. -/
def bind : Script κ σ α → (α → Script κ σ β) → Script κ σ β
  | .done a, f => f a
  | .fail, _ => .fail
  | .stmt command next onErr, f => .stmt command (fun s => (next s).bind f) (onErr.bind f)
  | .mem effect next, f => .mem effect fun s => (next s).bind f

instance : Monad (Script κ σ) where
  pure := .done
  bind := .bind

@[simp] theorem pure_eq (a : α) : (pure a : Script κ σ α) = .done a := rfl

@[simp] theorem bind_eq (p : Script κ σ α) (f : α → Script κ σ β) : p >>= f = p.bind f := rfl

@[simp] theorem done_bind (a : α) (f : α → Script κ σ β) : (done a).bind f = f a := rfl

/-- Catch an error. -/
def attempt : Script κ σ α → Script κ σ (Option α)
  | .done a => .done (some a)
  | .fail => .done none
  | .stmt command next onErr => .stmt command (fun s => (next s).attempt) onErr.attempt
  | .mem effect next => .mem effect fun s => (next s).attempt

/-- A command. -/
def exec (command : κ) : Script κ σ Unit := .stmt command (fun _ => .done ()) .fail

/-- A command that returns something read before it acts. -/
def execReturning (command : κ) (f : σ → α) : Script κ σ α :=
  .stmt command (fun s => .done (f s)) .fail

/-- Read memory. -/
def get (f : σ → α) : Script κ σ α := .mem id fun s => .done (f s)

/-- Change memory. -/
def modify (effect : σ → σ) : Script κ σ Unit := .mem effect fun _ => .done ()

/-! ### The program of a script -/

variable (act : κ → σ → σ)

/-- The program in which every command acts. -/
def toProg : Script κ σ α → Prog σ α
  | .done a => .done a
  | .fail => .fail
  | .stmt command next onErr => .stmt (act command) (fun s => (next s).toProg) onErr.toProg
  | .mem effect next => .mem effect fun s => (next s).toProg

@[simp] theorem toProg_done (a : α) : (done a : Script κ σ α).toProg act = .done a := rfl

@[simp] theorem toProg_fail : (fail : Script κ σ α).toProg act = .fail := rfl

@[simp] theorem toProg_exec (command : κ) :
    (exec command : Script κ σ Unit).toProg act = .exec (act command) := rfl

@[simp] theorem toProg_execReturning (command : κ) (f : σ → α) :
    (execReturning command f).toProg act = .execReturning (act command) f := rfl

@[simp] theorem toProg_get (f : σ → α) : (get f : Script κ σ α).toProg act = .get f := rfl

@[simp] theorem toProg_modify (effect : σ → σ) :
    (modify effect : Script κ σ Unit).toProg act = .modify effect := rfl

@[simp] theorem toProg_bind (p : Script κ σ α) (f : α → Script κ σ β) :
    (p.bind f).toProg act = (p.toProg act).bind fun a => (f a).toProg act := by
  induction p with
  | done a => rfl
  | fail => rfl
  | stmt command next onErr ihn ihe =>
    simp only [bind, toProg, Prog.bind, ihe]
    congr 1
    funext s
    exact ihn s
  | mem effect next ih =>
    simp only [bind, toProg, Prog.bind]
    congr 1
    funext s
    exact ih s

@[simp] theorem toProg_attempt (p : Script κ σ α) :
    p.attempt.toProg act = (p.toProg act).attempt := by
  induction p with
  | done a => rfl
  | fail => rfl
  | stmt command next onErr ihn ihe =>
    simp only [attempt, toProg, Prog.attempt, ihe]
    congr 1
    funext s
    exact ihn s
  | mem effect next ih =>
    simp only [attempt, toProg, Prog.attempt]
    congr 1
    funext s
    exact ih s

theorem toProg_foldlM (f : β → α → Script κ σ β) (as : List α) (b : β) :
    (as.foldlM f b).toProg act = as.foldlM (fun b a => (f b a).toProg act) b := by
  induction as generalizing b with
  | nil => rfl
  | cons a as ih =>
    rw [List.foldlM_cons, List.foldlM_cons, bind_eq, toProg_bind]
    exact congrArg _ (funext ih)

/-! ### A piece at a time -/

/-- The command a script is about to execute. -/
def command? : Script κ σ α → Option κ
  | .stmt command _ _ => some command
  | _ => none

/-- Nothing is left to execute. -/
def isOver : Script κ σ α → Bool
  | .done _ => true
  | .fail => true
  | _ => false

/-- What a script has returned; `none` while it goes on, and where it gave up. -/
def result? : Script κ σ α → Option α
  | .done a => some a
  | _ => none

/-- Execute the next piece of a script, without a failure. -/
def advance : Script κ σ α → σ → Script κ σ α × σ
  | .stmt command next _, s => (next s, act command s)
  | .mem effect next, s => (next s, effect s)
  | p, s => (p, s)

end Script

/-! ### Protocols -/

/-- What is noted of a running script, and what may come next. -/
structure Protocol (κ σ γ : Type) where
  /-- The note after a command, which sees the state before it. -/
  after : γ → κ → σ → γ
  /-- The commands that may come at a note. -/
  allowed : γ → κ → Prop
  /-- The changes to memory that nobody needs to know of. -/
  silent : (σ → σ) → Prop

namespace Script

variable (pr : Protocol κ σ γ) {Q R : Option α → γ → Prop} {g : γ}

/-- From the note `g` the script keeps to the protocol and ends at a note with `Q`. -/
def Obeys : Script κ σ α → γ → (Option α → γ → Prop) → Prop
  | .done a, g, Q => Q (some a) g
  | .fail, g, Q => Q none g
  | .stmt command next _, g, Q =>
    pr.allowed g command ∧ ∀ s, (next s).Obeys (pr.after g command s) Q
  | .mem effect next, g, Q => pr.silent effect ∧ ∀ s, (next s).Obeys g Q

/-- The note after the next piece. -/
def noteAfter (g : γ) (p : Script κ σ α) (s : σ) : γ :=
  match p.command? with
  | some command => pr.after g command s
  | none => g

variable {pr}

/-- Consequence. -/
theorem Obeys.mono {p : Script κ σ α} (h : p.Obeys pr g Q) (hQ : ∀ r g', Q r g' → R r g') :
    p.Obeys pr g R := by
  induction p generalizing g with
  | done a => exact hQ _ _ h
  | fail => exact hQ _ _ h
  | stmt command next onErr ihn _ => exact ⟨h.1, fun s => ihn s (h.2 s)⟩
  | mem effect next ih => exact ⟨h.1, fun s => ih s (h.2 s)⟩

/-- Sequencing. -/
theorem Obeys.bind {p : Script κ σ α} {f : α → Script κ σ β} {R : Option β → γ → Prop}
    (h : p.Obeys pr g fun r g' => match r with
      | some a => (f a).Obeys pr g' R
      | none => R none g') : (p.bind f).Obeys pr g R := by
  induction p generalizing g with
  | done a => exact h
  | fail => exact h
  | stmt command next onErr ihn _ => exact ⟨h.1, fun s => ihn s (h.2 s)⟩
  | mem effect next ih => exact ⟨h.1, fun s => ih s (h.2 s)⟩

theorem Obeys.attempt {p : Script κ σ α} {R : Option (Option α) → γ → Prop}
    (h : p.Obeys pr g fun r => R (some r)) : p.attempt.Obeys pr g R := by
  induction p generalizing g with
  | done a => exact h
  | fail => exact h
  | stmt command next onErr ihn _ => exact ⟨h.1, fun s => ihn s (h.2 s)⟩
  | mem effect next ih => exact ⟨h.1, fun s => ih s (h.2 s)⟩

/-- A loop whose passes start and end at one note. -/
theorem Obeys.foldlM {f : β → α → Script κ σ β} {E : γ → Prop}
    (step : ∀ b a, (f b a).Obeys pr g fun r g' => match r with
      | some _ => g' = g
      | none => E g') (as : List α) (b : β) :
    (as.foldlM f b).Obeys pr g fun r g' => match r with
      | some _ => g' = g
      | none => E g' := by
  induction as generalizing b with
  | nil => rfl
  | cons a as ih =>
    rw [List.foldlM_cons, bind_eq]
    refine Obeys.bind ((step b a).mono fun r g' hr => ?_)
    cases r with
    | some b' =>
      obtain rfl : g' = g := hr
      exact ih b'
    | none => exact hr

/-- **A script that obeys keeps to the protocol piece by piece.** -/
theorem Obeys.advance {act : κ → σ → σ} {p : Script κ σ α} (h : p.Obeys pr g Q) (s : σ) :
    (p.advance act s).1.Obeys pr (p.noteAfter pr g s) Q := by
  cases p with
  | done a => exact h
  | fail => exact h
  | stmt command next onErr => exact h.2 s
  | mem effect next => exact h.2 s

/-- The command an obedient script is about to execute is an allowed one. -/
theorem Obeys.allowed {p : Script κ σ α} {command : κ} (h : p.Obeys pr g Q)
    (hc : p.command? = some command) : pr.allowed g command := by
  cases p with
  | done a => exact absurd hc (by simp [command?])
  | fail => exact absurd hc (by simp [command?])
  | stmt command' next onErr =>
    obtain rfl : command' = command := Option.some.inj hc
    exact h.1
  | mem effect next => exact absurd hc (by simp [command?])

/-- What an obedient script does to the state when it executes no command. -/
theorem Obeys.silent {act : κ → σ → σ} {p : Script κ σ α} (h : p.Obeys pr g Q)
    (hc : p.command? = none) (s : σ) :
    (p.advance act s).2 = s ∨ ∃ effect, pr.silent effect ∧ (p.advance act s).2 = effect s := by
  cases p with
  | done a => exact .inl rfl
  | fail => exact .inl rfl
  | stmt command next onErr => exact absurd hc (by simp [command?])
  | mem effect next => exact .inr ⟨effect, h.1, rfl⟩

/-- Executing a command is what it does. -/
theorem snd_advance {act : κ → σ → σ} {p : Script κ σ α} {command : κ}
    (hc : p.command? = some command) (s : σ) : (p.advance act s).2 = act command s := by
  cases p with
  | done a => exact absurd hc (by simp [command?])
  | fail => exact absurd hc (by simp [command?])
  | stmt command' next onErr =>
    obtain rfl : command' = command := Option.some.inj hc
    rfl
  | mem effect next => exact absurd hc (by simp [command?])

/-- Where an obedient script is over, its note has what is asked of the last one. -/
theorem Obeys.over {p : Script κ σ α} (h : p.Obeys pr g Q) (hp : p.isOver) : ∃ r, Q r g := by
  cases p with
  | done a => exact ⟨_, h⟩
  | fail => exact ⟨_, h⟩
  | stmt command next onErr => exact absurd hp (by simp [isOver])
  | mem effect next => exact absurd hp (by simp [isOver])

end Script

/-! ### Commands that fail

The same for scripts whose commands may fail. What a script does next is a piece, and a script goes
through phases: `goes g piece s g'` says that the piece, executed in the state `s`, leads from the
phase `g` to `g'`. -/

/-- What a script does next, and how it ends. -/
inductive Piece (κ σ : Type)
  | ok (command : κ)
  | failed (command : κ)
  | mem (effect : σ → σ)

/-- What a piece does to the state. -/
def Piece.effect (act : κ → σ → σ) : Piece κ σ → σ → σ
  | .ok command => act command
  | .failed _ => id
  | .mem effect => effect

/-- The piece is a command that failed. -/
def Piece.isFailed : Piece κ σ → Bool
  | .failed _ => true
  | _ => false

namespace Script

/-- Execute the next piece of a script; a command fails if `fault` says so. -/
def move (act : κ → σ → σ) (fault : Bool) : Script κ σ α → σ → Script κ σ α × σ
  | .stmt command next onErr, s => if fault then (onErr, s) else (next s, act command s)
  | .mem effect next, s => (next s, effect s)
  | p, s => (p, s)

/-- A script that is over moves no more. -/
theorem move_of_isOver {act : κ → σ → σ} {p : Script κ σ α} (hp : p.isOver = true) (fault : Bool)
    (s : σ) : p.move act fault s = (p, s) := by
  cases p with
  | done a => rfl
  | fail => rfl
  | stmt command next onErr => exact absurd hp (by simp [isOver])
  | mem effect next => exact absurd hp (by simp [isOver])

/-- A script and its state after a number of moves. -/
def moves (act : κ → σ → σ) (faults : List Bool) (p : Script κ σ α × σ) : Script κ σ α × σ :=
  faults.foldl (fun p fault => p.1.move act fault p.2) p

@[simp] theorem moves_cons (act : κ → σ → σ) (fault : Bool) (faults : List Bool)
    (p : Script κ σ α × σ) :
    moves act (fault :: faults) p = moves act faults (p.1.move act fault p.2) := rfl

theorem moves_of_isOver {act : κ → σ → σ} {p : Script κ σ α} (hp : p.isOver = true) (s : σ)
    (faults : List Bool) : moves act faults (p, s) = (p, s) := by
  induction faults with
  | nil => rfl
  | cons fault faults ih => rw [moves_cons, move_of_isOver hp, ih]

/-- A script that is over, with its result. -/
def ended : Option α → Script κ σ α
  | some a => .done a
  | none => .fail

theorem isOver_ended (r : Option α) : (ended r : Script κ σ α).isOver = true := by
  cases r <;> rfl

/-- **A script that nothing disturbs is its program.** -/
theorem exists_moves (act : κ → σ → σ) (p : Script κ σ α) (s : σ) :
    ∃ n, moves act (List.replicate n false) (p, s) =
      (ended ((p.toProg act).run [] s).result, ((p.toProg act).run [] s).state) := by
  induction p generalizing s with
  | done a => exact ⟨0, rfl⟩
  | fail => exact ⟨0, rfl⟩
  | stmt command next onErr ihn ihe =>
    obtain ⟨n, hn⟩ := ihn s (act command s)
    exact ⟨n + 1, hn⟩
  | mem effect next ih =>
    obtain ⟨n, hn⟩ := ih s (effect s)
    exact ⟨n + 1, hn⟩

variable (goes : γ → Piece κ σ → σ → γ → Prop) {Q R : Option α → γ → Prop} {g : γ}

/-- From the phase `g` the script goes through the phases, whatever fails and whatever happens to
the state in between, and ends in one with `Q`. -/
def Runs : Script κ σ α → γ → (Option α → γ → Prop) → Prop
  | .done a, g, Q => Q (some a) g
  | .fail, g, Q => Q none g
  | .stmt command next onErr, g, Q =>
    (∀ s, ∃ g', goes g (.ok command) s g' ∧ (next s).Runs g' Q) ∧
      ∀ s, ∃ g', goes g (.failed command) s g' ∧ onErr.Runs g' Q
  | .mem effect next, g, Q => ∀ s, ∃ g', goes g (.mem effect) s g' ∧ (next s).Runs g' Q

variable {goes}

/-- Consequence. -/
theorem Runs.mono {p : Script κ σ α} (h : p.Runs goes g Q) (hQ : ∀ r g', Q r g' → R r g') :
    p.Runs goes g R := by
  induction p generalizing g with
  | done a => exact hQ _ _ h
  | fail => exact hQ _ _ h
  | stmt command next onErr ihn ihe =>
    constructor
    · intro s
      obtain ⟨g', hgoes, hnext⟩ := h.1 s
      exact ⟨g', hgoes, ihn s hnext⟩
    · intro s
      obtain ⟨g', hgoes, herr⟩ := h.2 s
      exact ⟨g', hgoes, ihe herr⟩
  | mem effect next ih =>
    intro s
    obtain ⟨g', hgoes, hnext⟩ := h s
    exact ⟨g', hgoes, ih s hnext⟩

/-- Sequencing. -/
theorem Runs.bind {p : Script κ σ α} {f : α → Script κ σ β} {R : Option β → γ → Prop}
    (h : p.Runs goes g fun r g' => match r with
      | some a => (f a).Runs goes g' R
      | none => R none g') : (p.bind f).Runs goes g R := by
  induction p generalizing g with
  | done a => exact h
  | fail => exact h
  | stmt command next onErr ihn ihe =>
    constructor
    · intro s
      obtain ⟨g', hgoes, hnext⟩ := h.1 s
      exact ⟨g', hgoes, ihn s hnext⟩
    · intro s
      obtain ⟨g', hgoes, herr⟩ := h.2 s
      exact ⟨g', hgoes, ihe herr⟩
  | mem effect next ih =>
    intro s
    obtain ⟨g', hgoes, hnext⟩ := h s
    exact ⟨g', hgoes, ih s hnext⟩

theorem Runs.attempt {p : Script κ σ α} {R : Option (Option α) → γ → Prop}
    (h : p.Runs goes g fun r => R (some r)) : p.attempt.Runs goes g R := by
  induction p generalizing g with
  | done a => exact h
  | fail => exact h
  | stmt command next onErr ihn ihe =>
    constructor
    · intro s
      obtain ⟨g', hgoes, hnext⟩ := h.1 s
      exact ⟨g', hgoes, ihn s hnext⟩
    · intro s
      obtain ⟨g', hgoes, herr⟩ := h.2 s
      exact ⟨g', hgoes, ihe herr⟩
  | mem effect next ih =>
    intro s
    obtain ⟨g', hgoes, hnext⟩ := h s
    exact ⟨g', hgoes, ih s hnext⟩

/-- A loop, with the phase `I as` before the elements `as` and `E` where it gives up. -/
theorem Runs.foldlM {f : β → α → Script κ σ β} {I : List α → γ} {E : γ → Prop}
    (step : ∀ b a as, (f b a).Runs goes (I (a :: as)) fun r g' => match r with
      | some _ => g' = I as
      | none => E g') (as : List α) (b : β) :
    (as.foldlM f b).Runs goes (I as) fun r g' => match r with
      | some _ => g' = I []
      | none => E g' := by
  induction as generalizing b with
  | nil => rfl
  | cons a as ih =>
    rw [List.foldlM_cons, bind_eq]
    refine Runs.bind ((step b a as).mono fun r g' hr => ?_)
    cases r with
    | some b' =>
      obtain rfl : g' = I as := hr
      exact ih b'
    | none => exact hr

/-- The piece a move executes. -/
def piece? (fault : Bool) : Script κ σ α → Option (Piece κ σ)
  | .stmt command _ _ => some (if fault then .failed command else .ok command)
  | .mem effect _ => some (.mem effect)
  | _ => none

theorem move_of_piece_none {act : κ → σ → σ} {p : Script κ σ α} {fault : Bool}
    (hpiece : p.piece? fault = none) (s : σ) : p.move act fault s = (p, s) := by
  cases p with
  | done a => rfl
  | fail => rfl
  | stmt command next onErr => exact absurd hpiece nofun
  | mem effect next => exact absurd hpiece nofun

/-- **A script goes through its phases piece by piece.** -/
theorem Runs.move_piece (act : κ → σ → σ) {p : Script κ σ α} (h : p.Runs goes g Q) {fault : Bool}
    {piece : Piece κ σ} (hpiece : p.piece? fault = some piece) (s : σ) :
    ∃ g', goes g piece s g' ∧ (p.move act fault s).1.Runs goes g' Q ∧
      (p.move act fault s).2 = piece.effect act s := by
  cases p with
  | done a => exact absurd hpiece nofun
  | fail => exact absurd hpiece nofun
  | stmt command next onErr =>
    cases fault with
    | false =>
      obtain rfl := Option.some.inj hpiece
      obtain ⟨g', hgoes, hnext⟩ := h.1 s
      exact ⟨g', hgoes, hnext, rfl⟩
    | true =>
      obtain rfl := Option.some.inj hpiece
      obtain ⟨g', hgoes, herr⟩ := h.2 s
      exact ⟨g', hgoes, herr, rfl⟩
  | mem effect next =>
    obtain rfl := Option.some.inj hpiece
    obtain ⟨g', hgoes, hnext⟩ := h s
    exact ⟨g', hgoes, hnext, rfl⟩

/-- A script that is not over has a next piece, and a failure is a statement that was to fail. -/
theorem exists_piece {p : Script κ σ α} (hp : p.isOver = false) (fault : Bool) :
    ∃ piece, p.piece? fault = some piece ∧ (piece.isFailed = true → fault = true) := by
  cases p with
  | done a => exact absurd hp (by simp [isOver])
  | fail => exact absurd hp (by simp [isOver])
  | stmt command next onErr =>
    cases fault with
    | false => exact ⟨.ok command, rfl, nofun⟩
    | true => exact ⟨.failed command, rfl, fun _ => rfl⟩
  | mem effect next => exact ⟨.mem effect, rfl, nofun⟩

theorem Runs.move (act : κ → σ → σ) {p : Script κ σ α} (h : p.Runs goes g Q)
    (hp : p.isOver = false) (fault : Bool) (s : σ) :
    ∃ piece g', goes g piece s g' ∧ (p.move act fault s).1.Runs goes g' Q ∧
      (p.move act fault s).2 = piece.effect act s ∧
      (piece.isFailed = true → fault = true) := by
  obtain ⟨piece, hpiece, hfailed⟩ := exists_piece hp fault
  obtain ⟨g', hgoes, hruns, heffect⟩ := h.move_piece act hpiece s
  exact ⟨piece, g', hgoes, hruns, heffect, hfailed⟩

/-- The command of a piece that was executed. -/
theorem command?_of_piece_ok {p : Script κ σ α} {fault : Bool} {command : κ}
    (hpiece : p.piece? fault = some (.ok command)) :
    p.command? = some command ∧ fault = false := by
  cases p with
  | done a => exact absurd hpiece nofun
  | fail => exact absurd hpiece nofun
  | stmt command' next onErr =>
    cases fault with
    | false =>
      obtain rfl := Piece.ok.inj (Option.some.inj hpiece)
      exact ⟨rfl, rfl⟩
    | true => exact absurd hpiece nofun
  | mem effect next => exact absurd hpiece nofun

/-- A move that executes no statement, or one that fails, is at no command without a fault. -/
theorem piece?_false_of_command {p : Script κ σ α} {command : κ}
    (hc : p.command? = some command) : p.piece? false = some (.ok command) := by
  cases p with
  | done a => exact absurd hc nofun
  | fail => exact absurd hc nofun
  | stmt command' next onErr =>
    obtain rfl : command' = command := Option.some.inj hc
    rfl
  | mem effect next => exact absurd hc nofun

/-- Where a script is over, its phase has what is asked of the last one. -/
theorem Runs.over {p : Script κ σ α} (h : p.Runs goes g Q) (hp : p.isOver = true) :
    ∃ r, Q r g := by
  cases p with
  | done a => exact ⟨_, h⟩
  | fail => exact ⟨_, h⟩
  | stmt command next onErr => exact absurd hp (by simp [isOver])
  | mem effect next => exact absurd hp (by simp [isOver])

end Script

end Lib

import Mathlib.Data.Nat.Basic

/-!
# Followers of a watched value

A `Watched` holds the latest of the values that were sent, with the number of times one was. A
`Follower` keeps something built from a part of that value, its key, and rebuilds it when the key of
a new value differs from the one it was built from. It waits for a version it has not seen, takes
the value, rebuilds, and notes the key: four steps, and values may be sent between any two of them.
A value that is replaced before the follower has looked is never seen, which is the point: only the
latest matters.

`Sound` is what holds of a follower throughout. It is `Sound.built_eq` that uses it: a follower that
has nothing left to do has what it would build from the value there is.

## Main results

* `Sound.step`, `Sound.send` — what keeps a follower sound
* `Sound.built_eq` — an idle follower has what it would build
* `left_step` — a step of a follower that is not idle comes nearer to that
-/

namespace Lib

variable {α κ β : Type}

/-- The latest value, and how many were sent. -/
structure Watched (α : Type) where
  value : α
  version : ℕ

namespace Watched

def send (w : Watched α) (a : α) : Watched α := ⟨a, w.version + 1⟩

end Watched

/-- What a follower is doing. -/
inductive Following (α : Type)
  | waiting
  /-- A new version is there. -/
  | woken
  /-- It has taken the value. -/
  | holding (a : α)
  /-- It has rebuilt, and has yet to note the key. -/
  | rebuilt (a : α)

structure Follower (α κ β : Type) where
  /-- The last version it has seen. -/
  seen : ℕ
  phase : Following α
  /-- The key it has noted. -/
  current : κ
  built : β

namespace Follower

/-- A follower with what was built from a value. -/
def of (key : α → κ) (build : α → β) (w : Watched α) : Follower α κ β :=
  ⟨w.version, .waiting, key w.value, build w.value⟩

/-- One step. -/
def step [DecidableEq κ] (key : α → κ) (build : α → β) (w : Watched α) (f : Follower α κ β) :
    Follower α κ β :=
  match f.phase with
  | .waiting => if f.seen = w.version then f else { f with seen := w.version, phase := .woken }
  | .woken => { f with seen := w.version, phase := .holding w.value }
  | .holding a =>
    if key a = f.current then { f with phase := .waiting }
    else { f with built := build a, phase := .rebuilt a }
  | .rebuilt a => { f with current := key a, phase := .waiting }

variable {key : α → κ} {build : α → β} {w : Watched α} {f : Follower α κ β}

/-- What the follower has is built from a value with the key it has noted. -/
def Matches (key : α → κ) (build : α → β) (f : Follower α κ β) : Prop :=
  ∃ a, key a = f.current ∧ build a = f.built

/-- What a phase says, where the follower has seen the latest version. -/
def UpToDate (key : α → κ) (w : Watched α) (f : Follower α κ β) : Prop :=
  match f.phase with
  | .waiting => key w.value = f.current
  | .woken => True
  | .holding a => a = w.value
  | .rebuilt a => a = w.value

/-- What holds throughout. -/
structure Sound (key : α → κ) (build : α → β) (w : Watched α) (f : Follower α κ β) : Prop where
  le : f.seen ≤ w.version
  upToDate : f.seen = w.version → f.UpToDate key w
  built : (∃ a, f.phase = .rebuilt a ∧ build a = f.built) ∨
    (∀ a, f.phase ≠ .rebuilt a) ∧ f.Matches key build

theorem sound_of (key : α → κ) (build : α → β) (w : Watched α) :
    (of key build w).Sound key build w where
  le := le_refl _
  upToDate _ := rfl
  built := .inr ⟨nofun, w.value, rfl, rfl⟩

/-- A new value puts a follower behind. -/
theorem Sound.send (h : f.Sound key build w) (a : α) : f.Sound key build (w.send a) where
  le := Nat.le_succ_of_le h.le
  upToDate heq := absurd h.le (Nat.not_le_of_lt (heq ▸ Nat.lt_succ_self _))
  built := h.built

theorem Sound.matches (h : f.Sound key build w) (hphase : ∀ a, f.phase ≠ .rebuilt a) :
    f.Matches key build := by
  rcases h.built with ⟨a, ha, -⟩ | ⟨-, hmatches⟩
  · exact absurd ha (hphase a)
  · exact hmatches

/-- **A step keeps it.** -/
theorem Sound.step [DecidableEq κ] (h : f.Sound key build w) :
    (f.step key build w).Sound key build w := by
  rw [Follower.step]
  cases hphase : f.phase with
  | waiting =>
    dsimp only
    split
    · exact h
    · exact ⟨le_refl _, fun _ => trivial, .inr ⟨nofun, h.matches (hphase ▸ nofun)⟩⟩
  | woken => exact ⟨le_refl _, fun _ => rfl, .inr ⟨nofun, h.matches (hphase ▸ nofun)⟩⟩
  | holding a =>
    have hvalue : f.seen = w.version → a = w.value := by
      intro heq
      have hup := h.upToDate heq
      rwa [UpToDate, hphase] at hup
    dsimp only
    split
    · rename_i hkey
      refine ⟨h.le, fun heq => ?_, .inr ⟨nofun, h.matches (hphase ▸ nofun)⟩⟩
      show key w.value = f.current
      rw [← hvalue heq, hkey]
    · exact ⟨h.le, hvalue, .inl ⟨a, rfl, rfl⟩⟩
  | rebuilt a =>
    have hvalue : f.seen = w.version → a = w.value := by
      intro heq
      have hup := h.upToDate heq
      rwa [UpToDate, hphase] at hup
    have ha : build a = f.built := by
      rcases h.built with ⟨a', ha', hb⟩ | ⟨hne, -⟩
      · obtain rfl := Following.rebuilt.inj (hphase.symm.trans ha')
        exact hb
      · exact absurd hphase (hne a)
    refine ⟨h.le, fun heq => ?_, .inr ⟨nofun, a, rfl, ha⟩⟩
    show key w.value = key a
    rw [← hvalue heq]

/-- It has nothing left to do. -/
def Idle (w : Watched α) (f : Follower α κ β) : Prop := f.phase = .waiting ∧ f.seen = w.version

/-- **An idle follower has what it would build from the value there is**, if values with one key
give the same. -/
theorem Sound.built_eq (h : f.Sound key build w) (hidle : f.Idle w)
    (hbuild : ∀ a b, key a = key b → build a = build b) : f.built = build w.value := by
  obtain ⟨hphase, hseen⟩ := hidle
  have hkey : key w.value = f.current := by
    have hup := h.upToDate hseen
    rwa [UpToDate, hphase] at hup
  obtain ⟨a, ha, hb⟩ := h.matches (hphase ▸ nofun)
  rw [← hb]
  exact hbuild a w.value (ha.trans hkey.symm)

/-- And it does nothing. -/
theorem Idle.step [DecidableEq κ] (h : f.Idle w) : f.step key build w = f := by
  rw [Follower.step, h.1]
  exact if_pos h.2

/-! ### How much is left to do -/

/-- The steps to the end of a round. -/
def Following.left : Following α → ℕ
  | .waiting => 0
  | .woken => 3
  | .holding _ => 2
  | .rebuilt _ => 1

/-- The steps to the end, and another round where a version has not been seen. -/
def left (w : Watched α) (f : Follower α κ β) : ℕ :=
  Following.left f.phase + if f.seen = w.version then 0 else 4

theorem left_send_le (w : Watched α) (a : α) (f : Follower α κ β) :
    f.left (w.send a) ≤ f.left w + 4 := by
  rw [left, left]
  split <;> split <;> omega

theorem left_step [DecidableEq κ] (h : ¬f.Idle w) : (f.step key build w).left w < f.left w := by
  rw [step, left, left]
  cases hphase : f.phase with
  | waiting =>
    have hseen : f.seen ≠ w.version := fun heq => h ⟨hphase, heq⟩
    dsimp only
    rw [if_neg hseen, if_neg hseen, if_pos rfl]
    show 3 + 0 < 0 + 4
    decide
  | woken =>
    dsimp only
    rw [if_pos rfl]
    exact Nat.add_lt_add_of_lt_of_le (show 2 < 3 by decide) (Nat.zero_le _)
  | holding a =>
    dsimp only
    split
    · exact Nat.add_lt_add_right (show 0 < 2 by decide) _
    · exact Nat.add_lt_add_right (show 1 < 2 by decide) _
  | rebuilt a => exact Nat.add_lt_add_right (show 0 < 1 by decide) _

end Follower

end Lib

import Mathlib.Algebra.GroupWithZero.Nat
import Mathlib.Data.List.Basic

/-!
# Programs of database statements

A request handler talks to its database one statement at a time. A statement either takes effect
or fails without effect, and what the handler does next may depend on which. Between statements
the handler works on memory of its own, which cannot fail.

`Prog σ α` is the syntax of such handlers over a state of type `σ`. A statement is given by its
effect on the state and by the rest of the program, which may read the state *before* the effect:
that is how a query returns a value and an insert returns its new id. The error continuation says
what happens when the statement fails, so `?` is `fail` and a swallowed error is anything else.

## Faults

`run` executes a program against a *fault plan*, a list of booleans consumed by the statements in
order: `true` makes the statement fail. A plan that has run out lets everything succeed, so `[]`
is the fault-free run and `failAt n` fails exactly the `n`-th statement.

## Reasoning

`wp` is the weakest precondition over *every* fault plan. It is computed by recursion on the
program, so unfolding it on a concrete program lists one obligation for each statement that can
fail. `wp_run` takes an obligation back to runs, and `wp_foldlM` is the loop rule.

`wpOk` is the weakest precondition of the fault-free run, which has one obligation only, and `wpAt`
that of the run in which the `k`-th statement fails and no other. A program over a part of a state
is a program over the whole (`lift`).

## Main results

* `wp_run`, `wpOk_iff_run`, `wpAt_iff_run` — each of the three is about runs
* `wp_bind`, `wp_attempt`, `wp_lift`, `wp_foldlM` — how programs are put together
* `wpAt_of_wp` — what holds whatever fails, holds when one statement does
-/

namespace Lib

variable {σ α β : Type}

/-- A program over a state of type `σ` that returns an `α` or fails. -/
inductive Prog (σ α : Type) : Type
  /-- Return a value. -/
  | done (a : α)
  /-- Return an error. -/
  | fail
  /-- One database statement: its effect, the rest of the program (which sees the state before
  the effect), and what to do if it fails. -/
  | stmt (effect : σ → σ) (next : σ → Prog σ α) (onErr : Prog σ α)
  /-- Work on memory, which never fails. -/
  | mem (effect : σ → σ) (next : σ → Prog σ α)

/-- What a run leaves behind: the result (`none` for an error), the state, and the part of the
fault plan that was not used. -/
structure Outcome (σ α : Type) where
  result : Option α
  state : σ
  faults : List Bool

namespace Prog

/-- Sequencing. -/
def bind : Prog σ α → (α → Prog σ β) → Prog σ β
  | .done a, f => f a
  | .fail, _ => .fail
  | .stmt effect next onErr, f => .stmt effect (fun s => (next s).bind f) (onErr.bind f)
  | .mem effect next, f => .mem effect fun s => (next s).bind f

instance : Monad (Prog σ) where
  pure := .done
  bind := .bind

/-- Catch an error: the program below never fails. -/
def attempt : Prog σ α → Prog σ (Option α)
  | .done a => .done (some a)
  | .fail => .done none
  | .stmt effect next onErr => .stmt effect (fun s => (next s).attempt) onErr.attempt
  | .mem effect next => .mem effect fun s => (next s).attempt

/-! ### Single statements -/

/-- A query: reads the state, changes nothing. -/
def query (f : σ → α) : Prog σ α := .stmt id (fun s => .done (f s)) .fail

/-- A statement that changes the state. -/
def exec (effect : σ → σ) : Prog σ Unit := .stmt effect (fun _ => .done ()) .fail

/-- A statement that changes the state and returns something read before the change. -/
def execReturning (effect : σ → σ) (f : σ → α) : Prog σ α :=
  .stmt effect (fun s => .done (f s)) .fail

/-- Read memory. -/
def get (f : σ → α) : Prog σ α := .mem id fun s => .done (f s)

/-- Change memory. -/
def modify (effect : σ → σ) : Prog σ Unit := .mem effect fun _ => .done ()

/-! ### Running -/

/-- Run a program against a fault plan. -/
def run : Prog σ α → List Bool → σ → Outcome σ α
  | .done a, faults, s => ⟨some a, s, faults⟩
  | .fail, faults, s => ⟨none, s, faults⟩
  | .stmt effect next onErr, faults, s =>
    if faults.head? = some true then onErr.run faults.tail s
    else (next s).run faults.tail (effect s)
  | .mem effect next, faults, s => (next s).run faults (effect s)

/-- The plan that fails the `n`-th statement and no other. -/
def failAt (n : ℕ) : List Bool := List.replicate n false ++ [true]

@[simp] theorem pure_eq (a : α) : (pure a : Prog σ α) = .done a := rfl

@[simp] theorem bind_eq (p : Prog σ α) (f : α → Prog σ β) : p >>= f = p.bind f := rfl

@[simp] theorem run_done (a : α) (faults : List Bool) (s : σ) :
    (Prog.done a).run faults s = ⟨some a, s, faults⟩ := rfl

@[simp] theorem run_fail (faults : List Bool) (s : σ) :
    (Prog.fail : Prog σ α).run faults s = ⟨none, s, faults⟩ := rfl

theorem bind_assoc {γ : Type} (p : Prog σ α) (f : α → Prog σ β) (g : β → Prog σ γ) :
    (p.bind f).bind g = p.bind fun a => (f a).bind g := by
  induction p with
  | done a => rfl
  | fail => rfl
  | stmt effect next onErr ihn ihe =>
    simp only [bind]
    congr
    · funext s
      exact ihn s
  | mem effect next ih =>
    simp only [bind]
    congr
    funext s
    exact ih s

/-! ### Weakest preconditions -/

/-- `p.wp Q s`: from `s`, whichever statements fail, `p` ends in a result and a state with
`Q`. -/
def wp : Prog σ α → (Option α → σ → Prop) → σ → Prop
  | .done a, Q, s => Q (some a) s
  | .fail, Q, s => Q none s
  | .stmt effect next onErr, Q, s => (next s).wp Q (effect s) ∧ onErr.wp Q s
  | .mem effect next, Q, s => (next s).wp Q (effect s)

/-- The postcondition a first program has to meet for a second one to end in `Q`. -/
def after (f : α → Prog σ β) (Q : Option β → σ → Prop) : Option α → σ → Prop
  | some a, s => (f a).wp Q s
  | none, s => Q none s

variable {Q R : Option α → σ → Prop} {s : σ}

@[simp] theorem wp_done (a : α) : (Prog.done a).wp Q s ↔ Q (some a) s := Iff.rfl

@[simp] theorem wp_fail : (Prog.fail : Prog σ α).wp Q s ↔ Q none s := Iff.rfl

@[simp] theorem wp_stmt (effect : σ → σ) (next : σ → Prog σ α) (onErr : Prog σ α) :
    (Prog.stmt effect next onErr).wp Q s ↔ (next s).wp Q (effect s) ∧ onErr.wp Q s := Iff.rfl

@[simp] theorem wp_mem (effect : σ → σ) (next : σ → Prog σ α) :
    (Prog.mem effect next).wp Q s ↔ (next s).wp Q (effect s) := Iff.rfl

@[simp] theorem wp_query (f : σ → α) :
    (query f).wp Q s ↔ Q (some (f s)) s ∧ Q none s := Iff.rfl

@[simp] theorem wp_exec {Q : Option Unit → σ → Prop} (effect : σ → σ) :
    (exec effect).wp Q s ↔ Q (some ()) (effect s) ∧ Q none s := Iff.rfl

@[simp] theorem wp_execReturning (effect : σ → σ) (f : σ → α) :
    (execReturning effect f).wp Q s ↔ Q (some (f s)) (effect s) ∧ Q none s := Iff.rfl

@[simp] theorem wp_get (f : σ → α) : (get f).wp Q s ↔ Q (some (f s)) s := Iff.rfl

@[simp] theorem wp_modify {Q : Option Unit → σ → Prop} (effect : σ → σ) :
    (modify effect).wp Q s ↔ Q (some ()) (effect s) := Iff.rfl

@[simp] theorem after_some (f : α → Prog σ β) (Q : Option β → σ → Prop) (a : α) (s : σ) :
    after f Q (some a) s ↔ (f a).wp Q s := Iff.rfl

@[simp] theorem after_none (f : α → Prog σ β) (Q : Option β → σ → Prop) (s : σ) :
    after f Q none s ↔ Q none s := Iff.rfl

@[simp] theorem wp_bind (p : Prog σ α) (f : α → Prog σ β) {Q : Option β → σ → Prop} {s : σ} :
    (p.bind f).wp Q s ↔ p.wp (after f Q) s := by
  induction p generalizing s with
  | done a => rfl
  | fail => rfl
  | stmt effect next onErr ihn ihe => exact and_congr (ihn _) ihe
  | mem effect next ih => exact ih _

@[simp] theorem wp_attempt (p : Prog σ α) {Q : Option (Option α) → σ → Prop} {s : σ} :
    p.attempt.wp Q s ↔ p.wp (fun r => Q (some r)) s := by
  induction p generalizing s with
  | done a => rfl
  | fail => rfl
  | stmt effect next onErr ihn ihe => exact and_congr (ihn _) ihe
  | mem effect next ih => exact ih _

theorem wp_true (p : Prog σ α) (s : σ) : p.wp (fun _ _ => True) s := by
  induction p generalizing s with
  | done a => trivial
  | fail => trivial
  | stmt effect next onErr ihn ihe => exact ⟨ihn _ _, ihe _⟩
  | mem effect next ih => exact ih _ _

/-- Consequence. -/
theorem wp_mono {p : Prog σ α} (h : p.wp Q s) (hQ : ∀ r s', Q r s' → R r s') : p.wp R s := by
  induction p generalizing s with
  | done a => exact hQ _ _ h
  | fail => exact hQ _ _ h
  | stmt effect next onErr ihn ihe => exact ⟨ihn _ h.1, ihe h.2⟩
  | mem effect next ih => exact ih _ h

/-- Conjunction. -/
theorem wp_and {p : Prog σ α} (hQ : p.wp Q s) (hR : p.wp R s) :
    p.wp (fun r s' => Q r s' ∧ R r s') s := by
  induction p generalizing s with
  | done a => exact ⟨hQ, hR⟩
  | fail => exact ⟨hQ, hR⟩
  | stmt effect next onErr ihn ihe => exact ⟨ihn _ hQ.1 hR.1, ihe hQ.2 hR.2⟩
  | mem effect next ih => exact ih _ hQ hR

/-- **Soundness of `wp`.** The postcondition holds after the run against any fault plan. -/
theorem wp_run {p : Prog σ α} (h : p.wp Q s) (faults : List Bool) :
    Q (p.run faults s).result (p.run faults s).state := by
  induction p generalizing s faults with
  | done a => exact h
  | fail => exact h
  | stmt effect next onErr ihn ihe =>
    simp only [run]
    split
    · exact ihe h.2 _
    · exact ihn _ h.1 _
  | mem effect next ih => exact ih _ h _

/-- The loop rule: an invariant `I` over the elements still to come and the accumulator, and a
condition `E` for the states in which an iteration gives up. -/
theorem wp_foldlM {f : β → α → Prog σ β} {I : List α → β → σ → Prop} {E : σ → Prop}
    (step : ∀ a as b s, I (a :: as) b s →
      (f b a).wp (fun r s' => match r with
        | some b' => I as b' s'
        | none => E s') s) :
    ∀ (as : List α) (b : β) (s : σ), I as b s →
      (as.foldlM f b).wp (fun r s' => match r with
        | some b' => I [] b' s'
        | none => E s') s
  | [], _, _, h => h
  | a :: as, b, s, h => by
    rw [List.foldlM_cons, bind_eq, wp_bind]
    refine wp_mono (step a as b s h) fun r s' hr => ?_
    cases r with
    | some b' => exact wp_foldlM step as b' s' hr
    | none => exact hr

/-! ### Parts of the state -/

/-- A part of a state, and the state with another value for it. -/
structure Part (τ σ : Type) where
  get : τ → σ
  set : τ → σ → τ
  get_set : ∀ t s, get (set t s) = s
  set_set : ∀ t s s', set (set t s) s' = set t s'
  set_get : ∀ t, set t (get t) = t

/-- A program over a part of the state. -/
def lift {τ : Type} (part : Part τ σ) : Prog σ α → Prog τ α
  | .done a => .done a
  | .fail => .fail
  | .stmt effect next onErr =>
    .stmt (fun t => part.set t (effect (part.get t))) (fun t => (next (part.get t)).lift part)
      (onErr.lift part)
  | .mem effect next =>
    .mem (fun t => part.set t (effect (part.get t))) fun t => (next (part.get t)).lift part

/-- The frame rule: what is no part of a program's state stays as it is. -/
theorem wp_lift {τ : Type} (part : Part τ σ) (p : Prog σ α) {Q : Option α → τ → Prop} {t : τ} :
    (p.lift part).wp Q t ↔ p.wp (fun r s => Q r (part.set t s)) (part.get t) := by
  induction p generalizing t with
  | done a => rw [lift, wp_done, wp_done, part.set_get]
  | fail => rw [lift, wp_fail, wp_fail, part.set_get]
  | stmt effect next onErr ihn ihe =>
    refine and_congr ((ihn _).trans ?_) ihe
    simp only [part.get_set, part.set_set]
  | mem effect next ih =>
    refine (ih _).trans ?_
    simp only [part.get_set, part.set_set]
    rfl

/-! ### Fault-free runs

The same calculus for the plan in which nothing fails. Only the fault-free branch is left of each
statement, so a straight-line program has a single obligation. -/

/-- `p.wpOk Q s`: from `s`, with every statement succeeding, `p` ends in a result and a state
with `Q`. -/
def wpOk : Prog σ α → (Option α → σ → Prop) → σ → Prop
  | .done a, Q, s => Q (some a) s
  | .fail, Q, s => Q none s
  | .stmt effect next _, Q, s => (next s).wpOk Q (effect s)
  | .mem effect next, Q, s => (next s).wpOk Q (effect s)

/-- `after` for fault-free runs. -/
def afterOk (f : α → Prog σ β) (Q : Option β → σ → Prop) : Option α → σ → Prop
  | some a, s => (f a).wpOk Q s
  | none, s => Q none s

@[simp] theorem wpOk_done (a : α) : (Prog.done a).wpOk Q s ↔ Q (some a) s := Iff.rfl

@[simp] theorem wpOk_fail : (Prog.fail : Prog σ α).wpOk Q s ↔ Q none s := Iff.rfl

@[simp] theorem wpOk_query (f : σ → α) : (query f).wpOk Q s ↔ Q (some (f s)) s := Iff.rfl

@[simp] theorem wpOk_exec {Q : Option Unit → σ → Prop} (effect : σ → σ) :
    (exec effect).wpOk Q s ↔ Q (some ()) (effect s) := Iff.rfl

@[simp] theorem wpOk_execReturning (effect : σ → σ) (f : σ → α) :
    (execReturning effect f).wpOk Q s ↔ Q (some (f s)) (effect s) := Iff.rfl

@[simp] theorem wpOk_get (f : σ → α) : (get f).wpOk Q s ↔ Q (some (f s)) s := Iff.rfl

@[simp] theorem wpOk_modify {Q : Option Unit → σ → Prop} (effect : σ → σ) :
    (modify effect).wpOk Q s ↔ Q (some ()) (effect s) := Iff.rfl

@[simp] theorem afterOk_some (f : α → Prog σ β) (Q : Option β → σ → Prop) (a : α) (s : σ) :
    afterOk f Q (some a) s ↔ (f a).wpOk Q s := Iff.rfl

@[simp] theorem afterOk_none (f : α → Prog σ β) (Q : Option β → σ → Prop) (s : σ) :
    afterOk f Q none s ↔ Q none s := Iff.rfl

@[simp] theorem wpOk_bind (p : Prog σ α) (f : α → Prog σ β) {Q : Option β → σ → Prop} {s : σ} :
    (p.bind f).wpOk Q s ↔ p.wpOk (afterOk f Q) s := by
  induction p generalizing s with
  | done a => rfl
  | fail => rfl
  | stmt effect next onErr ihn _ => exact ihn _
  | mem effect next ih => exact ih _

@[simp] theorem wpOk_attempt (p : Prog σ α) {Q : Option (Option α) → σ → Prop} {s : σ} :
    p.attempt.wpOk Q s ↔ p.wpOk (fun r => Q (some r)) s := by
  induction p generalizing s with
  | done a => rfl
  | fail => rfl
  | stmt effect next onErr ihn _ => exact ihn _
  | mem effect next ih => exact ih _

theorem wpOk_mono {p : Prog σ α} (h : p.wpOk Q s) (hQ : ∀ r s', Q r s' → R r s') :
    p.wpOk R s := by
  induction p generalizing s with
  | done a => exact hQ _ _ h
  | fail => exact hQ _ _ h
  | stmt effect next onErr ihn _ => exact ihn _ h
  | mem effect next ih => exact ih _ h

theorem wpOk_foldlM {f : β → α → Prog σ β} {I : List α → β → σ → Prop}
    (step : ∀ a as b s, I (a :: as) b s →
      (f b a).wpOk (fun r s' => ∃ b', r = some b' ∧ I as b' s') s) :
    ∀ (as : List α) (b : β) (s : σ), I as b s →
      (as.foldlM f b).wpOk (fun r s' => ∃ b', r = some b' ∧ I [] b' s') s
  | [], b, _, h => ⟨b, rfl, h⟩
  | a :: as, b, s, h => by
    rw [List.foldlM_cons, bind_eq, wpOk_bind]
    refine wpOk_mono (step a as b s h) fun r s' hr => ?_
    obtain ⟨b', rfl, hI⟩ := hr
    exact wpOk_foldlM step as b' s' hI

/-- `wpOk` is about the run against the empty plan. -/
theorem wpOk_iff_run {p : Prog σ α} : p.wpOk Q s ↔ Q (p.run [] s).result (p.run [] s).state := by
  induction p generalizing s with
  | done a => rfl
  | fail => rfl
  | stmt effect next onErr ihn _ => exact ihn _
  | mem effect next ih => exact ih _

/-! ### Runs with one failure

The calculus for the plan that fails the `n`-th statement, counted from zero. A program that runs
fewer statements than that runs without a failure. -/

/-- `p.wpAt n Q s`: from `s`, with exactly the `n`-th statement failing, `p` ends in a result and a
state with `Q`. -/
def wpAt : Prog σ α → ℕ → (Option α → σ → Prop) → σ → Prop
  | .done a, _, Q, s => Q (some a) s
  | .fail, _, Q, s => Q none s
  | .stmt _ _ onErr, 0, Q, s => onErr.wpOk Q s
  | .stmt effect next _, n + 1, Q, s => (next s).wpAt n Q (effect s)
  | .mem effect next, n, Q, s => (next s).wpAt n Q (effect s)

/-- `wpAt` is about the run against `failAt n`. -/
theorem wpAt_iff_run {p : Prog σ α} {n : ℕ} :
    p.wpAt n Q s ↔ Q (p.run (failAt n) s).result (p.run (failAt n) s).state := by
  induction p generalizing n s with
  | done a => cases n <;> rfl
  | fail => cases n <;> rfl
  | stmt effect next onErr ihn _ =>
    cases n with
    | zero => exact wpOk_iff_run
    | succ n => exact ihn _
  | mem effect next ih => cases n <;> exact ih _

/-- What holds whichever statements fail holds when one of them does. -/
theorem wpAt_of_wp {p : Prog σ α} {n : ℕ} (h : p.wp Q s) : p.wpAt n Q s :=
  wpAt_iff_run.mpr (wp_run h _)

/-- The number of statements of the fault-free run. -/
def cost : Prog σ α → σ → ℕ
  | .done _, _ => 0
  | .fail, _ => 0
  | .stmt effect next _, s => (next s).cost (effect s) + 1
  | .mem effect next, s => (next s).cost (effect s)

/-- A failure in the first of two programs. -/
theorem wpAt_bind_of_lt {p : Prog σ α} {f : α → Prog σ β} {Q : Option β → σ → Prop} {n : ℕ}
    (h : n < p.cost s) : (p.bind f).wpAt n Q s ↔ p.wpAt n (afterOk f Q) s := by
  induction p generalizing n s with
  | done a => exact absurd h (Nat.not_lt_zero n)
  | fail => exact absurd h (Nat.not_lt_zero n)
  | stmt effect next onErr ihn _ =>
    cases n with
    | zero => exact wpOk_bind onErr f
    | succ n => exact ihn _ (Nat.lt_of_succ_lt_succ h)
  | mem effect next ih => cases n <;> exact ih _ h

/-- A failure after the first of two programs. -/
theorem wpAt_bind_of_ge {p : Prog σ α} {f : α → Prog σ β} {Q : Option β → σ → Prop} {n : ℕ}
    (h : p.cost s ≤ n) :
    (p.bind f).wpAt n Q s ↔
      p.wpOk (fun r s' => match r with
        | some a => (f a).wpAt (n - p.cost s) Q s'
        | none => Q none s') s := by
  induction p generalizing n s with
  | done a => rfl
  | fail => cases n <;> rfl
  | stmt effect next onErr ihn _ =>
    cases n with
    | zero => exact absurd h (Nat.not_succ_le_zero _)
    | succ n =>
      have hcost : (stmt effect next onErr).cost s = ((next s).cost (effect s)) + 1 := rfl
      rw [hcost, Nat.add_sub_add_right]
      exact ihn _ (Nat.le_of_succ_le_succ h)
  | mem effect next ih => cases n <;> exact ih _ h

/-- A failure after the last statement is no failure. -/
theorem wpAt_of_cost_le {p : Prog σ α} {n : ℕ} (h : p.cost s ≤ n) :
    p.wpAt n Q s ↔ p.wpOk Q s := by
  induction p generalizing n s with
  | done a => rfl
  | fail => cases n <;> rfl
  | stmt effect next onErr ihn _ =>
    cases n with
    | zero => exact absurd h (Nat.not_succ_le_zero _)
    | succ n => exact ihn _ (Nat.le_of_succ_le_succ h)
  | mem effect next ih => cases n <;> exact ih _ h

/-- The statements of two programs, when the first succeeds. -/
theorem cost_bind (p : Prog σ α) (f : α → Prog σ β) (s : σ) :
    (p.bind f).cost s = p.cost s + ((p.run [] s).result.map fun a =>
      (f a).cost (p.run [] s).state).getD 0 := by
  induction p generalizing s with
  | done a => exact (Nat.zero_add _).symm
  | fail => rfl
  | stmt effect next onErr ihn _ =>
    show ((next s).bind f).cost (effect s) + 1 = _
    rw [ihn, Nat.add_right_comm]
    rfl
  | mem effect next ih => exact ih _ _

@[simp] theorem cost_attempt (p : Prog σ α) (s : σ) : p.attempt.cost s = p.cost s := by
  induction p generalizing s with
  | done a => rfl
  | fail => rfl
  | stmt effect next onErr ihn _ => exact congrArg (· + 1) (ihn _ _)
  | mem effect next ih => exact ih _ _

/-! ### Loops with one failure -/

/-- Where the `n`-th statement of a loop is: the elements that are through, the element at work, and
how far into its statements the failure is. `none` when the loop ends before it. -/
def locate (cost : α → ℕ) : List α → ℕ → Option (List α × α × ℕ)
  | [], _ => none
  | a :: as, n =>
    if n < cost a then some ([], a, n)
    else (locate cost as (n - cost a)).map fun q => (a :: q.1, q.2)

theorem locate_eq_some {cost : α → ℕ} {as past : List α} {a : α} {n k : ℕ}
    (h : locate cost as n = some (past, a, k)) :
    ∃ rest, as = past ++ a :: rest ∧ n = (past.map cost).sum + k ∧ k < cost a := by
  induction as generalizing n past with
  | nil => exact absurd h (by simp [locate])
  | cons b as ih =>
    rw [locate] at h
    split at h
    · rename_i hlt
      obtain ⟨rfl, rfl, rfl⟩ : [] = past ∧ b = a ∧ n = k := by simpa using h
      exact ⟨as, rfl, by simp, hlt⟩
    · rename_i hge
      obtain ⟨⟨past', a', k'⟩, hq, heq⟩ := Option.map_eq_some_iff.mp h
      obtain ⟨rfl, rfl, rfl⟩ : b :: past' = past ∧ a' = a ∧ k' = k := by simpa using heq
      obtain ⟨rest, rfl, hn, hk⟩ := ih hq
      refine ⟨rest, rfl, ?_, hk⟩
      rw [List.map_cons, List.sum_cons]
      omega

theorem le_of_locate_eq_none {cost : α → ℕ} {as : List α} {n : ℕ}
    (h : locate cost as n = none) : (as.map cost).sum ≤ n := by
  induction as generalizing n with
  | nil => exact Nat.zero_le n
  | cons a as ih =>
    rw [locate] at h
    split at h
    · exact absurd h (by simp)
    · have hle := ih (Option.map_eq_none_iff.mp h)
      rw [List.map_cons, List.sum_cons]
      omega

section Loop

variable {f : β → α → Prog σ β} {cost : α → ℕ} {I : List α → β → σ → Prop}
  {Q : Option β → σ → Prop}

/-- The statements of a loop, when the number for each element is known. -/
theorem cost_foldlM
    (step : ∀ a as b s, I (a :: as) b s → (f b a).cost s = cost a ∧
      (f b a).wpOk (fun r s' => ∃ b', r = some b' ∧ I as b' s') s) :
    ∀ (as : List α) (b : β) (s : σ), I as b s → (as.foldlM f b).cost s = (as.map cost).sum
  | [], _, _, _ => rfl
  | a :: as, b, s, h => by
    obtain ⟨hcost, hok⟩ := step a as b s h
    obtain ⟨b', hb', hI⟩ := wpOk_iff_run.mp hok
    rw [List.foldlM_cons, bind_eq, cost_bind, hcost, hb', Option.map_some, Option.getD_some,
      cost_foldlM step as b' _ hI, List.map_cons, List.sum_cons]

/-- The loop rule for a failure `k` statements into the work on `a`. -/
theorem wpAt_foldlM
    (step : ∀ a as b s, I (a :: as) b s → (f b a).cost s = cost a ∧
      (f b a).wpOk (fun r s' => ∃ b', r = some b' ∧ I as b' s') s)
    {a : α} {rest : List α} {k : ℕ} (hk : k < cost a) :
    ∀ (past : List α) (b : β) (s : σ), I (past ++ a :: rest) b s →
      (((past ++ a :: rest).foldlM f b).wpAt ((past.map cost).sum + k) Q s ↔
        (past.foldlM f b).wpOk (fun r s' => ∀ b', r = some b' →
          (f b' a).wpAt k (afterOk (fun b => rest.foldlM f b) Q) s') s)
  | [], b, s, h => by
    have hcost := (step a rest b s h).1
    show ((a :: rest).foldlM f b).wpAt (0 + k) Q s ↔ ∀ b', some b = some b' → _
    rw [List.foldlM_cons, bind_eq, Nat.zero_add, wpAt_bind_of_lt (by omega)]
    exact ⟨fun hat b' hb' => Option.some.inj hb' ▸ hat, fun hat => hat b rfl⟩
  | d :: past, b, s, h => by
    obtain ⟨hcost, hok⟩ := step d (past ++ a :: rest) b s h
    obtain ⟨b', hb', hI⟩ := wpOk_iff_run.mp hok
    have hge : (f b d).cost s ≤ ((d :: past).map cost).sum + k := by
      rw [hcost, List.map_cons, List.sum_cons]
      omega
    have hsub : ((d :: past).map cost).sum + k - (f b d).cost s = (past.map cost).sum + k := by
      rw [hcost, List.map_cons, List.sum_cons]
      omega
    rw [List.cons_append, List.foldlM_cons, bind_eq, wpAt_bind_of_ge hge, hsub, wpOk_iff_run, hb',
      List.foldlM_cons, bind_eq, wpOk_bind, wpOk_iff_run, hb']
    exact wpAt_foldlM step hk past b' _ hI

end Loop

end Prog

end Lib

import Dunlin.Lib.Prog

/-!
# Transactions

A transaction works on a copy of the database that nobody else sees. Its statements change the
copy, and only `COMMIT` puts the copy in the place of what is stored. A transaction that ends in
any other way, by a statement that fails, by an early return or by a commit that fails, is rolled
back: what is stored has not changed.

A transaction is a program over both, so the calculus of `Prog` applies to it as it is. `perform`
runs one from a database with no transaction under way, and `perform_of_wp` takes an obligation to
what such a run returns and stores.

## Main results

* `wp_start`, `wp_query`, `wp_exec`, `wp_commit`, `wp_execChecked` — the rules of the statements
* `perform_of_wp` — what a transaction returns and stores, whichever statements fail
* `perform_of_wpOk` — and when none does
-/

namespace Lib

/-- A database with a transaction under way. -/
structure Tx (σ : Type) where
  /-- What everybody else sees. -/
  stored : σ
  /-- What the transaction works on. -/
  copy : σ

namespace Tx

variable {σ α : Type}

/-- `BEGIN`. -/
def start : Prog (Tx σ) Unit := .exec fun t => { t with copy := t.stored }

/-- A query in the transaction. -/
def query (f : σ → α) : Prog (Tx σ) α := .query fun t => f t.copy

/-- A statement in the transaction. -/
def exec (effect : σ → σ) : Prog (Tx σ) Unit := .exec fun t => { t with copy := effect t.copy }

/-- A statement that the database refuses where its effect is `none`. -/
def execChecked (effect : σ → Option σ) : Prog (Tx σ) Unit :=
  .stmt (fun t => { t with copy := (effect t.copy).getD t.copy })
    (fun t => if (effect t.copy).isSome then .done () else .fail) .fail

/-- `COMMIT`. -/
def commit : Prog (Tx σ) Unit := .exec fun t => { t with stored := t.copy }

/-- Run a transaction: what it returns, and what is stored afterwards. -/
def perform (p : Prog (Tx σ) α) (faults : List Bool) (s : σ) : Option α × σ :=
  ((p.run faults ⟨s, s⟩).result, (p.run faults ⟨s, s⟩).state.stored)

section Wp

variable {s c : σ} {Q : Option Unit → Tx σ → Prop}

@[simp] theorem wp_start : start.wp Q ⟨s, c⟩ ↔ Q (some ()) ⟨s, s⟩ ∧ Q none ⟨s, c⟩ := Iff.rfl

@[simp] theorem wp_query {Q : Option α → Tx σ → Prop} (f : σ → α) :
    (query f).wp Q ⟨s, c⟩ ↔ Q (some (f c)) ⟨s, c⟩ ∧ Q none ⟨s, c⟩ := Iff.rfl

@[simp] theorem wp_exec (effect : σ → σ) :
    (exec effect).wp Q ⟨s, c⟩ ↔ Q (some ()) ⟨s, effect c⟩ ∧ Q none ⟨s, c⟩ := Iff.rfl

@[simp] theorem wp_commit : commit.wp Q ⟨s, c⟩ ↔ Q (some ()) ⟨c, c⟩ ∧ Q none ⟨s, c⟩ := Iff.rfl

/-- A refused statement fails like any other. -/
theorem wp_execChecked (effect : σ → Option σ) (hok : ∀ c', effect c = some c' →
    Q (some ()) ⟨s, c'⟩) (hfail : Q none ⟨s, c⟩) : (execChecked effect).wp Q ⟨s, c⟩ := by
  rw [execChecked, Prog.wp_stmt]
  refine ⟨?_, hfail⟩
  cases he : effect c with
  | none => simpa [he] using hfail
  | some c' => simpa [he] using hok c' he

@[simp] theorem wpOk_start : start.wpOk Q ⟨s, c⟩ ↔ Q (some ()) ⟨s, s⟩ := Iff.rfl

@[simp] theorem wpOk_query {Q : Option α → Tx σ → Prop} (f : σ → α) :
    (query f).wpOk Q ⟨s, c⟩ ↔ Q (some (f c)) ⟨s, c⟩ := Iff.rfl

@[simp] theorem wpOk_exec (effect : σ → σ) :
    (exec effect).wpOk Q ⟨s, c⟩ ↔ Q (some ()) ⟨s, effect c⟩ := Iff.rfl

@[simp] theorem wpOk_commit : commit.wpOk Q ⟨s, c⟩ ↔ Q (some ()) ⟨c, c⟩ := Iff.rfl

theorem wpOk_execChecked (effect : σ → Option σ) (hok : ∀ c', effect c = some c' →
    Q (some ()) ⟨s, c'⟩) (hfail : effect c = none → Q none ⟨s, c⟩) :
    (execChecked effect).wpOk Q ⟨s, c⟩ := by
  rw [execChecked, Prog.wpOk]
  cases he : effect c with
  | none => simpa [he] using hfail he
  | some c' => simpa [he] using hok c' he

end Wp

/-- What a transaction returns and stores, whichever of its statements fail. -/
theorem perform_of_wp {p : Prog (Tx σ) α} {s : σ} {R : Option α → σ → Prop}
    (h : p.wp (fun r t => R r t.stored) ⟨s, s⟩) (faults : List Bool) :
    R (perform p faults s).1 (perform p faults s).2 :=
  Prog.wp_run h faults

/-- What a transaction returns and stores when no statement fails. -/
theorem perform_of_wpOk {p : Prog (Tx σ) α} {s : σ} {R : Option α → σ → Prop}
    (h : p.wpOk (fun r t => R r t.stored) ⟨s, s⟩) :
    R (perform p [] s).1 (perform p [] s).2 :=
  Prog.wpOk_iff_run.mp h

end Tx

end Lib

import Mathlib.Data.List.Induction
import Mathlib.Tactic.Tauto

/-!
# Runs of a transition system

A system is a function `step : σ → α → σ` from a state and a label to the next state. A run is a
list of labels, executed from the left.

`Always step P s as` says that every step of the run from `s` along `as` meets `P`, a condition on
the state before the step and on its label. It states both what a run is assumed to do and what is
proved of it, and `Always.of_inv` is the rule that leads from the one to the other through an
inductive invariant.

`Since p q` looks back: there was a step that meets `p`, and every later one meets `q`. Both have
decision procedures, so a concrete run can be evaluated.

## Main results

* `Always.run_inv`, `run_invariant` — the invariant rule
* `Always.of_inv`, `Always.of_invariant` — what each step of a run does, from an invariant
* `Always.iff_of_inv` — two conditions that agree as long as an invariant lasts
* `run_history` — invariants that speak of the steps so far
-/

namespace Lib

variable {σ α : Type} {step : σ → α → σ}

/-- The state at the end of a run. -/
def run (step : σ → α → σ) (s : σ) (as : List α) : σ := as.foldl step s

@[simp] theorem run_nil (step : σ → α → σ) (s : σ) : run step s [] = s := rfl

@[simp] theorem run_cons (step : σ → α → σ) (s : σ) (a : α) (as : List α) :
    run step s (a :: as) = run step (step s a) as := rfl

theorem run_append (step : σ → α → σ) (s : σ) (as bs : List α) :
    run step s (as ++ bs) = run step (run step s as) bs := List.foldl_append

/-- Every step of the run from `s` along the labels meets `P`. -/
def Always (step : σ → α → σ) (P : σ → α → Prop) : σ → List α → Prop
  | _, [] => True
  | s, a :: as => P s a ∧ Always step P (step s a) as

/-- `Always` can be evaluated on a concrete run. -/
def Always.decide (step : σ → α → σ) (P : σ → α → Prop) (h : ∀ s a, Decidable (P s a)) :
    ∀ s as, Decidable (Always step P s as)
  | _, [] => isTrue trivial
  | s, a :: as => @instDecidableAnd _ _ (h s a) (Always.decide step P h (step s a) as)

instance (step : σ → α → σ) (P : σ → α → Prop) [h : ∀ s a, Decidable (P s a)] (s : σ)
    (as : List α) : Decidable (Always step P s as) := Always.decide step P h s as

variable {P M : σ → α → Prop} {Inv : σ → Prop} {s : σ} {as bs : List α}

theorem Always.imp (h : Always step M s as) (hMP : ∀ s a, M s a → P s a) : Always step P s as := by
  induction as generalizing s with
  | nil => trivial
  | cons a as ih => exact ⟨hMP s a h.1, ih h.2⟩

theorem Always.and (hM : Always step M s as) (hP : Always step P s as) :
    Always step (fun s a => M s a ∧ P s a) s as := by
  induction as generalizing s with
  | nil => trivial
  | cons a as ih => exact ⟨⟨hM.1, hP.1⟩, ih hM.2 hP.2⟩

/-- A property every step has. -/
theorem Always.of_forall (h : ∀ s a, P s a) : Always step P s as := by
  induction as generalizing s with
  | nil => trivial
  | cons a as ih => exact ⟨h s a, ih⟩

theorem always_append :
    Always step P s (as ++ bs) ↔ Always step P s as ∧ Always step P (Lib.run step s as) bs := by
  induction as generalizing s with
  | nil => simp [Always]
  | cons a as ih => simp [Always, ih, and_assoc]

/-- **The invariant rule.** An invariant kept by every step that meets `M` holds at the end of a
run of such steps. -/
theorem Always.run_inv (h : Always step M s as) (h₀ : Inv s)
    (hstep : ∀ s a, Inv s → M s a → Inv (step s a)) : Inv (Lib.run step s as) := by
  induction as generalizing s with
  | nil => exact h₀
  | cons a as ih => exact ih h.2 (hstep s a h₀ h.1)

/-- The invariant rule for an invariant that every step keeps. -/
theorem run_invariant (h₀ : Inv s) (hstep : ∀ s a, Inv s → Inv (step s a)) (as : List α) :
    Inv (Lib.run step s as) := by
  induction as generalizing s with
  | nil => exact h₀
  | cons a as ih => exact ih (hstep s a h₀)

/-- The invariant rule for a property of steps. -/
theorem Always.of_inv (h : Always step M s as) (h₀ : Inv s)
    (hstep : ∀ s a, Inv s → M s a → Inv (step s a)) (hP : ∀ s a, Inv s → M s a → P s a) :
    Always step P s as := by
  induction as generalizing s with
  | nil => trivial
  | cons a as ih => exact ⟨hP s a h₀ h.1, ih h.2 (hstep s a h₀ h.1)⟩

/-- The invariant rule for a property that needs no assumption about the run. -/
theorem Always.of_invariant (h₀ : Inv s) (hstep : ∀ s a, Inv s → Inv (step s a))
    (hP : ∀ s a, Inv s → P s a) : Always step P s as :=
  Always.of_inv (.of_forall fun _ _ => trivial) h₀ (fun s a hs (_ : True) => hstep s a hs)
    fun s a hs _ => hP s a hs

/-- Under an invariant that a step keeps when it meets `M`, a property of steps that is equivalent
to `M` holds along a run exactly when `M` does. `D` is what the steps are assumed to meet anyway. -/
theorem Always.iff_of_inv {D : σ → α → Prop} (h : Always step D s as) (h₀ : Inv s)
    (hiff : ∀ s a, Inv s → D s a → (P s a ↔ M s a))
    (hstep : ∀ s a, Inv s → D s a → M s a → Inv (step s a)) :
    Always step P s as ↔ Always step M s as := by
  induction as generalizing s with
  | nil => exact Iff.rfl
  | cons a as ih =>
    have hPM := hiff s a h₀ h.1
    constructor
    · rintro ⟨hP, hPs⟩
      have hM := hPM.mp hP
      exact ⟨hM, (ih h.2 (hstep s a h₀ h.1 hM)).mp hPs⟩
    · rintro ⟨hM, hMs⟩
      exact ⟨hPM.mpr hM, (ih h.2 (hstep s a h₀ h.1 hM)).mpr hMs⟩

/-! ### What came before

A property of a run may speak of its past: that something was done before, and not undone since. -/

section Past

variable {A B R : σ → α → Prop}

/-- Some step of the run from `s` meets `A`, and no step after it meets `R`. -/
def Since (step : σ → α → σ) (A R : σ → α → Prop) : σ → List α → Prop
  | _, [] => False
  | s, a :: as =>
    A s a ∧ Always step (fun s b => ¬R s b) (step s a) as ∨ Since step A R (step s a) as

/-- `Since` can be evaluated on a concrete run. -/
def Since.decide (step : σ → α → σ) (A R : σ → α → Prop) (hA : ∀ s a, Decidable (A s a))
    (hR : ∀ s a, Decidable (R s a)) : ∀ s as, Decidable (Since step A R s as)
  | _, [] => isFalse fun h => h
  | s, a :: as =>
    @instDecidableOr _ _
      (@instDecidableAnd _ _ (hA s a)
        (Always.decide step (fun s b => ¬R s b) (fun s b => @instDecidableNot _ (hR s b))
          (step s a) as))
      (Since.decide step A R hA hR (step s a) as)

instance (step : σ → α → σ) (A R : σ → α → Prop) [hA : ∀ s a, Decidable (A s a)]
    [hR : ∀ s a, Decidable (R s a)] (s : σ) (as : List α) : Decidable (Since step A R s as) :=
  Since.decide step A R hA hR s as

/-- One more step either meets `A` or is not an `R` after one that did. -/
theorem since_append_singleton {a : α} :
    Since step A R s (as ++ [a]) ↔
      A (Lib.run step s as) a ∨ Since step A R s as ∧ ¬R (Lib.run step s as) a := by
  induction as generalizing s with
  | nil => simp [Since, Always]
  | cons b as ih =>
    rw [List.cons_append, Since, ih, always_append, run_cons, Since]
    simp only [Always, and_true]
    tauto

theorem Since.imp (h : Since step A R s as) (hAB : ∀ s a, A s a → B s a) :
    Since step B R s as := by
  induction as generalizing s with
  | nil => exact h
  | cons a as ih =>
    rcases h with ⟨hA, hquiet⟩ | h
    · exact .inl ⟨hAB s a hA, hquiet⟩
    · exact .inr (ih h)

theorem Since.congr (h : Always step M s as) (hAB : ∀ s a, M s a → (A s a ↔ B s a)) :
    Since step A R s as ↔ Since step B R s as := by
  induction as generalizing s with
  | nil => exact Iff.rfl
  | cons a as ih => exact or_congr (and_congr_left' (hAB s a h.1)) (ih h.2)

/-- **The invariant rule with a past.** An invariant of the state and of the steps so far. -/
theorem run_history {Inv : List α → σ → Prop} (h₀ : Inv [] s)
    (hstep : ∀ past a, Inv past (Lib.run step s past) →
      Inv (past ++ [a]) (step (Lib.run step s past) a)) (past : List α) :
    Inv past (Lib.run step s past) := by
  induction past using List.reverseRecOn with
  | nil => exact h₀
  | append_singleton past a ih =>
    rw [run_append]
    exact hstep past a ih

end Past

end Lib

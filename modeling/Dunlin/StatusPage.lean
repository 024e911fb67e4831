import Dunlin.CheckResults
import Dunlin.IncidentRows

/-!
# The status page and the alert engine

The prober stores every result of a check and then feeds it to the alert engine. The status page
reads the stored results, the engine counts for itself. `Agrees` is what keeps the two together:
the machine's counter is the number of failures the stored results end with, as far as a `u32` can
hold it, and a run of failures that is long enough has an open incident behind it.

The page reads at most as many results as it takes to open an incident, and the engine's counter is
a `u32`. Both say whether the failures in a row have reached the number that opens, unless the
counter has come round to a small number again (`status_page_counter_wraps`).

## Scope

Results of one check come in the order of their times, those of other checks in any order between
them. No statement fails, and the check stays in the config.

## Main results

* `Agrees.step` — one more result, of this check or of another
* `status_page_agrees` — after any results, the page shows an outage if the engine has an incident
-/

namespace Dunlin

open Lib AlertEngine

/-- What the prober passes on from a result of a check. -/
structure Prober.Outcome where
  check : CheckConfig
  now : ℤ
  ok : Bool
  degraded : Bool
  message : Option String
  muted : Bool
  deriving DecidableEq, Repr

/-- The stored results, and the program as far as incidents go. -/
structure Prober where
  results : Table ResultRow
  world : World

/-- A result counts as a failure or ends the count. -/
theorem CheckMachine.failures_onResult (m : CheckMachine) (check : CheckConfig) (ok : Bool)
    (now : ℤ) : (m.onResult check ok now).1.failures = if ok then 0 else bump m.failures := by
  cases ok with
  | true =>
    by_cases hr : m.state = .down ∧ bump m.successes ≥ check.successesToResolve
    · cases hid : m.incidentId <;> simp [onResult, hr, hid]
    · simp [onResult, hr]
  | false =>
    by_cases hup : m.state = .up
    · by_cases ho : bump m.failures ≥ check.failuresToOpen <;> simp [onResult, hup, ho]
    · by_cases hd : m.lastReminder.all (now - · ≥ asI64 check.reminderInterval.asSecs)
      · cases hid : m.incidentId <;> simp [onResult, hup, hd, hid]
      · simp [onResult, hup, hd]

namespace Prober

/-- An empty database and an engine that has just been made. -/
def initial (cfg : Config) (publicUrl : Option String) (subscriptions : Option Config) :
    Prober where
  results := .empty
  world := { World.initial .empty cfg with
    engine := { publicUrl := publicUrl, subscriptions := subscriptions } }

variable (pf : Platform) (cfg : Config) (check : CheckConfig)

/-- The result as the engine gets it. -/
def input (o : Outcome) : AlertInput where
  component := cfg.incidentComponent o.check.id
  check := o.check
  ok := o.ok
  message := o.message
  now := o.now
  muted := o.muted

/-- Store a result and pass it on. -/
def step (p : Prober) (o : Outcome) : Prober where
  results := insertCheckResult o.now o.check.id o.ok o.degraded p.results
  world := Dunlin.step pf p.world (.handle (input cfg o))

/-- The machine of the check. -/
def machine (p : Prober) : CheckMachine := p.world.machine check.id

/-- The failures the stored results of the check end with. -/
def trailing (p : Prober) : ℕ := trailingFailures p.results check.id

/-- The check is down, with an open incident on its component. -/
def IsDown (p : Prober) : Prop :=
  (p.machine check).state = .down ∧
    ∃ i ∈ p.world.store.incidents.rows, (p.machine check).incidentId = some i.id ∧ i.isActive ∧
      i.component = cfg.incidentComponent check.id

/-- The engine and the stored results agree. -/
structure Agrees (p : Prober) : Prop where
  failures : (p.machine check).failures = p.trailing check % 2 ^ 32
  /-- The machine is down with an incident behind it, or up without. -/
  health : p.IsDown cfg check ∨
    (p.machine check).state = .up ∧ (p.machine check).incidentId = none ∧
      (p.trailing check = 0 ∨ p.trailing check < check.failuresToOpen)
  /-- An incident belongs to the component its check files under. -/
  filed : ∀ c id, p.world.held c = some id →
    ∃ i ∈ p.world.store.incidents.rows, i.id = id ∧ i.component = cfg.incidentComponent c

/-- The result is the check's own, or that of a check that files under another component. -/
def Belongs (o : Outcome) : Prop :=
  o.check = check ∨ cfg.incidentComponent o.check.id ≠ cfg.incidentComponent check.id

instance (o : Outcome) : Decidable (Belongs cfg check o) := inferInstanceAs (Decidable (_ ∨ _))

/-- A result of the check comes after those stored. -/
def InOrder (p : Prober) (o : Outcome) : Prop :=
  o.check = check → ∀ r ∈ p.results.rows, r.checkId = check.id → r.ts ≤ o.now

/-! ### One result -/

section Step

variable {pf cfg check} {p : Prober} {o : Outcome}

theorem machines_step (c : String) : (p.step pf cfg o).world.engine.machines c =
    if c = o.check.id then some (fed pf p.world (input cfg o)) else
      p.world.engine.machines c := by
  rw [step, step_handle, machines_handled]
  rfl

theorem store_step : (p.step pf cfg o).world.store = fedStore pf p.world (input cfg o) := by
  rw [step, step_handle, store_handled]

/-- The machine a result finds is the one the last result left. -/
theorem Agrees.effective_eq (h : p.Agrees cfg check) :
    effective p.world check.id = p.machine check := by
  rcases h.health with ⟨hdown, i, hi, hid, hact, -⟩ | ⟨-, hid, -⟩
  · cases hm : p.world.engine.machines check.id with
    | none =>
      rw [machine, World.machine, hm] at hdown
      cases hdown
    | some m =>
      have hmachine : p.machine check = m := by rw [machine, World.machine, hm, Option.getD_some]
      rw [hmachine] at hid ⊢
      exact effective_of_open hm hid hi hact
  · have hheld : p.world.held check.id = none := by
      rw [machine, World.machine] at hid
      rw [World.held]
      cases hm : p.world.engine.machines check.id with
      | none => rfl
      | some m => rwa [hm, Option.getD_some] at hid
    rw [effective, dropped, hheld, if_neg (by simp)]
    rfl

theorem Agrees.filed_step (h : p.Agrees cfg check) (c : String) (id : ℤ)
    (hheld : (p.step pf cfg o).world.held c = some id) :
    ∃ i ∈ (p.step pf cfg o).world.store.incidents.rows,
      i.id = id ∧ i.component = cfg.incidentComponent c := by
  rw [step, step_handle] at hheld
  rcases held_handled pf (input cfg o) p.world hheld with ⟨rfl, ho, rfl⟩ | hheld
  · rw [store_step, fedStore, if_pos ho, target]
    cases hactive : p.world.store.activeIncidentFor pf (input cfg o).component with
    | some i =>
      obtain ⟨hi, -, hcomponent, -⟩ := Store.activeIncidentFor_eq_some hactive
      exact ⟨i, hi, rfl, hcomponent⟩
    | none =>
      refine ⟨Store.autoIncident (input cfg o) p.world.store.incidents.next, ?_, rfl, rfl⟩
      simp [Store.rows_opened]
  · obtain ⟨i, hi, rfl, hcomponent⟩ := h.filed c id hheld
    obtain ⟨i', hi', he⟩ := grows_step pf p.world (.handle (input cfg o)) i hi
    exact ⟨i', hi', he.id, he.component.trans hcomponent⟩

/-! ### A result of the check -/

variable (pf cfg) in
theorem Agrees.machine_step (h : p.Agrees cfg check) (ho : o.check = check) :
    (p.step pf cfg o).machine check =
      if (p.machine check).opens check o.ok then
        { ((p.machine check).onResult check o.ok o.now).1 with
          incidentId := some (target pf p.world (input cfg o)) }
      else ((p.machine check).onResult check o.ok o.now).1 := by
  subst ho
  rw [machine, World.machine, machines_step, if_pos rfl, Option.getD_some, fed]
  have heffective : effective p.world (input cfg o).check.id = p.machine o.check :=
    h.effective_eq
  rw [heffective]
  rfl

variable (pf cfg) in
theorem Agrees.store_own (h : p.Agrees cfg check) (ho : o.check = check) :
    (p.step pf cfg o).world.store =
      if (p.machine check).opens check o.ok then
        match p.world.store.activeIncidentFor pf (cfg.incidentComponent check.id) with
        | some _ => p.world.store
        | none => p.world.store.opened pf p.world.engine.subscriptions (input cfg o)
      else if (p.machine check).recovers check o.ok then
        match (p.machine check).incidentId with
        | some id => p.world.store.recovered p.world.engine.subscriptions (input cfg o) id
        | none => p.world.store
      else p.world.store := by
  subst ho
  have heffective : effective p.world (input cfg o).check.id = p.machine o.check :=
    h.effective_eq
  rw [store_step, fedStore, heffective]
  rfl

variable (pf cfg) in
theorem trailing_own (ho : o.check = check) (h : p.InOrder check o) :
    (p.step pf cfg o).trailing check = if o.ok then 0 else p.trailing check + 1 := by
  subst ho
  exact trailingFailures_insert (h rfl)

theorem Agrees.bump_failures (h : p.Agrees cfg check) :
    CheckMachine.bump (p.machine check).failures = (p.trailing check + 1) % 2 ^ 32 := by
  rw [CheckMachine.bump, h.failures]
  omega

/-- The counter goes with the stored results. -/
theorem Agrees.failures_own (h : p.Agrees cfg check) (hown : o.check = check)
    (horder : p.InOrder check o) : ((p.step pf cfg o).machine check).failures =
      (p.step pf cfg o).trailing check % 2 ^ 32 := by
  have hcounted : ((p.step pf cfg o).machine check).failures =
      if o.ok then 0 else CheckMachine.bump (p.machine check).failures := by
    rw [h.machine_step pf cfg hown,
      ← CheckMachine.failures_onResult (p.machine check) check o.ok o.now]
    split <;> rfl
  rw [hcounted, trailing_own pf cfg hown horder, h.bump_failures]
  cases o.ok <;> rfl

theorem Agrees.step_own (h : p.Agrees cfg check) (hown : o.check = check)
    (hu32 : check.failuresToOpen < 2 ^ 32) (horder : p.InOrder check o) :
    (p.step pf cfg o).Agrees cfg check := by
  have hmachine := h.machine_step pf cfg hown
  have hstore := h.store_own pf cfg hown
  have htrailing := trailing_own pf cfg hown horder
  have hcomponent : (input cfg o).component = cfg.incidentComponent check.id := by
    rw [← hown]
    rfl
  refine ⟨h.failures_own hown horder, ?_, h.filed_step⟩
  by_cases ho : (p.machine check).opens check o.ok
  · -- an incident is adopted or opened
    rw [if_pos ho] at hmachine hstore
    refine .inl ⟨by rw [hmachine, CheckMachine.onResult_of_opens ho], ?_⟩
    rw [hmachine, hstore, target, hcomponent]
    cases hactive : p.world.store.activeIncidentFor pf (cfg.incidentComponent check.id) with
    | some i =>
      obtain ⟨hi, hact, hon, -⟩ := Store.activeIncidentFor_eq_some hactive
      exact ⟨i, hi, rfl, hact, hon⟩
    | none =>
      refine ⟨Store.autoIncident (input cfg o) p.world.store.incidents.next, ?_, rfl, rfl,
        hcomponent⟩
      simp [Store.rows_opened]
  rw [if_neg ho] at hmachine hstore
  by_cases hr : (p.machine check).recovers check o.ok
  · refine .inr ⟨?_, ?_, .inl ?_⟩
    · rw [hmachine, CheckMachine.onResult_of_recovers hr]
    · rw [hmachine, CheckMachine.onResult_of_recovers hr]
    · rw [htrailing, if_pos hr.1]
  rw [if_neg hr] at hstore
  obtain ⟨hstate, hid, -⟩ := CheckMachine.onResult_of_stays ho hr o.now
  rw [← hmachine] at hstate hid
  rcases h.health with hdown | ⟨hup, hnone, hfew⟩
  · left
    rw [IsDown]
    rw [hstate, hid, hstore]
    exact hdown
  · refine .inr ⟨hstate.trans hup, hid.trans hnone, ?_⟩
    rw [htrailing]
    cases hok : o.ok with
    | true => exact .inl rfl
    | false =>
      -- below the threshold the counter has not come round
      have hnot : ¬check.failuresToOpen ≤ (p.trailing check + 1) % 2 ^ 32 := fun hn =>
        ho ⟨hok, hup, h.bump_failures ▸ hn⟩
      right
      simp only [Bool.false_eq_true, ↓reduceIte]
      omega

/-! ### A result of another check -/

/-- An incident of another component stays as it is. -/
theorem Agrees.mem_other (h : p.Agrees cfg check) {i : Incident}
    (hi : i ∈ p.world.store.incidents.rows) (hne : i.component ≠ cfg.incidentComponent o.check.id) :
    i ∈ (p.step pf cfg o).world.store.incidents.rows := by
  rw [store_step, fedStore]
  split
  · split
    · exact hi
    · rw [Store.rows_opened]
      exact List.mem_append_left _ hi
  · split
    · split
      · rename_i id hid
        obtain ⟨i₀, -, rfl, -, -, hheld⟩ := exists_of_effective hid
        obtain ⟨j, hj, hji, hcomponent⟩ := h.filed _ _ hheld
        refine Store.mem_recovered.mpr ⟨i, hi, if_neg fun hid => hne ?_⟩
        rw [Table.eq_of_id hi hj (hid.trans hji.symm), hcomponent]
        rfl
      · exact hi
    · exact hi

theorem Agrees.step_other (h : p.Agrees cfg check)
    (hother : cfg.incidentComponent o.check.id ≠ cfg.incidentComponent check.id) :
    (p.step pf cfg o).Agrees cfg check := by
  have hne : o.check.id ≠ check.id := fun hid => hother (by rw [hid])
  have hmachine : (p.step pf cfg o).machine check = p.machine check := by
    rw [machine, World.machine, machines_step, if_neg hne.symm]
    rfl
  have htrailing : (p.step pf cfg o).trailing check = p.trailing check := by
    rw [trailing, step, trailingFailures, resultsOf_insert_of_ne hne]
    rfl
  refine ⟨by rw [hmachine, htrailing, h.failures], ?_, h.filed_step⟩
  rw [IsDown, hmachine, htrailing]
  rcases h.health with ⟨hdown, i, hi, hid, hact, hcomponent⟩ | hup
  · exact .inl ⟨hdown, i, h.mem_other hi (hcomponent ▸ hother.symm), hid, hact, hcomponent⟩
  · exact .inr hup

theorem Agrees.step (h : p.Agrees cfg check) (hu32 : check.failuresToOpen < 2 ^ 32)
    (hbelongs : Belongs cfg check o) (horder : p.InOrder check o) :
    (p.step pf cfg o).Agrees cfg check :=
  hbelongs.elim (fun hown => h.step_own hown hu32 horder) h.step_other

end Step

/-! ### Any results -/

section Run

variable {pf cfg check} {p : Prober} {outcomes : List Outcome}

theorem agrees_initial (publicUrl : Option String) (subscriptions : Option Config) :
    (initial cfg publicUrl subscriptions).Agrees cfg check where
  failures := rfl
  health := .inr ⟨rfl, rfl, .inl rfl⟩
  filed _ _ h := by cases h

/-- A result that comes after the stored ones and after `o` comes after them all. -/
theorem InOrder.step {o o' : Outcome} (h : p.InOrder check o')
    (hle : o.check = check → o'.check = check → o.now ≤ o'.now)
    (hbelongs : Belongs cfg check o) : (p.step pf cfg o).InOrder check o' := by
  intro hown r hr hcheck
  rcases (Table.mem_insert _ _).mp hr with hr | rfl
  · exact h hown r hr hcheck
  · rcases hbelongs with ho | hne
    · exact hle ho hown
    · exact absurd (congrArg cfg.incidentComponent hcheck) hne

theorem Agrees.run (h : p.Agrees cfg check) (hu32 : check.failuresToOpen < 2 ^ 32)
    (hbelongs : ∀ o ∈ outcomes, Belongs cfg check o)
    (hsorted : outcomes.Pairwise fun a b => a.check = check → b.check = check → a.now ≤ b.now)
    (horder : ∀ o ∈ outcomes, p.InOrder check o) :
    (Lib.run (Prober.step pf cfg) p outcomes).Agrees cfg check := by
  induction outcomes generalizing p with
  | nil => exact h
  | cons o outcomes ih =>
    obtain ⟨hfirst, hsorted⟩ := List.pairwise_cons.mp hsorted
    obtain ⟨hbelongs, hrest⟩ := List.forall_mem_cons.mp hbelongs
    obtain ⟨hnow, hlater⟩ := List.forall_mem_cons.mp horder
    refine ih (h.step hu32 hbelongs hnow) hrest hsorted fun o' ho' => ?_
    exact (hlater o' ho').step (hfirst o' ho') hbelongs

/-- A failure that comes again and again is counted each time. -/
theorem trailing_replicate {o : Outcome} (hown : o.check = check) (hfail : o.ok = false) (n : ℕ) :
    ∀ p : Prober, p.InOrder check o →
      (Lib.run (Prober.step pf cfg) p (List.replicate n o)).trailing check =
        p.trailing check + n := by
  induction n with
  | zero => exact fun p _ => rfl
  | succ n ih =>
    intro p horder
    have hnext : (p.step pf cfg o).InOrder check o :=
      horder.step (fun _ _ => le_refl _) (.inl hown)
    rw [List.replicate_succ, run_cons, ih _ hnext, trailing_own pf cfg hown horder, hfail]
    simp only [Bool.false_eq_true, ↓reduceIte]
    omega

end Run

end Prober

/-- **The status page and the alert engine agree.** However the results of a check come in, with
those of checks that file under other components between them: the machine's counter, a `u32`, is
the number of failures the stored results end with, the query counts them up to its limit, and a
check the page shows as down is down for the engine, with an open incident on its component. -/
theorem status_page_agrees (pf : Platform) (cfg : Config) (check : CheckConfig)
    (publicUrl : Option String) (subscriptions : Option Config) (outcomes : List Prober.Outcome)
    (hu32 : check.failuresToOpen < 2 ^ 32)
    (hbelongs : ∀ o ∈ outcomes, Prober.Belongs cfg check o)
    (hsorted : outcomes.Pairwise fun a b => a.check = check → b.check = check → a.now ≤ b.now) :
    let p := run (Prober.step pf cfg) (.initial cfg publicUrl subscriptions) outcomes
    (p.machine check).failures = p.trailing check % 2 ^ 32 ∧
      (∀ limit : ℕ, consecutiveFailures p.results check.id limit = min limit (p.trailing check)) ∧
      (baseState p.results check = .majorOutage → p.IsDown cfg check) := by
  intro p
  have hagrees : p.Agrees cfg check :=
    (Prober.agrees_initial publicUrl subscriptions).run hu32 hbelongs hsorted fun o _ _ r hr => by
      cases hr
  refine ⟨hagrees.failures, fun limit => consecutiveFailures_eq limit, fun hoff => ?_⟩
  obtain ⟨hpos, hmany⟩ := baseState_eq_majorOutage.mp hoff
  rcases hagrees.health with hdown | ⟨-, -, hfew⟩
  · exact hdown
  · rw [Prober.trailing] at hfew
    omega

/-- A check that takes two failures to open an incident. -/
def pageCheck : CheckConfig where
  id := "web"
  name := "Web"
  failuresToOpen := 2

def pageFailure (now : ℤ) : Prober.Outcome where
  check := pageCheck
  now := now
  ok := false
  degraded := false
  message := some "timeout"
  muted := true

theorem status_page_agrees_twoFailures :
    let p := run (Prober.step .ascii {}) (.initial {} none none) [pageFailure 5, pageFailure 5]
    baseState p.results pageCheck = .majorOutage ∧ p.IsDown {} pageCheck :=
  ⟨by decide, (status_page_agrees .ascii {} pageCheck none none [pageFailure 5, pageFailure 5]
    (by decide) (by decide) (by decide)).2.2 (by decide)⟩

/-- After as many failures as a `u32` has values the counter is back at zero. -/
theorem status_page_counter_wraps :
    let p := run (Prober.step .ascii {}) (.initial {} none none)
      (List.replicate (2 ^ 32) (pageFailure 5))
    (p.machine pageCheck).failures = 0 ∧ p.trailing pageCheck = 2 ^ 32 := by
  intro p
  have htrailing : p.trailing pageCheck = 2 ^ 32 :=
    (Prober.trailing_replicate rfl rfl _ _ fun _ r hr => by cases hr).trans (Nat.zero_add _)
  have hagrees : p.Agrees {} pageCheck := by
    refine (Prober.agrees_initial none none).run (by decide) (fun o ho => ?_) ?_
      fun o _ _ r hr => ?_
    · rw [List.eq_of_mem_replicate ho]
      exact .inl rfl
    · exact List.pairwise_replicate.mpr (.inr fun _ _ => le_refl _)
    · cases hr
  exact ⟨hagrees.failures.trans (by rw [htrailing, Nat.mod_self]), htrailing⟩

end Dunlin

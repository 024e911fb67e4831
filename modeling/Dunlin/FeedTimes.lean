import Dunlin.Feed
import Dunlin.IncidentRows

/-!
# The times of the feed

An entry of the feed carries the time its incident was resolved, or else created, and the feed the
time of its first entry, which is the incident created last. News come in another order: an update
of an open incident changes what its entry says, and an older incident may be resolved last.

A run is any sequence of operations and of readings of the feed, in the order of their times.
`feed_moves` is about the runs whose steps are `Announced`: what they write shows in the times. What
carries it is the invariant `Current`, which says of the incidents that may be listed that the ones
created last have changed last, and that no entry of a timeline is later than its incident's time.

## Main results

* `redates_step` — what an operation does to the times of the feed
* `FeedWorld.current_initial`, `redates` — the invariant, at the start and across an announced
  operation
* `feed_moves` — every reading of a run whose operations are announced
* `missedRun_not_shown` — an operation that is not announced, and a reading that misses it
-/

namespace Dunlin

open Lib

/-! ### Listed incidents -/

namespace Store

/-- So many incidents are newer that the feed does not list one of this time, in whatever order
incidents of the same second come. -/
def Buried (s : Store) (t : ℤ) : Prop := 20 ≤ s.incidents.rows.countP fun j => t < j.createdAt

/-- No incident is newer. -/
def Topmost (s : Store) (t : ℤ) : Prop := ∀ j ∈ s.incidents.rows, j.createdAt ≤ t

instance (s : Store) (t : ℤ) : Decidable (s.Buried t) := inferInstanceAs (Decidable (_ ≤ _))

instance (s : Store) (t : ℤ) : Decidable (s.Topmost t) := List.decidableBAll _ _

end Store

/-- In a descending list fewer than `n` values are greater than one of the first `n`. -/
theorem countP_lt_of_mem_take {α : Type} {f : α → ℤ} {l : List α}
    (hsorted : l.Pairwise fun a b => f b ≤ f a) {a : α} {n : ℕ} (ha : a ∈ l.take n) :
    l.countP (fun b => f a < f b) < n := by
  rw [← List.take_append_drop n l] at hsorted
  have hdrop : (l.drop n).countP (fun b => f a < f b) = 0 := by
    refine List.countP_eq_zero.mpr fun b hb => ?_
    have hle := (List.pairwise_append.mp hsorted).2.2 a ha b hb
    simpa using hle
  have htake : (l.take n).countP (fun b => f a < f b) ≠ (l.take n).length := fun heq => by
    simpa using List.countP_eq_length.mp heq a ha
  have hle : (l.take n).countP (fun b => f a < f b) ≤ (l.take n).length := List.countP_le_length
  have hlen := List.length_take_le n l
  conv_lhs => rw [← List.take_append_drop n l]
  rw [List.countP_append, hdrop]
  omega

section Listed

variable {pf : Platform} {s : Store} {i : Incident}

theorem recentIncidents_eq_take : s.recentIncidents pf 20 =
    (pf.newestFirst s.incidents.rows).take 20 := rfl

theorem mem_of_mem_recent (h : i ∈ s.recentIncidents pf 20) : i ∈ s.incidents.rows :=
  (pf.newestFirst_perm _).mem_iff.mp (List.mem_of_mem_take (recentIncidents_eq_take ▸ h))

theorem not_buried_of_mem_recent (h : i ∈ s.recentIncidents pf 20) : ¬s.Buried i.createdAt := by
  have hlt := countP_lt_of_mem_take (pf.newestFirst_sorted _) (recentIncidents_eq_take ▸ h)
  rw [(pf.newestFirst_perm _).countP_eq] at hlt
  exact Nat.not_le.mpr hlt

/-- The first entry is an incident created last. -/
theorem topmost_of_head? (h : (s.recentIncidents pf 20).head? = some i) :
    i ∈ s.recentIncidents pf 20 ∧ s.Topmost i.createdAt := by
  refine ⟨List.mem_of_mem_head? h, fun j hj => ?_⟩
  rw [recentIncidents_eq_take, List.head?_take, if_neg (by decide)] at h
  obtain ⟨rest, hrest⟩ := List.head?_eq_some_iff.mp h
  have hsorted := pf.newestFirst_sorted s.incidents.rows
  have hmem := (pf.newestFirst_perm s.incidents.rows).mem_iff.mpr hj
  rw [hrest] at hsorted hmem
  rcases List.mem_cons.mp hmem with rfl | hmem
  · exact Int.le_refl _
  · exact (List.pairwise_cons.mp hsorted).1 j hmem

theorem rows_of_recent_nil (h : s.recentIncidents pf 20 = []) : s.incidents.rows = [] := by
  rw [recentIncidents_eq_take, List.take_eq_nil_iff] at h
  exact ((h.resolve_left (by decide)) ▸ pf.newestFirst_perm s.incidents.rows).nil_eq.symm

variable {cfg : Config} {headers : HeaderMap} {now : ℤ}

theorem updated_feed : (feed pf cfg headers now s).updated =
    ((s.recentIncidents pf 20).head?.map Incident.feedUpdated).getD now := by
  rw [feed]
  dsimp only
  rw [List.head?_map, Option.map_map]
  rfl

end Listed

/-! ### What an operation does to times -/

/-- When an operation takes place. Following the config reads no clock. -/
def Op.time (clock : ℤ) : Op → ℤ
  | .start _ now | .reload _ now => now
  | .follow => clock
  | .handle input => input.now
  | .create _ now => now
  | .update _ _ now => now
  | .resolve _ now => now

/-- The incidents an operation resolves. -/
def Op.closes (pf : Platform) (w : World) : Op → List ℤ
  | .start cfg _ | .reload cfg _ => w.store.forgottenIds pf cfg
  | .follow | .create .. => []
  | .handle input =>
    let m := AlertEngine.effective w input.check.id
    if m.recovers input.check input.ok then m.incidentId.toList else []
  | .update id form _ => if form.incidentState = .resolved then [id] else []
  | .resolve id _ => [id]

/-- The incidents an operation only adds an entry to. -/
def Op.notes : Op → List ℤ
  | .update id form _ => if form.incidentState = .resolved then [] else [id]
  | _ => []

/-- What an operation at a time does: it resolves the incidents of `closes`, may create incidents,
and writes to the timelines of these and of `notes`. -/
structure Store.Redates (now : ℤ) (closes notes : List ℤ) (s s' : Store) : Prop where
  rows : ∃ (f : Incident → Incident) (new : List Incident),
    s'.incidents.rows = s.incidents.rows.map f ++ new ∧
      (∀ i ∈ s.incidents.rows, (f i).id = i.id ∧ (f i).createdAt = i.createdAt ∧
        (f i).resolvedAt = if i.id ∈ closes then some now else i.resolvedAt) ∧
      ∀ i ∈ new, i.createdAt = now ∧ i.resolvedAt = none
  updates : ∀ u ∈ s'.updates.rows, u ∈ s.updates.rows ∨
    u.ts = now ∧ (u.incidentId ∈ closes ∨ u.incidentId ∈ notes ∨ s.incidents.next ≤ u.incidentId)

namespace Store.Redates

variable {pf : Platform} {cfg : Config} {s s' : Store} {now id : ℤ} {input : AlertInput}
  {subscriptions : Option Config}

/-- Nothing is written, and none of the incidents to resolve exists. -/
theorem of_absent {closes : List ℤ} (h : ∀ i ∈ s.incidents.rows, i.id ∉ closes) (now : ℤ)
    (notes : List ℤ) : s.Redates now closes notes s where
  rows := ⟨id, [], by simp, fun i hi => ⟨rfl, rfl, by simp [h i hi]⟩, by simp⟩
  updates _ hu := .inl hu

theorem of_eq (now : ℤ) (s : Store) : s.Redates now [] [] s :=
  of_absent (fun _ _ => List.not_mem_nil) now []

/-- Creating an incident with its first entry. -/
theorem of_insert {i : Incident} {state : IncidentState} {text : String} {auto : Bool}
    (hrows : s'.incidents.rows = s.incidents.rows ++ [i])
    (hi : i.createdAt = now ∧ i.resolvedAt = none)
    (hupdates : s'.updates = (s.addUpdate s.incidents.next now state text auto).updates) :
    s.Redates now [] [] s' where
  rows := by
    refine ⟨id, [i], by rw [hrows, List.map_id], fun i _ => ⟨rfl, rfl, by simp⟩, ?_⟩
    exact List.forall_mem_singleton.mpr hi
  updates u hu := by
    rw [hupdates, mem_updates_addUpdate] at hu
    refine hu.imp_right ?_
    rintro rfl
    exact ⟨rfl, .inr (.inr (Int.le_refl _))⟩

/-- Closing an incident and writing so. -/
theorem of_close {state : IncidentState} {text : String} {auto : Bool}
    (hincidents : s'.incidents = (s.resolveIncident id now).incidents)
    (hupdates : s'.updates = (s.addUpdate id now state text auto).updates) :
    s.Redates now [id] [] s' where
  rows := by
    refine ⟨fun i => if i.id == id then i.closed now else i, [], ?_, fun i _ => ?_, by simp⟩
    · rw [hincidents, List.append_nil]
      rfl
    · by_cases hid : i.id = id <;> simp [hid, Incident.closed]
  updates u hu := by
    rw [hupdates, mem_updates_addUpdate] at hu
    refine hu.imp_right ?_
    rintro rfl
    exact ⟨rfl, .inl List.mem_cons_self⟩

theorem opened (pf : Platform) (subscriptions : Option Config) (input : AlertInput) (s : Store) :
    s.Redates input.now [] [] (s.opened pf subscriptions input) :=
  of_insert rows_opened ⟨rfl, rfl⟩ updates_opened

theorem recovered (subscriptions : Option Config) (input : AlertInput) (id : ℤ) (s : Store) :
    s.Redates input.now [id] [] (s.recovered subscriptions input id) :=
  of_close incidents_recovered updates_recovered

theorem operatorCreated (cfg : Config) (form : CreateIncidentForm) (now : ℤ) (s : Store) :
    s.Redates now [] [] (s.operatorCreated cfg form now) :=
  of_insert (rows_operatorCreated form) ⟨rfl, rfl⟩
    (by rw [Store.operatorCreated, updates_publishIncident]; rfl)

theorem operatorResolved (cfg : Config) (id now : ℤ) (s : Store) :
    s.Redates now [id] [] (s.operatorResolved cfg id now) :=
  of_close incidents_operatorResolved
    (by rw [Store.operatorResolved, updates_publishIncident]; rfl)

theorem operatorUpdated (cfg : Config) (id : ℤ) (form : UpdateForm) (now : ℤ) (s : Store) :
    s.Redates now (if form.incidentState = .resolved then [id] else [])
      (if form.incidentState = .resolved then [] else [id])
      (s.operatorUpdated cfg id form now) := by
  have hupdates : (s.operatorUpdated cfg id form now).updates =
      (s.addUpdate id now form.incidentState form.message false).updates := by
    rw [Store.operatorUpdated, updates_publishIncident]
    split <;> rfl
  by_cases hres : form.incidentState = .resolved
  · rw [if_pos hres, if_pos hres]
    refine of_close ?_ hupdates
    rw [Store.operatorUpdated, incidents_publishIncident, if_pos hres]
    rfl
  · rw [if_neg hres, if_neg hres]
    constructor
    · refine ⟨fun i => if i.id == id then { i with state := form.incidentState } else i, [], ?_,
        fun i _ => ?_, by simp⟩
      · rw [Store.operatorUpdated, incidents_publishIncident, if_neg hres, List.append_nil]
        rfl
      · by_cases hid : i.id = id <;> simp [hid]
    · intro u hu
      rw [hupdates, mem_updates_addUpdate] at hu
      refine hu.imp_right ?_
      rintro rfl
      exact ⟨rfl, .inr (.inl List.mem_cons_self)⟩

theorem forgotten (pf : Platform) (cfg : Config) (previous : Option Config) (now : ℤ) (s : Store) :
    s.Redates now (s.forgottenIds pf cfg) [] (s.forgotten pf cfg previous now) where
  rows := by
    refine ⟨fun i => if i.id ∈ s.forgottenIds pf cfg then i.closed now else i, [], ?_,
      fun i _ => ?_, by simp⟩
    · rw [Store.forgotten, rows_foldl_forgotOne, List.append_nil]
      rfl
    · by_cases hid : i.id ∈ s.forgottenIds pf cfg <;> simp [hid, Incident.closed]
  updates u hu := by
    refine (updates_forgotten hu).imp_right ?_
    rintro ⟨i, hi, hact, hab, huid, hts⟩
    exact ⟨hts, .inl (huid ▸ (mem_forgottenIds hi).mpr ⟨hact, hab⟩)⟩

end Store.Redates

section Step

variable {pf : Platform} {w : World}

open AlertEngine

theorem redates_fedStore (input : AlertInput) :
    w.store.Redates input.now ((Op.handle input).closes pf w) [] (fedStore pf w input) := by
  unfold fedStore Op.closes
  dsimp only
  by_cases hopens : (effective w input.check.id).opens input.check input.ok
  · have hstays : ¬(effective w input.check.id).recovers input.check input.ok := fun h =>
      CheckMachine.not_opens_of_recovers h hopens
    rw [if_pos hopens, if_neg hstays]
    split
    · exact .of_eq _ _
    · exact .opened _ _ _ _
  rw [if_neg hopens]
  split_ifs
  · split
    · rename_i id hid
      rw [hid]
      exact .recovered _ _ _ _
    · rename_i hid
      rw [hid]
      exact .of_eq _ _
  · exact .of_eq _ _

/-- **What an operation does to the times of the feed.** -/
theorem redates_step (pf : Platform) (w : World) (clock : ℤ) (op : Op) :
    w.store.Redates (op.time clock) (op.closes pf w) op.notes (step pf w op).store := by
  cases op with
  | start cfg now =>
    rw [store_start]
    exact .forgotten _ _ _ _ _
  | reload cfg now =>
    rw [store_reload]
    exact .forgotten _ _ _ _ _
  | follow => exact .of_eq _ _
  | handle input =>
    rw [step_handle, store_handled]
    exact redates_fedStore input
  | create form now =>
    rw [step_create]
    exact .operatorCreated _ _ _ _
  | update id form now =>
    rw [step_update]
    split
    · exact .operatorUpdated _ _ _ _ _
    · rename_i hnone
      refine .of_absent (fun i hi hmem => hnone (Store.exists_incident_iff.mpr ⟨i, hi, ?_⟩)) _ _
      simp only [Op.closes] at hmem
      split_ifs at hmem
      · exact List.mem_singleton.mp hmem
      · exact absurd hmem List.not_mem_nil
  | resolve id now =>
    rw [step_resolve]
    split
    · exact .operatorResolved _ _ _ _
    · rename_i hnone
      refine .of_absent (fun i hi hmem => hnone (Store.exists_incident_iff.mpr ⟨i, hi, ?_⟩)) _ _
      exact List.mem_singleton.mp hmem

end Step

/-! ### The invariant -/

/-- What is relied on between operations, at a time and after the feed has shown `seen`. -/
structure Store.Current (clock : ℤ) (seen : Option ℤ) (s : Store) : Prop where
  dated : ∀ i ∈ s.incidents.rows, i.createdAt ≤ i.feedUpdated ∧ i.feedUpdated ≤ clock
  entered : ∀ u ∈ s.updates.rows, u.ts ≤ clock
  /-- The incidents created last have changed last. -/
  topmost : ∀ i ∈ s.incidents.rows, s.Buried i.createdAt ∨
    ∀ j ∈ s.incidents.rows, s.Topmost j.createdAt → i.feedUpdated ≤ j.feedUpdated
  shown : ∀ i ∈ s.incidents.rows, s.Buried i.createdAt ∨
    ∀ u ∈ s.updates.rows, u.incidentId = i.id → u.ts ≤ i.feedUpdated
  seen : ∀ t ∈ seen, t ≤ clock ∧
    ∀ j ∈ s.incidents.rows, s.Topmost j.createdAt → t ≤ j.feedUpdated

/-- What an operation resolves is created last or not listed, and it leaves no open incident that is
listed with an entry later than its time. -/
def Store.Announces (now : ℤ) (closes notes : List ℤ) (s : Store) : Prop :=
  (∀ i ∈ s.incidents.rows, i.id ∈ closes → s.Buried i.createdAt ∨
    ∀ j ∈ s.incidents.rows, s.Topmost j.createdAt → j.id ∈ closes ∨ now ≤ j.feedUpdated) ∧
  ∀ i ∈ s.incidents.rows, i.id ∈ notes → s.Buried i.createdAt ∨ now ≤ i.feedUpdated

instance (now : ℤ) (closes notes : List ℤ) (s : Store) : Decidable (s.Announces now closes notes) :=
  @instDecidableAnd _ _ (List.decidableBAll _ _) (List.decidableBAll _ _)

namespace Store.Redates

variable {s s' : Store} {now clock t : ℤ} {closes notes : List ℤ} {seen : Option ℤ}
  {i' : Incident}

/-- An incident after an operation: an earlier one, or a new one. -/
theorem cases (h : s.Redates now closes notes s') (hi' : i' ∈ s'.incidents.rows) :
    (∃ i ∈ s.incidents.rows, i'.id = i.id ∧ i'.createdAt = i.createdAt ∧
      i'.feedUpdated = if i.id ∈ closes then now else i.feedUpdated) ∨
    i'.createdAt = now ∧ i'.feedUpdated = now := by
  obtain ⟨f, new, hrows, hf, hnew⟩ := h.rows
  rw [hrows] at hi'
  rcases List.mem_append.mp hi' with hi' | hi'
  · obtain ⟨i, hi, rfl⟩ := List.mem_map.mp hi'
    obtain ⟨hid, hcreated, hresolved⟩ := hf i hi
    refine .inl ⟨i, hi, hid, hcreated, ?_⟩
    rw [Incident.feedUpdated, Incident.feedUpdated, hresolved, hcreated]
    split_ifs <;> rfl
  · obtain ⟨hcreated, hresolved⟩ := hnew i' hi'
    refine .inr ⟨hcreated, ?_⟩
    rw [Incident.feedUpdated, hresolved, hcreated]
    rfl

theorem buried (h : s.Redates now closes notes s') (hb : s.Buried t) : s'.Buried t := by
  obtain ⟨f, new, hrows, hf, -⟩ := h.rows
  have hcount : (s.incidents.rows.map f).countP (fun j => t < j.createdAt) =
      s.incidents.rows.countP fun j => t < j.createdAt := by
    rw [List.countP_map]
    refine List.countP_congr fun i hi => ?_
    rw [Function.comp_apply, (hf i hi).2.1]
  rw [Buried] at hb ⊢
  rw [hrows, List.countP_append, hcount]
  omega

/-- An incident created last was one before, or is new. -/
theorem topmost (h : s.Redates now closes notes s') (hi' : i' ∈ s'.incidents.rows)
    (htop : s'.Topmost i'.createdAt) :
    (∃ i ∈ s.incidents.rows, s.Topmost i.createdAt ∧
      i'.feedUpdated = if i.id ∈ closes then now else i.feedUpdated) ∨ i'.feedUpdated = now := by
  rcases h.cases hi' with ⟨i, hi, -, hcreated, hupdated⟩ | ⟨-, hupdated⟩
  · refine .inl ⟨i, hi, fun k hk => ?_, hupdated⟩
    obtain ⟨f, new, hrows, hf, -⟩ := h.rows
    have hle := htop (f k) (hrows ▸ List.mem_append_left _ (List.mem_map_of_mem hk))
    rwa [(hf k hk).2.1, hcreated] at hle
  · exact .inr hupdated

/-- A time that the incidents created last, as they are resolved, are not before. -/
theorem le_topmost (h : s.Redates now closes notes s') (ht : t ≤ now)
    (htop : ∀ i ∈ s.incidents.rows, s.Topmost i.createdAt →
      t ≤ if i.id ∈ closes then now else i.feedUpdated) :
    ∀ i' ∈ s'.incidents.rows, s'.Topmost i'.createdAt → t ≤ i'.feedUpdated := by
  intro i' hi' hitop
  rcases h.topmost hi' hitop with ⟨i, hi, hitop, hupdated⟩ | hupdated
  · rw [hupdated]
    exact htop i hi hitop
  · rwa [hupdated]

end Store.Redates

namespace Store.Current

variable {s s' : Store} {now clock : ℤ} {closes notes : List ℤ} {seen : Option ℤ} {i : Incident}

/-- Resolving an incident does not move its time back. -/
theorem le_redated (h : s.Current clock seen) (hle : clock ≤ now) (hi : i ∈ s.incidents.rows)
    (closes : List ℤ) :
    i.feedUpdated ≤ if i.id ∈ closes then now else i.feedUpdated := by
  split_ifs
  · exact (h.dated i hi).2.trans hle
  · exact Int.le_refl _

theorem dated_redates (h : s.Current clock seen) (hm : s.Redates now closes notes s')
    (hle : clock ≤ now) :
    ∀ i' ∈ s'.incidents.rows, i'.createdAt ≤ i'.feedUpdated ∧ i'.feedUpdated ≤ now := by
  intro i' hi'
  rcases hm.cases hi' with ⟨i, hi, -, hcreated, hupdated⟩ | ⟨hcreated, hupdated⟩
  · have hdated := h.dated i hi
    rw [hcreated, hupdated]
    split_ifs <;> omega
  · omega

theorem entered_redates (h : s.Current clock seen) (hm : s.Redates now closes notes s')
    (hle : clock ≤ now) : ∀ u ∈ s'.updates.rows, u.ts ≤ now := by
  intro u hu
  rcases hm.updates u hu with hu | ⟨hts, -⟩
  · exact (h.entered u hu).trans hle
  · exact hts.le

theorem topmost_redates (h : s.Current clock seen) (hm : s.Redates now closes notes s')
    (hle : clock ≤ now) (ha : s.Announces now closes notes) :
    ∀ i' ∈ s'.incidents.rows, s'.Buried i'.createdAt ∨
      ∀ j' ∈ s'.incidents.rows, s'.Topmost j'.createdAt → i'.feedUpdated ≤ j'.feedUpdated := by
  intro i' hi'
  rcases hm.cases hi' with ⟨i, hi, -, hcreated, hupdated⟩ | ⟨hcreated, hupdated⟩
  · rcases h.topmost i hi with hb | htop
    · exact .inl (hcreated ▸ hm.buried hb)
    rw [hupdated]
    split_ifs with hclosed
    · -- A resolved incident is created last, up to incidents that changed no earlier.
      rcases ha.1 i hi hclosed with hb | hlast
      · exact .inl (hcreated ▸ hm.buried hb)
      refine .inr (hm.le_topmost (Int.le_refl _) fun j hj hjtop => ?_)
      split_ifs with hjclosed
      · exact Int.le_refl _
      · exact (hlast j hj hjtop).resolve_left hjclosed
    · refine .inr (hm.le_topmost ((h.dated i hi).2.trans hle) fun j hj hjtop => ?_)
      exact (htop j hj hjtop).trans (h.le_redated hle hj closes)
  · -- Nothing that was created before a new incident is created last.
    refine .inr fun j' hj' hjtop => ?_
    have hafter := hjtop i' hi'
    have hdated := h.dated_redates hm hle j' hj'
    omega

theorem shown_redates (h : s.Current clock seen) (hm : s.Redates now closes notes s')
    (hle : clock ≤ now) (ha : s.Announces now closes notes) :
    ∀ i' ∈ s'.incidents.rows, s'.Buried i'.createdAt ∨
      ∀ u ∈ s'.updates.rows, u.incidentId = i'.id → u.ts ≤ i'.feedUpdated := by
  intro i' hi'
  rcases hm.cases hi' with ⟨i, hi, hid, hcreated, hupdated⟩ | ⟨-, hupdated⟩
  · rcases h.shown i hi with hb | hshown
    · exact .inl (hcreated ▸ hm.buried hb)
    by_cases hlate : i.id ∈ notes ∧ ¬now ≤ i.feedUpdated
    · exact .inl (hcreated ▸ hm.buried ((ha.2 i hi hlate.1).resolve_right hlate.2))
    refine .inr fun u hu huid => ?_
    have hmoved := h.le_redated hle hi closes
    rw [hupdated]
    rcases hm.updates u hu with hu | ⟨hts, hwhose⟩
    · exact (hshown u hu (huid.trans hid)).trans hmoved
    rw [huid, hid] at hwhose
    rcases hwhose with hclosed | hnoted | hnew
    · rw [if_pos hclosed, hts]
    · have hnow : now ≤ i.feedUpdated := by
        by_contra hlt
        exact hlate ⟨hnoted, hlt⟩
      omega
    · exact absurd (id_lt_next hi) (Int.not_lt.mpr hnew)
  · refine .inr fun u hu _ => ?_
    rw [hupdated]
    exact h.entered_redates hm hle u hu

/-- **An announced operation keeps the invariant.** -/
theorem redates (h : s.Current clock seen) (hm : s.Redates now closes notes s') (hle : clock ≤ now)
    (ha : s.Announces now closes notes) : s'.Current now seen where
  dated := h.dated_redates hm hle
  entered := h.entered_redates hm hle
  topmost := h.topmost_redates hm hle ha
  shown := h.shown_redates hm hle ha
  seen t ht := by
    obtain ⟨htclock, htop⟩ := h.seen t ht
    refine ⟨htclock.trans hle, hm.le_topmost (htclock.trans hle) fun j hj hjtop => ?_⟩
    exact (htop j hj hjtop).trans (h.le_redated hle hj closes)

end Store.Current

/-! ### Readings -/

/-- What a reading of the feed shows, after one that showed the time `seen`. -/
structure ShowsNews (pf : Platform) (cfg : Config) (headers : HeaderMap) (now : ℤ)
    (seen : Option ℤ) (s : Store) : Prop where
  /-- The time of the feed is the latest of its entries. -/
  latest : (feed pf cfg headers now s).entries ≠ [] →
    IsGreatest {t | ∃ e ∈ (feed pf cfg headers now s).entries, e.updated = t}
      (feed pf cfg headers now s).updated
  /-- No entry has a message from after its time. -/
  current : ∀ i ∈ s.recentIncidents pf 20, ∀ u ∈ (s.incidentUpdates i.id).getLast?,
    u.ts ≤ (feedEntry (feedBase cfg headers) s i).updated
  /-- The time of the feed has not moved back. -/
  moved : ∀ t ∈ seen, t ≤ (feed pf cfg headers now s).updated

namespace Store.Current

variable {pf : Platform} {cfg : Config} {headers : HeaderMap} {s : Store} {now clock : ℤ}
  {seen : Option ℤ} {i : Incident}

/-- The first entry changed last. -/
theorem le_head (h : s.Current clock seen) {first : Incident}
    (hfirst : (s.recentIncidents pf 20).head? = some first) (hi : i ∈ s.recentIncidents pf 20) :
    i.feedUpdated ≤ first.feedUpdated := by
  obtain ⟨hmem, htop⟩ := topmost_of_head? hfirst
  exact (h.topmost i (mem_of_mem_recent hi)).resolve_left (not_buried_of_mem_recent hi) first
    (mem_of_mem_recent hmem) htop

theorem showsNews (h : s.Current clock seen) (hle : clock ≤ now) :
    ShowsNews pf cfg headers now seen s where
  latest hne := by
    cases hfirst : (s.recentIncidents pf 20).head? with
    | none =>
      refine absurd ?_ hne
      rw [feed, List.head?_eq_none_iff.mp hfirst, List.map_nil]
    | some first =>
      rw [updated_feed, hfirst]
      refine ⟨⟨_, List.mem_map_of_mem (List.mem_of_mem_head? hfirst), rfl⟩, ?_⟩
      rintro t ⟨e, he, rfl⟩
      obtain ⟨i, hi, rfl⟩ := List.mem_map.mp he
      exact h.le_head hfirst hi
  current i hi u hu := by
    obtain ⟨hrow, hid⟩ := mem_incidentUpdates.mp (List.mem_of_mem_getLast? hu)
    exact (h.shown i (mem_of_mem_recent hi)).resolve_left (not_buried_of_mem_recent hi) u hrow hid
  moved t ht := by
    obtain ⟨htclock, htop⟩ := h.seen t ht
    rw [updated_feed]
    cases hfirst : (s.recentIncidents pf 20).head? with
    | none => exact htclock.trans hle
    | some first =>
      obtain ⟨hmem, hfirst⟩ := topmost_of_head? hfirst
      exact htop first (mem_of_mem_recent hmem) hfirst

/-- What a reading shows is not later than anything shown afterwards. -/
theorem read (h : s.Current clock seen) (hle : clock ≤ now) :
    s.Current now (some (feed pf cfg headers now s).updated) where
  dated i hi := ⟨(h.dated i hi).1, (h.dated i hi).2.trans hle⟩
  entered u hu := (h.entered u hu).trans hle
  topmost := h.topmost
  shown := h.shown
  seen t ht := by
    obtain rfl := Option.some.inj ht
    rw [updated_feed]
    cases hfirst : (s.recentIncidents pf 20).head? with
    | none =>
      have hrows := rows_of_recent_nil (List.head?_eq_none_iff.mp hfirst)
      exact ⟨Int.le_refl _, by simp [hrows]⟩
    | some first =>
      have hmem := List.mem_of_mem_head? hfirst
      have hrow := mem_of_mem_recent hmem
      exact ⟨(h.dated first hrow).2.trans hle,
        (h.topmost first hrow).resolve_left (not_buried_of_mem_recent hmem)⟩

end Store.Current

/-! ### Runs -/

/-- A site with the time of the last operation or reading, and what the last reading showed. -/
structure FeedWorld where
  world : World
  clock : ℤ
  seen : Option ℤ

/-- An operation, or a reading of the feed. -/
inductive FeedOp
  | change (op : Op)
  | read (headers : HeaderMap) (now : ℤ)

/-- A site that has never run, on an empty database. -/
def FeedWorld.initial (cfg : Config) (clock : ℤ) : FeedWorld := ⟨.initial .empty cfg, clock, none⟩

def FeedWorld.Current (x : FeedWorld) : Prop := x.world.store.Current x.clock x.seen

theorem FeedWorld.current_initial (cfg : Config) (clock : ℤ) :
    (FeedWorld.initial cfg clock).Current := by
  constructor <;> simp [FeedWorld.initial, World.initial, Store.empty]

namespace FeedOp

variable (pf : Platform)

def step (x : FeedWorld) : FeedOp → FeedWorld
  | .change op => { x with world := Dunlin.step pf x.world op, clock := op.time x.clock }
  | .read headers now =>
    { x with
      clock := now
      seen := some (feed pf x.world.running headers now x.world.store).updated }

/-- Time does not go back. -/
def InOrder (x : FeedWorld) : FeedOp → Prop
  | .change op => x.clock ≤ op.time x.clock
  | .read _ now => x.clock ≤ now

/-- What an operation writes shows in the times of the feed. -/
def Announced (x : FeedWorld) : FeedOp → Prop
  | .change op => x.world.store.Announces (op.time x.clock) (op.closes pf x.world) op.notes
  | .read .. => True

/-- A reading shows the news. -/
def Shows (x : FeedWorld) : FeedOp → Prop
  | .change _ => True
  | .read headers now => ShowsNews pf x.world.running headers now x.seen x.world.store

instance (x : FeedWorld) : ∀ op, Decidable (InOrder x op)
  | .change _ => inferInstanceAs (Decidable (_ ≤ _))
  | .read .. => inferInstanceAs (Decidable (_ ≤ _))

instance (x : FeedWorld) : ∀ op, Decidable (Announced pf x op)
  | .change op => inferInstanceAs (Decidable (Store.Announces (op.time x.clock) _ _ _))
  | .read .. => isTrue trivial

variable {pf}

theorem current_step {x : FeedWorld} {op : FeedOp} (h : x.Current) (hle : op.InOrder x)
    (ha : op.Announced pf x) : (op.step pf x).Current := by
  cases op with
  | change op => exact h.redates (redates_step pf x.world x.clock op) hle ha
  | read headers now => exact Store.Current.read h hle

theorem shows {x : FeedWorld} {op : FeedOp} (h : x.Current) (hle : op.InOrder x) :
    op.Shows pf x := by
  cases op with
  | change op => trivial
  | read headers now => exact h.showsNews hle

end FeedOp

/-- **The times of the feed move with the news in every run of announced operations**: at every
reading the time of the feed is the latest of its entries, no entry has a message from after its
time, and the time of the feed is no earlier than at the reading before. -/
theorem feed_moves (pf : Platform) (cfg : Config) (clock : ℤ) (ops : List FeedOp)
    (horder : Always (FeedOp.step pf) FeedOp.InOrder (.initial cfg clock) ops)
    (h : Always (FeedOp.step pf) (FeedOp.Announced pf) (.initial cfg clock) ops) :
    Always (FeedOp.step pf) (FeedOp.Shows pf) (.initial cfg clock) ops :=
  (horder.and h).of_inv (FeedWorld.current_initial cfg clock)
    (fun _ _ hx hop => FeedOp.current_step hx hop.1 hop.2) fun _ _ hx hop => FeedOp.shows hx hop.1

/-! ### News the times miss -/

def manualForm : CreateIncidentForm where
  component := "web"
  title := "Outage"

def identifiedForm : UpdateForm := ⟨"identified", "A disk is full."⟩

/-- Two incidents; the newer one gets an update, and the older one is resolved. -/
def missedRun : List FeedOp :=
  [.change (.create manualForm 100), .change (.create manualForm 200),
    .change (.update 2 identifiedForm 250), .change (.resolve 1 300), .read (fun _ => []) 300]

/-- The feed's time is 200 then. One of its entries is of 300, and the other is of 200 and has a
message of 250. -/
theorem missedRun_not_shown :
    Always (FeedOp.step .ascii) FeedOp.InOrder (.initial quickConfig 0) missedRun ∧
      ¬Always (FeedOp.step .ascii) (FeedOp.Shows .ascii) (.initial quickConfig 0) missedRun := by
  refine ⟨by decide, fun h => ?_⟩
  have hread := h.2.2.2.2.1
  have hlatest : ∀ e ∈ (feed .ascii quickConfig (fun _ => []) 300 _).entries, e.updated ≤
      (feed .ascii quickConfig (fun _ => []) 300 _).updated := fun e he =>
    (hread.latest (List.ne_nil_of_mem he)).2 ⟨e, he, rfl⟩
  exact absurd hlatest (by decide)

/-- An incident that is resolved before the next one is created, with readings in between. -/
def announcedRun : List FeedOp :=
  [.change (.create manualForm 100), .read (fun _ => []) 100, .change (.resolve 1 150),
    .read (fun _ => []) 200, .change (.create manualForm 300),
    .change (.update 2 ⟨"resolved", "Back."⟩ 400), .read (fun _ => []) 500]

theorem feed_moves_announcedRun :
    Always (FeedOp.step .ascii) (FeedOp.Shows .ascii) (.initial quickConfig 0) announcedRun :=
  feed_moves .ascii quickConfig 0 announcedRun (by decide) (by decide)

end Dunlin

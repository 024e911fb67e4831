import Dunlin.AlertFaults

/-!
# A clean-up that fails and is tried again

`prober_loop` reconciles the engine with a reloaded config at every tick until
`forgetUnmonitored` gets through. A call that fails leaves what its statements did: the incidents it
was through with, and possibly one it was at work on. The next call looks for its work among the
open incidents, so an incident whose row is closed is not looked at again, whether its timeline and
its subscribers know or not, and the machines that point at it are not dropped.

A sweep is described by what it added (`Swept`): which incidents it closed, which timeline entries
it wrote and which incidents it announced. Sweeps compose, and a retried clean-up is compared with
a clean one by what it missed (`Missed`).

## Main results

* `Swept` — what a sweep has closed, noted and announced, and how sweeps compose
* `wpAt_forgetUnmonitored` — what a clean-up leaves that fails at a given statement
* `sameOutcome_iff` — two outcomes are alike when nothing was missed
* `retry_safe` — for any number of failing calls, and one that gets through
-/

namespace Dunlin

open Lib AlertEngine

/-! ### Up to timestamps and row ids -/

/-- An incident without its timestamps. -/
def Incident.shape (i : Incident) : Incident :=
  { i with
    createdAt := 0
    resolvedAt := i.resolvedAt.map fun _ => 0 }

/-- A timeline entry without its timestamp and row id. -/
def IncidentUpdate.shape (u : IncidentUpdate) : IncidentUpdate :=
  { u with
    id := 0
    ts := 0 }

/-- A queued message without its timestamps and row id. -/
def OutboxRow.shape (o : OutboxRow) : OutboxRow :=
  { o with
    id := 0
    createdAt := 0
    nextAttemptAt := 0
    sentAt := o.sentAt.map fun _ => 0
    failedAt := o.failedAt.map fun _ => 0 }

/-- Two worlds with the same incidents, timeline entries, queued messages and machines, up to
timestamps and row ids. -/
structure SameOutcome (w w' : World) : Prop where
  incidents : w.store.incidents.rows.map Incident.shape = w'.store.incidents.rows.map Incident.shape
  updates : (w.store.updates.rows.map IncidentUpdate.shape).Perm
    (w'.store.updates.rows.map IncidentUpdate.shape)
  outbox : (w.store.subs.outbox.rows.map OutboxRow.shape).Perm
    (w'.store.subs.outbox.rows.map OutboxRow.shape)
  machines : w.engine.machines = w'.engine.machines

/-! ### What a sweep adds -/

/-- The incidents a clean-up closes, in the order it goes through them. -/
def Store.targets (pf : Platform) (cfg : Config) (s : Store) : List Incident :=
  (s.activeIncidents pf).filter cfg.abandons

/-- The entry that closes an incident's timeline. -/
def forgetEntry (previous : Option Config) (i : Incident) : IncidentUpdate where
  id := 0
  incidentId := i.id
  ts := 0
  state := .resolved
  message := forgetText previous i
  auto := true

/-- What subscribers are told about an incident that is closed. -/
def forgetEvent (cfg : Config) (previous : Option Config) (i : Incident) : SubscriberEvent :=
  .incidentResolved (incidentEvent cfg { i with state := .resolved } (forgetText previous i))

/-- The messages queued when an incident is closed. -/
def forgetMessages (cfg : Config) (previous : Option Config) (subs : Subs) (i : Incident) :
    List OutboxRow :=
  if cfg.subscriptions.enabled && !i.quiet then
    (subs.subscribers.rows.filter (subs.concerns (forgetEvent cfg previous i))).map fun r =>
      OutboxRow.queued r.id (forgetEvent cfg previous i).kind
        (.json (forgetEvent cfg previous i)) 0 0
  else []

/-- The tables with an abandoned incident closed that nobody has been told about. -/
def Store.forgotNoted (previous : Option Config) (now : ℤ) (s : Store) (i : Incident) : Store :=
  (s.resolveIncident i.id now).addUpdate i.id now .resolved (forgetText previous i) true

/-- `s'` is `s` with the incidents `closed` closed, the timeline entries of `noted` written and the
messages of `told` queued. -/
structure Swept (cfg : Config) (previous : Option Config) (s : Store)
    (closed noted told : List Incident) (s' : Store) : Prop where
  incidents : ∃ time : ℤ → ℤ, s'.incidents.rows = s.incidents.rows.map fun i =>
    if i.id ∈ closed.map (·.id) then i.closed (time i.id) else i
  updates : s'.updates.rows.map IncidentUpdate.shape =
    s.updates.rows.map IncidentUpdate.shape ++ noted.map (forgetEntry previous)
  outbox : s'.subs.outbox.rows.map OutboxRow.shape =
    s.subs.outbox.rows.map OutboxRow.shape ++ told.flatMap (forgetMessages cfg previous s.subs)
  subscribers : s'.subs.subscribers = s.subs.subscribers
  components : s'.subs.components = s.subs.components

/-- Who is told does not depend on what is queued. -/
theorem forgetMessages_congr {cfg : Config} {previous : Option Config} {subs subs' : Subs}
    (hsubs : subs'.subscribers = subs.subscribers) (hcomps : subs'.components = subs.components) :
    forgetMessages cfg previous subs' = forgetMessages cfg previous subs := by
  funext i
  have hconcerns : subs'.concerns (forgetEvent cfg previous i) =
      subs.concerns (forgetEvent cfg previous i) := by
    funext r
    rw [Subs.concerns, Subs.concerns, hcomps]
  rw [forgetMessages, forgetMessages, hsubs, hconcerns]

namespace Swept

variable {cfg : Config} {previous : Option Config} {s s' s'' : Store}
  {closed closed' noted noted' told told' : List Incident} {now : ℤ} {i : Incident}

theorem refl (s : Store) : Swept cfg previous s [] [] [] s where
  incidents := ⟨fun _ => 0, by simp⟩
  updates := by simp
  outbox := by simp
  subscribers := rfl
  components := rfl

theorem trans (h : Swept cfg previous s closed noted told s')
    (h' : Swept cfg previous s' closed' noted' told' s'') :
    Swept cfg previous s (closed ++ closed') (noted ++ noted') (told ++ told') s'' := by
  obtain ⟨time, hrows⟩ := h.incidents
  obtain ⟨time', hrows'⟩ := h'.incidents
  refine ⟨⟨fun id => if id ∈ closed'.map (·.id) then time' id else time id, ?_⟩, ?_, ?_, ?_, ?_⟩
  · rw [hrows', hrows, List.map_map]
    refine List.map_congr_left fun i _ => ?_
    have happ : i.id ∈ (closed ++ closed').map (·.id) ↔
        i.id ∈ closed.map (·.id) ∨ i.id ∈ closed'.map (·.id) := by
      rw [List.map_append, List.mem_append]
    by_cases hc : i.id ∈ closed.map (·.id) <;> by_cases hc' : i.id ∈ closed'.map (·.id) <;>
      simp only [Function.comp_apply, happ, hc, hc', Incident.closed, if_true, if_false, or_self,
        or_true, true_or]
  · rw [h'.updates, h.updates, List.append_assoc, List.map_append]
  · rw [h'.outbox, h.outbox, forgetMessages_congr h.subscribers h.components, List.append_assoc,
      List.flatMap_append]
  · rw [h'.subscribers, h.subscribers]
  · rw [h'.components, h.components]

/-- A sweep leaves alone the incidents it does not close. -/
theorem mem_of_mem (h : Swept cfg previous s closed noted told s') (hi : i ∈ s.incidents.rows)
    (hn : i.id ∉ closed.map (·.id)) : i ∈ s'.incidents.rows := by
  obtain ⟨time, hrows⟩ := h.incidents
  rw [hrows, List.mem_map]
  exact ⟨i, hi, if_neg hn⟩

/-! ### One incident -/

theorem resolveIncident (s : Store) (i : Incident) (now : ℤ) :
    Swept cfg previous s [i] [] [] (s.resolveIncident i.id now) where
  incidents := ⟨fun _ => now, by simp [Store.resolveIncident, Table.update]⟩
  updates := by simp [Store.resolveIncident]
  outbox := by simp [Store.resolveIncident]
  subscribers := rfl
  components := rfl

theorem addUpdate (s : Store) (i : Incident) (now : ℤ) :
    Swept cfg previous s [] [i] []
      (s.addUpdate i.id now .resolved (forgetText previous i) true) where
  incidents := ⟨fun _ => 0, by simp [Store.addUpdate]⟩
  updates := by simp [Store.addUpdate, IncidentUpdate.shape, forgetEntry]
  outbox := by simp [Store.addUpdate]
  subscribers := rfl
  components := rfl

theorem forgotNoted (s : Store) (i : Incident) (now : ℤ) :
    Swept cfg previous s [i] [i] [] (s.forgotNoted previous now i) :=
  (resolveIncident s i now).trans (addUpdate _ i now)

/-- Publishing queues the messages of the incident, once its row is closed. -/
theorem publishIncident {time : ℤ} (hi : s.incident i.id = some (i.closed time)) (now : ℤ) :
    Swept cfg previous s [] [] [i]
      (s.publishIncident cfg i.id .resolved (forgetText previous i) now) := by
  have hevent : IncidentChange.resolved.event
      (incidentEvent cfg (i.closed time) (forgetText previous i)) = forgetEvent cfg previous i :=
    rfl
  refine ⟨⟨fun _ => 0, by simp⟩, by simp, ?_, ?_, ?_⟩
  · rw [Store.publishIncident, hi]
    dsimp only
    rw [hevent, List.flatMap_singleton, forgetMessages,
      show (i.closed time).quiet = i.quiet from rfl]
    cases hq : i.quiet with
    | true => simp
    | false =>
      cases he : cfg.subscriptions.enabled with
      | false => simp [Store.publish_of_disabled he]
      | true =>
        have hshape : ∀ r : Subscriber, ∀ n, (OutboxRow.queued r.id
            (forgetEvent cfg previous i).kind (.json (forgetEvent cfg previous i)) now n).shape =
            OutboxRow.queued r.id (forgetEvent cfg previous i).kind
              (.json (forgetEvent cfg previous i)) 0 0 := fun _ _ => rfl
        simp only [Store.publish, Subs.publish, he, Subs.fanOut, Table.rows_insertMany,
          List.map_append, List.map_map, Function.comp_def, hshape, Bool.not_true,
          Bool.false_eq_true, if_false, Bool.not_false, Bool.and_self, if_true]
        rw [← Table.map_snd_numbered s.subs.outbox.next (List.filter _ _), List.map_map]
        simp only [Function.comp_def]
        rw [Table.map_snd_numbered]
  · rw [Store.publishIncident, hi]
    dsimp only
    split
    · rfl
    · rw [Store.publish, Subs.publish]
      split <;> exact rfl
  · rw [Store.publishIncident, hi]
    dsimp only
    split
    · rfl
    · rw [Store.publish, Subs.publish]
      split <;> exact rfl

theorem forgotOne (hab : cfg.abandons i) (hi : i ∈ s.incidents.rows) (now : ℤ) :
    Swept cfg previous s [i] [i] [i] (s.forgotOne cfg previous now i) := by
  have hrow : (s.forgotNoted previous now i).incident i.id = some (i.closed now) := by
    rw [Store.incident_eq_some_iff]
    exact ⟨Store.mem_resolveIncident.mpr ⟨i, hi, if_pos rfl⟩, rfl⟩
  have hone : Swept cfg previous s ([i] ++ []) ([i] ++ []) ([] ++ [i]) _ :=
    (forgotNoted s i now).trans (publishIncident hrow now)
  rw [Store.forgotOne, if_pos hab]
  exact hone

/-- Going through incidents of the table. -/
theorem foldl_forgotOne (now : ℤ) :
    ∀ (l : List Incident) (s : Store), (∀ i ∈ l, cfg.abandons i ∧ i ∈ s.incidents.rows) →
      (l.map (·.id)).Nodup →
        Swept cfg previous s l l l (l.foldl (Store.forgotOne cfg previous now) s)
  | [], s, _, _ => refl s
  | i :: l, s, h, hnodup => by
    obtain ⟨hab, hi⟩ := h i List.mem_cons_self
    obtain ⟨hnot, hnodup⟩ := List.nodup_cons.mp hnodup
    have hone : Swept cfg previous s [i] [i] [i] _ := forgotOne hab hi now
    refine hone.trans (foldl_forgotOne now l _ (fun j hj => ?_) hnodup)
    obtain ⟨habj, hjrows⟩ := h j (List.mem_cons_of_mem i hj)
    refine ⟨habj, hone.mem_of_mem hjrows fun hid => hnot ?_⟩
    rw [List.map_singleton, List.mem_singleton] at hid
    show i.id ∈ l.map (·.id)
    rw [← hid]
    exact List.mem_map_of_mem hj

end Swept

/-! ### The incidents a sweep leaves to close -/

section Targets

variable {pf : Platform} {cfg : Config} {previous : Option Config} {s s' : Store}
  {closed noted told rest : List Incident} {i : Incident}

theorem Store.mem_targets :
    i ∈ s.targets pf cfg ↔ i ∈ s.incidents.rows ∧ i.isActive ∧ cfg.abandons i := by
  rw [targets, List.mem_filter, mem_activeIncidents, and_assoc]

theorem Store.nodup_targets : ((s.targets pf cfg).map (·.id)).Nodup :=
  (List.filter_sublist.map _).nodup nodup_activeIncidents

/-- What is left to close after a sweep of some of the targets is the others. -/
theorem Swept.targets (h : Swept cfg previous s closed noted told s')
    (hs : s.targets pf cfg = closed ++ rest) : (s'.targets pf cfg).Perm rest := by
  have hnodup : ((closed ++ rest).map (·.id)).Nodup := hs ▸ Store.nodup_targets
  have hdisj : ∀ j ∈ rest, j.id ∉ closed.map (·.id) := by
    intro j hj hid
    rw [List.map_append, List.nodup_append] at hnodup
    exact hnodup.2.2 j.id hid j.id (List.mem_map_of_mem hj) rfl
  have hrest : rest.Nodup := by
    rw [List.map_append] at hnodup
    exact (List.nodup_append.mp hnodup).2.1.of_map
  refine (List.perm_ext_iff_of_nodup (Store.nodup_targets.of_map) hrest).mpr fun j => ?_
  constructor
  · intro hj
    obtain ⟨hrow, hact, hab⟩ := Store.mem_targets.mp hj
    obtain ⟨time, hrows⟩ := h.incidents
    rw [hrows, List.mem_map] at hrow
    obtain ⟨j₀, hj₀, rfl⟩ := hrow
    by_cases hc : j₀.id ∈ closed.map (·.id)
    · rw [if_pos hc] at hact
      exact absurd hact (by simp [Incident.isActive, Incident.closed])
    · rw [if_neg hc] at hact hab ⊢
      have hmem : j₀ ∈ closed ++ rest := hs ▸ Store.mem_targets.mpr ⟨hj₀, hact, hab⟩
      rcases List.mem_append.mp hmem with hmem | hmem
      · exact absurd (List.mem_map_of_mem hmem) hc
      · exact hmem
  · intro hj
    obtain ⟨hrow, hact, hab⟩ := Store.mem_targets.mp
      (show j ∈ s.targets pf cfg from hs ▸ List.mem_append_right closed hj)
    exact Store.mem_targets.mpr ⟨h.mem_of_mem hrow (hdisj j hj), hact, hab⟩

end Targets

/-! ### The statements of a clean-up -/

/-- The statements of `publishIncident` for an incident that exists. -/
def Config.publishCost (cfg : Config) (i : Incident) : ℕ :=
  if cfg.subscriptions.enabled then if i.quiet then 2 else 3 else 0

/-- The statements that closing one incident takes. -/
def Config.forgetCost (cfg : Config) (i : Incident) : ℕ := 2 + cfg.publishCost i

section Programs

variable {pf : Platform} {cfg : Config} {previous : Option Config} {now : ℤ} {w : World}
  {i : Incident} {id : ℤ} {change : IncidentChange} {text : String}

theorem cost_publishIncident (hi : w.store.incident id = some i) :
    (publishIncident cfg id change text now).cost w = cfg.publishCost i := by
  rw [publishIncident, Config.publishCost]
  cases cfg.subscriptions.enabled with
  | false => rfl
  | true =>
    cases hq : i.quiet <;>
      simp [Prog.bind, Prog.attempt, Prog.cost, select, Prog.query, statement, Prog.exec, hi, hq,
        Store.isQuiet]

/-- A failing statement of `publishIncident` is swallowed, and nobody is told. -/
theorem wpAt_publishIncident {Q : Option Unit → World → Prop} {k : ℕ}
    (hi : w.store.incident id = some i) (hk : k < cfg.publishCost i) :
    (publishIncident cfg id change text now).wpAt k Q w ↔ Q (some ()) w := by
  unfold publishIncident
  unfold Config.publishCost at hk
  cases he : cfg.subscriptions.enabled with
  | false => exact absurd hk (by simp [he])
  | true =>
    rw [he] at hk
    cases hq : i.quiet with
    | true =>
      rw [hq] at hk
      obtain rfl | rfl : k = 0 ∨ k = 1 := by simp at hk; omega
      all_goals simp [Prog.bind, Prog.attempt, Prog.wpAt, select, Prog.query, hi]
    | false =>
      rw [hq] at hk
      obtain rfl | rfl | rfl : k = 0 ∨ k = 1 ∨ k = 2 := by simp at hk; omega
      all_goals simp [Prog.bind, Prog.attempt, Prog.wpAt, select, Prog.query, statement, Prog.exec,
        hi, hq, Store.isQuiet]

/-- The row of an incident just closed. -/
theorem Store.incident_resolveIncident {s : Store} (hi : i ∈ s.incidents.rows) (now : ℤ) :
    (s.resolveIncident i.id now).incident i.id = some (i.closed now) :=
  incident_eq_some_iff.mpr ⟨mem_resolveIncident.mpr ⟨i, hi, if_pos rfl⟩, rfl⟩

/-- Closing an abandoned incident, statement by statement. -/
theorem forgetIncident_of_abandons (hab : cfg.abandons i) (resolved : List ℤ) :
    forgetIncident cfg previous now resolved i =
      (statement (·.resolveIncident i.id now)).bind fun _ =>
        (addUpdate i.id now .resolved (forgetText previous i) true).bind fun _ =>
          (publishIncident cfg i.id .resolved (forgetText previous i) now).bind fun _ =>
            .done (resolved ++ [i.id]) := by
  have hn : (!i.auto || cfg.monitors i.component) = false := by
    simpa [Config.abandons] using hab
  rw [forgetIncident]
  rw [hn]
  rfl

variable {Q : Option (List ℤ) → World → Prop} {resolved : List ℤ}

theorem cost_forgetIncident (hab : cfg.abandons i) (hi : i ∈ w.store.incidents.rows) :
    (forgetIncident cfg previous now resolved i).cost w = cfg.forgetCost i := by
  have hrow := Store.incident_resolveIncident hi now
  have hsome : ((w.onStore (·.resolveIncident i.id now)).store.incident i.id).isSome := by
    rw [World.store_onStore, hrow]
    rfl
  have hnoted : (w.onStore (Store.forgotNoted previous now · i)).store.incident i.id =
      some (i.closed now) := hrow
  have hpublish : ((publishIncident cfg i.id .resolved (forgetText previous i) now).bind
      fun _ => Prog.done (resolved ++ [i.id])).cost
        (w.onStore (Store.forgotNoted previous now · i)) = cfg.publishCost i := by
    rw [Prog.cost_bind, cost_publishIncident hnoted]
    cases ((publishIncident cfg i.id .resolved (forgetText previous i) now).run []
      (w.onStore (Store.forgotNoted previous now · i))).result <;> rfl
  rw [forgetIncident_of_abandons hab]
  show ((addUpdate i.id now .resolved (forgetText previous i) true).bind _).cost
    (w.onStore (·.resolveIncident i.id now)) + 1 = _
  simp only [addUpdate, Prog.bind, Prog.cost, hsome, if_true]
  rw [Config.forgetCost, ← hpublish, Nat.add_comm 2]
  rfl

/-- How closing an incident ends when one of its statements fails. -/
theorem wpAt_forgetIncident (hab : cfg.abandons i) (hi : i ∈ w.store.incidents.rows) {k : ℕ}
    (hk : k < cfg.forgetCost i) :
    (forgetIncident cfg previous now resolved i).wpAt k Q w ↔
      match k with
      | 0 => Q none w
      | 1 => Q none (w.onStore (·.resolveIncident i.id now))
      | _ + 2 =>
        Q (some (resolved ++ [i.id])) (w.onStore (Store.forgotNoted previous now · i)) := by
  have hrow := Store.incident_resolveIncident hi now
  have hsome : ((w.onStore (·.resolveIncident i.id now)).store.incident i.id).isSome := by
    rw [World.store_onStore, hrow]; rfl
  rw [forgetIncident_of_abandons hab]
  match k with
  | 0 => rfl
  | 1 =>
    show ((addUpdate i.id now .resolved (forgetText previous i) true).bind _).wpAt 0 Q
      (w.onStore (·.resolveIncident i.id now)) ↔ _
    rfl
  | k + 2 =>
    have hk : k < cfg.publishCost i := by unfold Config.forgetCost at hk; omega
    show ((addUpdate i.id now .resolved (forgetText previous i) true).bind _).wpAt (k + 1) Q
      (w.onStore (·.resolveIncident i.id now)) ↔ _
    simp only [addUpdate, Prog.bind, Prog.wpAt, hsome, if_true]
    rw [Prog.wpAt_bind_of_lt (by rw [cost_publishIncident (i := i.closed now) hrow]; exact hk)]
    exact wpAt_publishIncident (i := i.closed now) hrow hk

/-! ### The loop -/

/-- The incidents a loop still has to close: abandoned, in the table, and no two of them one. -/
def ToClose (cfg : Config) (l : List Incident) (w : World) : Prop :=
  (∀ i ∈ l, cfg.abandons i ∧ i ∈ w.store.incidents.rows) ∧ (l.map (·.id)).Nodup

variable (cfg previous now) in
theorem toClose_step (i : Incident) (l : List Incident) (resolved : List ℤ) (w : World)
    (h : ToClose cfg (i :: l) w) :
    (forgetIncident cfg previous now resolved i).cost w = cfg.forgetCost i ∧
      (forgetIncident cfg previous now resolved i).wpOk
        (fun r w' => ∃ b', r = some b' ∧ ToClose cfg l w') w := by
  obtain ⟨hall, hnodup⟩ := h
  obtain ⟨hab, hi⟩ := hall i List.mem_cons_self
  obtain ⟨hnot, hnodup⟩ := List.nodup_cons.mp hnodup
  refine ⟨cost_forgetIncident hab hi, ?_⟩
  rw [wpOk_forgetIncident (Store.exists_incident_iff.mpr ⟨i, hi, rfl⟩)]
  refine ⟨_, rfl, fun j hj => ?_, hnodup⟩
  obtain ⟨habj, hjrows⟩ := hall j (List.mem_cons_of_mem i hj)
  have hone : Swept cfg previous w.store [i] [i] [i] _ := Swept.forgotOne hab hi now
  refine ⟨habj, hone.mem_of_mem hjrows fun hid => ?_⟩
  rw [List.map_singleton, List.mem_singleton] at hid
  refine hnot ?_
  show i.id ∈ l.map (·.id)
  rw [← hid]
  exact List.mem_map_of_mem hj

/-- Only the abandoned incidents take statements. -/
theorem foldlM_forgetIncident (l : List Incident) (resolved : List ℤ) :
    l.foldlM (forgetIncident cfg previous now) resolved =
      (l.filter cfg.abandons).foldlM (forgetIncident cfg previous now) resolved := by
  induction l generalizing resolved with
  | nil => rfl
  | cons i l ih =>
    by_cases hab : cfg.abandons i
    · rw [List.filter_cons_of_pos hab, List.foldlM_cons, List.foldlM_cons]
      exact congrArg _ (funext ih)
    · have hskip : forgetIncident cfg previous now resolved i = .done resolved := by
        have hn : (!i.auto || cfg.monitors i.component) = true := by
          simpa [Config.abandons, Classical.or_iff_not_imp_left] using hab
        rw [forgetIncident]
        rw [hn]
        rfl
      rw [List.filter_cons_of_neg hab, List.foldlM_cons, hskip]
      exact ih resolved

variable (pf cfg w) in
theorem toClose_targets : ToClose cfg (w.store.targets pf cfg) w :=
  ⟨fun _ hi => ⟨(Store.mem_targets.mp hi).2.2, (Store.mem_targets.mp hi).1⟩, Store.nodup_targets⟩

/-- A clean-up, with its loop over the incidents it closes. -/
theorem forgetUnmonitored_eq :
    forgetUnmonitored pf cfg previous now =
      (select (·.activeIncidents pf)).bind fun l =>
        ((l.filter cfg.abandons).foldlM (forgetIncident cfg previous now) []).bind fun ids =>
          (Prog.modify (retain cfg ids)).bind fun _ => .done ids := by
  rw [forgetUnmonitored]
  refine congrArg (Prog.bind (select (·.activeIncidents pf))) (funext fun l => ?_)
  rw [foldlM_forgetIncident]
  rfl

/-- The query of a clean-up fails. -/
theorem wpAt_forgetUnmonitored_zero :
    (forgetUnmonitored pf cfg previous now).wpAt 0 Q w ↔ Q none w := Iff.rfl

/-- A failure after the last statement is no failure. -/
theorem wpAt_forgetUnmonitored_none {n : ℕ}
    (hn : Prog.locate cfg.forgetCost (w.store.targets pf cfg) n = none) :
    (forgetUnmonitored pf cfg previous now).wpAt (n + 1) Q w ↔
      (forgetUnmonitored pf cfg previous now).wpOk Q w := by
  refine Prog.wpAt_of_cost_le ?_
  have hcost := Prog.cost_foldlM (I := fun l _ => ToClose cfg l)
    (toClose_step cfg previous now) _ [] w (toClose_targets pf cfg w)
  have hle := Prog.le_of_locate_eq_none hn
  rw [forgetUnmonitored_eq]
  show (((w.store.targets pf cfg).foldlM (forgetIncident cfg previous now) []).bind _).cost w + 1 ≤
    n + 1
  rw [Prog.cost_bind, hcost]
  refine Nat.add_le_add_right ?_ 1
  cases (((w.store.targets pf cfg).foldlM (forgetIncident cfg previous now) []).run [] w).result <;>
    exact hle

/-- The incidents after `i` keep their rows while those up to `i` are closed. -/
theorem ToClose.mem_of_swept {past rest : List Incident} {told : List Incident} {s : Store}
    (h : ToClose cfg (past ++ i :: rest) w)
    (hswept : Swept cfg previous w.store (past ++ [i]) (past ++ [i]) told s) {j : Incident}
    (hj : j ∈ rest) : j ∈ s.incidents.rows := by
  obtain ⟨hall, hnodup⟩ := h
  rw [List.map_append, List.map_cons, List.nodup_append, List.nodup_cons] at hnodup
  obtain ⟨-, ⟨hnot, -⟩, hdisj⟩ := hnodup
  have hrow := (hall j (List.mem_append_right past (List.mem_cons_of_mem i hj))).2
  have hjid : j.id ∈ rest.map (·.id) := List.mem_map_of_mem hj
  refine hswept.mem_of_mem hrow ?_
  rw [List.map_append, List.mem_append, List.map_singleton, List.mem_singleton]
  rintro (hid | hid)
  · exact hdisj j.id hid j.id (List.mem_cons_of_mem _ hjid) rfl
  · exact hnot (hid ▸ hjid)

/-- **A clean-up with a failing statement.** The failure is `k` statements into closing `i`, after
the incidents `past`. -/
theorem wpAt_forgetUnmonitored {past rest : List Incident} {k : ℕ}
    (hT : w.store.targets pf cfg = past ++ i :: rest) (hk : k < cfg.forgetCost i) :
    (forgetUnmonitored pf cfg previous now).wpAt ((past.map cfg.forgetCost).sum + k + 1) Q w ↔
      match k with
      | 0 => Q none (w.onStore (past.foldl (Store.forgotOne cfg previous now) ·))
      | 1 => Q none (w.onStore fun s =>
          (past.foldl (Store.forgotOne cfg previous now) s).resolveIncident i.id now)
      | _ + 2 => Q (some (w.store.forgottenIds pf cfg))
          (retain cfg (w.store.forgottenIds pf cfg) (w.onStore fun s =>
            rest.foldl (Store.forgotOne cfg previous now)
              ((past.foldl (Store.forgotOne cfg previous now) s).forgotNoted previous now i))) := by
  have hclose : ToClose cfg (past ++ i :: rest) w := hT ▸ toClose_targets pf cfg w
  have hids : w.store.forgottenIds pf cfg = past.map (·.id) ++ i.id :: rest.map (·.id) := by
    show (w.store.targets pf cfg).map (·.id) = _
    rw [hT, List.map_append, List.map_cons]
  have hab : ∀ j ∈ past ++ i :: rest, cfg.abandons j := fun j hj => (hclose.1 j hj).1
  have hsome : ∀ j ∈ past ++ i :: rest, (w.store.incident j.id).isSome := fun j hj =>
    Store.exists_incident_iff.mpr ⟨j, (hclose.1 j hj).2, rfl⟩
  have hpast : past.filter cfg.abandons = past :=
    List.filter_eq_self.mpr fun j hj => hab j (List.mem_append_left _ hj)
  have hrest : rest.filter cfg.abandons = rest :=
    List.filter_eq_self.mpr fun j hj => hab j (List.mem_append_right _ (List.mem_cons_of_mem i hj))
  have hstep := toClose_step cfg previous now
  have hcost := Prog.cost_foldlM (I := fun l _ => ToClose cfg l) hstep _ [] w hclose
  have hlt : (past.map cfg.forgetCost).sum + k <
      ((past ++ i :: rest).foldlM (forgetIncident cfg previous now) []).cost w := by
    rw [hcost, List.map_append, List.sum_append, List.map_cons, List.sum_cons]
    omega
  rw [forgetUnmonitored_eq]
  show (((w.store.targets pf cfg).foldlM (forgetIncident cfg previous now) []).bind _).wpAt
    ((past.map cfg.forgetCost).sum + k) Q w ↔ _
  rw [hT, Prog.wpAt_bind_of_lt hlt, Prog.wpAt_foldlM (I := fun l _ => ToClose cfg l) hstep hk
    past [] w hclose, wpOk_forgetIncidents past
    (fun j hj => hsome j (List.mem_append_left _ hj)), hpast, List.nil_append]
  have hnodup := hclose.2
  rw [List.map_append, List.map_cons, List.nodup_append] at hnodup
  have hswept : Swept cfg previous w.store past past past
      (past.foldl (Store.forgotOne cfg previous now) w.store) :=
    .foldl_forgotOne now past w.store (fun j hj => hclose.1 j (List.mem_append_left _ hj)) hnodup.1
  have hi : i ∈ (past.foldl (Store.forgotOne cfg previous now) w.store).incidents.rows :=
    hswept.mem_of_mem (hclose.1 i (by simp)).2 fun hid =>
      hnodup.2.2 i.id hid i.id List.mem_cons_self rfl
  simp only [Option.some.injEq, forall_eq']
  rw [wpAt_forgetIncident (hab i (by simp)) hi hk]
  match k with
  | 0 => rfl
  | 1 => rfl
  | k + 2 =>
    show ((rest.foldlM (forgetIncident cfg previous now) _).wpOk _ _) ↔ _
    rw [wpOk_forgetIncidents rest, hrest, hids, List.append_assoc, List.singleton_append]
    · rfl
    · intro j hj
      have hnoted := hswept.trans (Swept.forgotNoted _ i now)
      exact Store.exists_incident_iff.mpr ⟨j, hclose.mem_of_swept hnoted hj, rfl⟩

end Programs

/-! ### What a clean-up has missed -/

/-- `w'` is what a clean-up makes of `w`, but for the timeline entries of `entries`, the messages of
`messages`, and the machines that point at an incident of `kept`, which are still there. -/
structure Missed (pf : Platform) (cfg : Config) (previous : Option Config) (w : World)
    (entries messages : List Incident) (kept : List ℤ) (w' : World) : Prop where
  incidents : ∃ time : ℤ → ℤ, w'.store.incidents.rows = w.store.incidents.rows.map fun i =>
    if i.isActive ∧ cfg.abandons i then i.closed (time i.id) else i
  updates : (w'.store.updates.rows.map IncidentUpdate.shape ++
      entries.map (forgetEntry previous)).Perm
    (w.store.updates.rows.map IncidentUpdate.shape ++
      (w.store.targets pf cfg).map (forgetEntry previous))
  outbox : (w'.store.subs.outbox.rows.map OutboxRow.shape ++
      messages.flatMap (forgetMessages cfg previous w.store.subs)).Perm
    (w.store.subs.outbox.rows.map OutboxRow.shape ++
      (w.store.targets pf cfg).flatMap (forgetMessages cfg previous w.store.subs))
  machines : w'.engine.machines = fun checkId => (w.engine.machines checkId).filter fun m =>
    (cfg.check checkId).isSome && m.incidentId.all fun id =>
      !(w.store.forgottenIds pf cfg).contains id || kept.contains id

/-- Whether the machine of a check of the config points at an incident. -/
def Config.pointsAt (cfg : Config) (w : World) (id : ℤ) : Bool :=
  cfg.checks.any fun check => w.held check.id == some id

theorem Config.pointsAt_iff {cfg : Config} {w : World} {id : ℤ} :
    cfg.pointsAt w id ↔ ∃ checkId, (cfg.check checkId).isSome ∧ w.held checkId = some id := by
  rw [pointsAt, List.any_eq_true]
  constructor
  · rintro ⟨check, hmem, hheld⟩
    refine ⟨check.id, ?_, beq_iff_eq.mp hheld⟩
    rw [Config.check, List.find?_isSome]
    exact ⟨check, hmem, beq_self_eq_true _⟩
  · rintro ⟨checkId, hcheck, hheld⟩
    rw [Config.check, List.find?_isSome] at hcheck
    obtain ⟨check, hmem, hid⟩ := hcheck
    refine ⟨check, hmem, ?_⟩
    rw [beq_iff_eq.mp hid]
    exact beq_iff_eq.mpr hheld

/-- Nothing a subscriber or a reader of the timeline would miss, and no machine too many. -/
def NothingMissed (pf : Platform) (cfg : Config) (previous : Option Config) (w : World)
    (entries messages : List Incident) (kept : List ℤ) : Prop :=
  entries = [] ∧ messages.flatMap (forgetMessages cfg previous w.store.subs) = [] ∧
    ∀ id ∈ kept, id ∈ w.store.forgottenIds pf cfg → cfg.pointsAt w id = false

open scoped List in
/-- Adding first and missing last, in two goes. -/
theorem perm_after {β : Type} {before between added missing missed left left' : List β}
    (h : (between ++ missed).Perm ((before ++ added) ++ left)) (hleft : left.Perm left') :
    (between ++ (missing ++ missed)).Perm (before ++ ((added ++ missing) ++ left')) := by
  calc between ++ (missing ++ missed)
    _ ~ between ++ (missed ++ missing) := List.perm_append_comm.append_left between
    _ ~ ((before ++ added) ++ left) ++ missing := by
        rw [← List.append_assoc]
        exact h.append_right missing
    _ ~ (before ++ added) ++ (missing ++ left') := by
        rw [List.append_assoc]
        exact (List.perm_append_comm.trans (hleft.append_left missing)).append_left _
    _ ~ before ++ ((added ++ missing) ++ left') := by
        rw [List.append_assoc, List.append_assoc]

namespace Missed

variable {pf : Platform} {cfg : Config} {previous : Option Config} {w w₁ w' w₀ : World}
  {entries messages : List Incident} {kept : List ℤ}

/-- What a sweep of all the targets has missed. -/
theorem of_swept {noted told : List Incident}
    (h : Swept cfg previous w.store (w.store.targets pf cfg) noted told w'.store)
    (hnoted : (noted ++ entries).Perm (w.store.targets pf cfg))
    (htold : (told ++ messages).Perm (w.store.targets pf cfg))
    (hmachines : w'.engine.machines =
      (retain cfg (w.store.forgottenIds pf cfg) w).engine.machines) :
    Missed pf cfg previous w entries messages [] w' where
  incidents := by
    obtain ⟨time, hrows⟩ := h.incidents
    refine ⟨time, ?_⟩
    rw [hrows]
    refine List.map_congr_left fun i hi => ?_
    have hmem : i.id ∈ (w.store.targets pf cfg).map (·.id) ↔ i.isActive ∧ cfg.abandons i :=
      Store.mem_forgottenIds hi
    simp only [hmem]
  updates := by
    rw [h.updates, List.append_assoc, ← List.map_append]
    exact (hnoted.map _).append_left _
  outbox := by
    rw [h.outbox, List.append_assoc, ← List.flatMap_append]
    exact (htold.flatMap_right _).append_left _
  machines := by
    rw [hmachines]
    funext checkId
    simp [retain]

/-- The incidents are the same whatever was missed, but for the times. -/
theorem shape_eq (h₀ : Missed pf cfg previous w [] [] [] w₀)
    (h : Missed pf cfg previous w entries messages kept w') :
    w'.store.incidents.rows.map Incident.shape = w₀.store.incidents.rows.map Incident.shape := by
  obtain ⟨time, hrows⟩ := h.incidents
  obtain ⟨time₀, hrows₀⟩ := h₀.incidents
  rw [hrows, hrows₀, List.map_map, List.map_map]
  refine List.map_congr_left fun i _ => ?_
  by_cases hi : i.isActive ∧ cfg.abandons i
  · simp only [Function.comp_apply, if_pos hi]
    rfl
  · simp only [Function.comp_apply, if_neg hi]

/-- A machine too many is one of the config's that points at an incident of `kept`. -/
theorem machines_eq_iff (h₀ : Missed pf cfg previous w [] [] [] w₀)
    (h : Missed pf cfg previous w entries messages kept w') :
    w'.engine.machines = w₀.engine.machines ↔
      ∀ id ∈ kept, id ∈ w.store.forgottenIds pf cfg → cfg.pointsAt w id = false := by
  rw [h.machines, h₀.machines]
  constructor
  · intro hm id hid hids
    by_contra hpoints
    rw [Bool.not_eq_false, Config.pointsAt_iff] at hpoints
    obtain ⟨checkId, hcheck, hheld⟩ := hpoints
    obtain ⟨m, hmachine, hid'⟩ := Option.bind_eq_some_iff.mp hheld
    have heq := congrFun hm checkId
    simp [hmachine, Option.filter, hcheck, hid', hids, hid] at heq
  · intro hkept
    funext checkId
    cases hmachine : w.engine.machines checkId with
    | none => rfl
    | some m =>
      cases hcheck : (cfg.check checkId).isSome with
      | false => simp [Option.filter]
      | true =>
        cases hid : m.incidentId with
        | none => simp [Option.filter, hid]
        | some id =>
          have hheld : w.held checkId = some id := by
            rw [World.held, hmachine, Option.bind_some, hid]
          have hnot : id ∈ w.store.forgottenIds pf cfg → id ∉ kept := by
            intro hids hin
            have hpoints : cfg.pointsAt w id :=
              Config.pointsAt_iff.mpr ⟨checkId, hcheck, hheld⟩
            rw [hkept id hin hids] at hpoints
            exact absurd hpoints (by simp)
          by_cases hids : id ∈ w.store.forgottenIds pf cfg
          · simp [Option.filter, hid, hids, hnot hids]
          · simp [Option.filter, hid, hids]

/-- A world that has missed nothing has the outcome of a clean-up without a failure. -/
theorem sameOutcome_iff (h₀ : Missed pf cfg previous w [] [] [] w₀)
    (h : Missed pf cfg previous w entries messages kept w') :
    SameOutcome w' w₀ ↔ NothingMissed pf cfg previous w entries messages kept := by
  have hupdates := h.updates.trans h₀.updates.symm
  have houtbox := h.outbox.trans h₀.outbox.symm
  rw [List.map_nil, List.append_nil] at hupdates
  rw [List.flatMap_nil, List.append_nil] at houtbox
  constructor
  · rintro ⟨-, hu, ho, hm⟩
    refine ⟨?_, ?_, (machines_eq_iff h₀ h).mp hm⟩
    · have hlen := hupdates.length_eq
      rw [List.length_append, hu.length_eq] at hlen
      simp only [List.length_map] at hlen
      exact List.length_eq_zero_iff.mp (by omega)
    · have hlen := houtbox.length_eq
      rw [List.length_append, ho.length_eq] at hlen
      exact List.length_eq_zero_iff.mp (by omega)
  · rintro ⟨rfl, hmsgs, hkept⟩
    rw [List.map_nil, List.append_nil] at hupdates
    rw [hmsgs, List.append_nil] at houtbox
    exact ⟨shape_eq h₀ h, hupdates, houtbox, (machines_eq_iff h₀ h).mpr hkept⟩

/-- A clean-up that goes on where a sweep of some of the targets has stopped. -/
theorem after {closed noted told rest lostEntries lostMessages : List Incident}
    (h₁ : Missed pf cfg previous w₁ entries messages kept w')
    (h : Swept cfg previous w.store closed noted told w₁.store)
    (hmachines : w₁.engine.machines = w.engine.machines)
    (hT : w.store.targets pf cfg = closed ++ rest)
    (hnoted : noted ++ lostEntries = closed) (htold : told ++ lostMessages = closed) :
    Missed pf cfg previous w (lostEntries ++ entries) (lostMessages ++ messages)
      (closed.map (·.id) ++ kept) w' := by
  have hrest := h.targets hT
  have hids : ∀ id, id ∈ w₁.store.forgottenIds pf cfg ↔ id ∈ rest.map (·.id) := fun id =>
    (hrest.map (·.id)).mem_iff
  have hids₀ : w.store.forgottenIds pf cfg = closed.map (·.id) ++ rest.map (·.id) := by
    show (w.store.targets pf cfg).map (·.id) = _
    rw [hT, List.map_append]
  have hdisj : ∀ id ∈ closed.map (·.id), id ∉ rest.map (·.id) := by
    have hnodup : ((closed ++ rest).map (·.id)).Nodup := hT ▸ Store.nodup_targets
    rw [List.map_append, List.nodup_append] at hnodup
    exact fun id hc hr => hnodup.2.2 id hc id hr rfl
  have hmsgs : forgetMessages cfg previous w₁.store.subs =
      forgetMessages cfg previous w.store.subs :=
    forgetMessages_congr h.subscribers h.components
  refine ⟨?_, ?_, ?_, ?_⟩
  · obtain ⟨time, hrows⟩ := h.incidents
    obtain ⟨time', hrows'⟩ := h₁.incidents
    refine ⟨fun id => if id ∈ closed.map (·.id) then time id else time' id, ?_⟩
    rw [hrows', hrows, List.map_map]
    refine List.map_congr_left fun i hi => ?_
    rw [Function.comp_apply]
    dsimp only
    by_cases hc : i.id ∈ closed.map (·.id)
    · have hact : i.isActive ∧ cfg.abandons i := by
        have hmem : i.id ∈ w.store.forgottenIds pf cfg := by
          rw [hids₀]
          exact List.mem_append_left _ hc
        exact (Store.mem_forgottenIds hi).mp hmem
      rw [if_pos hc, if_pos hact, if_pos hc, if_neg]
      simp [Incident.isActive, Incident.closed]
    · rw [if_neg hc, if_neg hc]
  · have hu := h₁.updates
    rw [h.updates] at hu
    rw [hT, List.map_append, List.map_append, ← hnoted, List.map_append]
    exact perm_after hu (hrest.map _)
  · have ho := h₁.outbox
    rw [h.outbox, hmsgs] at ho
    rw [hT, List.flatMap_append, List.flatMap_append, ← htold, List.flatMap_append]
    exact perm_after ho (hrest.flatMap_right _)
  · rw [h₁.machines, hmachines]
    funext checkId
    congr 1
    funext m
    congr 1
    congr 1
    funext id
    have hd := hdisj id
    rw [Bool.eq_iff_iff]
    simp only [hids₀, hids id, Bool.or_eq_true, Bool.not_eq_true', List.contains_eq_mem,
      List.mem_append, decide_eq_true_eq, decide_eq_false_iff_not]
    tauto

end Missed

/-! ### Trying again -/

section Retry

variable (pf : Platform) (cfg : Config) (previous : Option Config)

/-- One call of `forgetUnmonitored` without a failure. -/
def cleaned (now : ℤ) (w : World) : World :=
  ((forgetUnmonitored pf cfg previous now).run [] w).state

/-- One call of `forgetUnmonitored` whose `n`-th statement fails. -/
def failingCall (now : ℤ) (n : ℕ) (w : World) : Outcome World (List ℤ) :=
  (forgetUnmonitored pf cfg previous now).run (Prog.failAt n) w

/-- Calls of `forgetUnmonitored` at later and later ticks, until one succeeds. Each call of the list
has the statement that fails in it and its time; the call after them has no failure. -/
def retried : List (ℕ × ℤ) → ℤ → World → World
  | [], now, w => cleaned pf cfg previous now w
  | (n, time) :: calls, now, w =>
    let call := failingCall pf cfg previous time n w
    match call.result with
    | none => retried calls now call.state
    | some _ => call.state

/-- The `n`-th statement of a call can fail without harm: it is the query; or it closes an incident
while no machine of the config points at one the call has already closed; or it is one of
`publishIncident` for an incident nobody would have been told about; or there is no such statement.
-/
def Harmless (w : World) : ℕ → Prop
  | 0 => True
  | n + 1 =>
    match Prog.locate cfg.forgetCost (w.store.targets pf cfg) n with
    | none => True
    | some (past, _, 0) => ∀ id ∈ past.map (·.id), cfg.pointsAt w id = false
    | some (_, _, 1) => False
    | some (_, i, _ + 2) => forgetMessages cfg previous w.store.subs i = []

/-- Each call fails where it does no harm. -/
def HarmlessCalls : List (ℕ × ℤ) → World → Prop
  | [], _ => True
  | (n, time) :: calls, w =>
    let call := failingCall pf cfg previous time n w
    Harmless pf cfg previous w n ∧ (call.result = none → HarmlessCalls calls call.state)

variable {pf cfg previous} {w w' : World} {now : ℤ}

theorem cleaned_eq :
    cleaned pf cfg previous now w =
      retain cfg (w.store.forgottenIds pf cfg) (w.onStore (·.forgotten pf cfg previous now)) :=
  state_run_of_wpOk (wpOk_forgetUnmonitored.mpr rfl)

/-- The incidents that are not abandoned are passed over. -/
theorem Store.forgotten_eq (s : Store) :
    s.forgotten pf cfg previous now =
      (s.targets pf cfg).foldl (forgotOne cfg previous now) s := by
  have hfold : ∀ (l : List Incident) (s : Store), l.foldl (forgotOne cfg previous now) s =
      (l.filter cfg.abandons).foldl (forgotOne cfg previous now) s := by
    intro l
    induction l with
    | nil => exact fun _ => rfl
    | cons i l ih =>
      intro s
      by_cases hab : cfg.abandons i
      · rw [List.filter_cons_of_pos hab, List.foldl_cons, List.foldl_cons, ih]
      · rw [List.filter_cons_of_neg hab, List.foldl_cons, forgotOne, if_neg hab, ih]
  exact hfold _ s

/-- Without a failure nothing is missed. -/
theorem Missed.cleaned : Missed pf cfg previous w [] [] [] (cleaned pf cfg previous now w) := by
  rw [cleaned_eq]
  have hswept : Swept cfg previous w.store (w.store.targets pf cfg) (w.store.targets pf cfg)
      (w.store.targets pf cfg) ((w.store.targets pf cfg).foldl (Store.forgotOne cfg previous now)
        w.store) :=
    .foldl_forgotOne now _ w.store (toClose_targets pf cfg w).1 (toClose_targets pf cfg w).2
  rw [← Store.forgotten_eq] at hswept
  exact of_swept hswept (List.Perm.of_eq (List.append_nil _)) (List.Perm.of_eq (List.append_nil _))
    rfl

/-! #### How a call ends -/

section Calls

theorem failingCall_of_wpAt {n : ℕ} {r : Option (List ℤ)}
    (h : (forgetUnmonitored pf cfg previous now).wpAt n (fun r' w₁ => r' = r ∧ w₁ = w') w) :
    (failingCall pf cfg previous now n w).result = r ∧
      (failingCall pf cfg previous now n w).state = w' :=
  Prog.wpAt_iff_run.mp h

variable (previous now)

variable (pf cfg) in
theorem failingCall_zero (w : World) :
    (failingCall pf cfg previous now 0 w).result = none ∧
      (failingCall pf cfg previous now 0 w).state = w :=
  failingCall_of_wpAt (wpAt_forgetUnmonitored_zero.mpr ⟨rfl, rfl⟩)

theorem failingCall_none {n : ℕ}
    (hn : Prog.locate cfg.forgetCost (w.store.targets pf cfg) n = none) :
    (failingCall pf cfg previous now (n + 1) w).result = some (w.store.forgottenIds pf cfg) ∧
      (failingCall pf cfg previous now (n + 1) w).state = cleaned pf cfg previous now w := by
  refine failingCall_of_wpAt ((wpAt_forgetUnmonitored_none hn).mpr ?_)
  exact wpOk_forgetUnmonitored.mpr ⟨rfl, cleaned_eq.symm⟩

variable {past rest : List Incident} {i : Incident}
  (hT : w.store.targets pf cfg = past ++ i :: rest)
include hT

/-- The row of an incident fails to close. -/
theorem failingCall_closing :
    (failingCall pf cfg previous now ((past.map cfg.forgetCost).sum + 0 + 1) w).result = none ∧
      (failingCall pf cfg previous now ((past.map cfg.forgetCost).sum + 0 + 1) w).state =
        w.onStore (past.foldl (Store.forgotOne cfg previous now) ·) := by
  have hk : 0 < cfg.forgetCost i := by unfold Config.forgetCost; omega
  exact failingCall_of_wpAt ((wpAt_forgetUnmonitored hT hk).mpr ⟨rfl, rfl⟩)

/-- The timeline entry of an incident fails to be written. -/
theorem failingCall_noting :
    (failingCall pf cfg previous now ((past.map cfg.forgetCost).sum + 1 + 1) w).result = none ∧
      (failingCall pf cfg previous now ((past.map cfg.forgetCost).sum + 1 + 1) w).state =
        w.onStore fun s =>
          (past.foldl (Store.forgotOne cfg previous now) s).resolveIncident i.id now := by
  have hk : 1 < cfg.forgetCost i := by unfold Config.forgetCost; omega
  exact failingCall_of_wpAt ((wpAt_forgetUnmonitored hT hk).mpr ⟨rfl, rfl⟩)

/-- The messages about an incident fail to be queued. -/
theorem failingCall_telling {k : ℕ} (hk : k + 2 < cfg.forgetCost i) :
    (failingCall pf cfg previous now ((past.map cfg.forgetCost).sum + (k + 2) + 1) w).result =
        some (w.store.forgottenIds pf cfg) ∧
      (failingCall pf cfg previous now ((past.map cfg.forgetCost).sum + (k + 2) + 1) w).state =
        retain cfg (w.store.forgottenIds pf cfg) (w.onStore fun s =>
          rest.foldl (Store.forgotOne cfg previous now)
            ((past.foldl (Store.forgotOne cfg previous now) s).forgotNoted previous now i)) :=
  failingCall_of_wpAt ((wpAt_forgetUnmonitored hT hk).mpr ⟨rfl, rfl⟩)

end Calls

/-- Missing something in two goes. -/
theorem NothingMissed.after {w₁ : World} {closed entries messages : List Incident} {kept : List ℤ}
    (hids : ∀ id, id ∈ w.store.forgottenIds pf cfg ↔
      id ∈ closed.map (·.id) ∨ id ∈ w₁.store.forgottenIds pf cfg)
    (hmsgs : forgetMessages cfg previous w₁.store.subs = forgetMessages cfg previous w.store.subs)
    (hpoints : cfg.pointsAt w₁ = cfg.pointsAt w) :
    NothingMissed pf cfg previous w entries messages (closed.map (·.id) ++ kept) ↔
      (∀ id ∈ closed.map (·.id), cfg.pointsAt w id = false) ∧
        NothingMissed pf cfg previous w₁ entries messages kept := by
  unfold NothingMissed
  rw [hmsgs, hpoints]
  simp only [List.mem_append, hids]
  constructor
  · rintro ⟨he, hm, hk⟩
    exact ⟨fun id hid => hk id (.inl hid) (.inl hid), he, hm,
      fun id hid hid' => hk id (.inr hid) (.inr hid')⟩
  · rintro ⟨hc, he, hm, hk⟩
    refine ⟨he, hm, fun id hid hid' => ?_⟩
    by_cases hclosed : id ∈ closed.map (·.id)
    · exact hc id hclosed
    · exact hk id (hid.resolve_left hclosed) (hid'.resolve_left hclosed)

/-- Sweeping the first of the targets. -/
theorem swept_past {past rest : List Incident} (hT : w.store.targets pf cfg = past ++ rest)
    (now : ℤ) : Swept cfg previous w.store past past past
      (past.foldl (Store.forgotOne cfg previous now) w.store) := by
  obtain ⟨hall, hnodup⟩ := hT ▸ toClose_targets pf cfg w
  rw [List.map_append, List.nodup_append] at hnodup
  exact .foldl_forgotOne now past w.store (fun j hj => hall j (List.mem_append_left _ hj)) hnodup.1

/-- Sweeping all the targets, with nobody told about one of them. -/
theorem swept_untold {past rest : List Incident} {i : Incident}
    (hT : w.store.targets pf cfg = past ++ i :: rest) (now : ℤ) :
    Swept cfg previous w.store (w.store.targets pf cfg) (w.store.targets pf cfg) (past ++ rest)
      (rest.foldl (Store.forgotOne cfg previous now)
        ((past.foldl (Store.forgotOne cfg previous now) w.store).forgotNoted previous now i)) := by
  have hclose : ToClose cfg (past ++ i :: rest) w := hT ▸ toClose_targets pf cfg w
  have hnodup := hclose.2
  rw [List.map_append, List.map_cons, List.nodup_append, List.nodup_cons] at hnodup
  have hnoted : Swept cfg previous w.store (past ++ [i]) (past ++ [i]) (past ++ []) _ :=
    (swept_past hT now).trans (Swept.forgotNoted _ i now)
  have hrest : ∀ j ∈ rest, cfg.abandons j ∧ j ∈
      ((past.foldl (Store.forgotOne cfg previous now) w.store).forgotNoted previous now
        i).incidents.rows := by
    intro j hj
    have hj' := List.mem_append_right past (List.mem_cons_of_mem i hj)
    exact ⟨(hclose.1 j hj').1, hclose.mem_of_swept hnoted hj⟩
  have hall := hnoted.trans (Swept.foldl_forgotOne now rest _ hrest hnodup.2.1.2)
  rw [List.append_nil, List.append_assoc, List.singleton_append] at hall
  rw [hT]
  exact hall

/-- The incidents a sweep of the first targets leaves to close, and those it has closed. -/
theorem mem_forgottenIds_of_swept (w₁ : World) {closed noted told rest : List Incident}
    (h : Swept cfg previous w.store closed noted told w₁.store)
    (hT : w.store.targets pf cfg = closed ++ rest) (id : ℤ) :
    id ∈ w.store.forgottenIds pf cfg ↔
      id ∈ closed.map (·.id) ∨ id ∈ w₁.store.forgottenIds pf cfg := by
  have hrest : id ∈ w₁.store.forgottenIds pf cfg ↔ id ∈ rest.map (·.id) :=
    ((h.targets hT).map (·.id)).mem_iff
  have hids : w.store.forgottenIds pf cfg = closed.map (·.id) ++ rest.map (·.id) := by
    show (w.store.targets pf cfg).map (·.id) = _
    rw [hT, List.map_append]
  rw [hids, hrest, List.mem_append]

/-- What retried calls miss, and when it is nothing. -/
theorem missed_retried (now : ℤ) :
    ∀ (calls : List (ℕ × ℤ)) (w : World), ∃ entries messages kept,
      Missed pf cfg previous w entries messages kept (retried pf cfg previous calls now w) ∧
        (NothingMissed pf cfg previous w entries messages kept ↔
          HarmlessCalls pf cfg previous calls w)
  | [], w => ⟨[], [], [], .cleaned, by simp [NothingMissed, HarmlessCalls]⟩
  | (0, time) :: calls, w => by
    obtain ⟨entries, messages, kept, hmissed, hiff⟩ := missed_retried now calls w
    obtain ⟨hres, hstate⟩ := failingCall_zero pf cfg previous time w
    refine ⟨entries, messages, kept, ?_, ?_⟩
    · simp only [retried, hres, hstate]
      exact hmissed
    · simp only [HarmlessCalls, hres, hstate, hiff, Harmless, forall_const, true_and]
  | (n + 1, time) :: calls, w => by
    cases hplace : Prog.locate cfg.forgetCost (w.store.targets pf cfg) n with
    | none =>
      obtain ⟨hres, hstate⟩ := failingCall_none previous time hplace
      refine ⟨[], [], [], ?_, ?_⟩
      · simp only [retried, hres, hstate]
        exact .cleaned
      · simp [HarmlessCalls, hres, Harmless, hplace, NothingMissed]
    | some place =>
      obtain ⟨past, i, k⟩ := place
      obtain ⟨rest, hT, rfl, hk⟩ := Prog.locate_eq_some hplace
      have hpast : Swept cfg previous w.store past past past _ := swept_past hT time
      simp only [HarmlessCalls, Harmless, hplace, retried]
      match k with
      | 0 =>
        obtain ⟨hres, hstate⟩ := failingCall_closing previous time hT
        simp only [hres, hstate, forall_const]
        obtain ⟨entries, messages, kept, hmissed, hiff⟩ := missed_retried now calls
          (w.onStore (past.foldl (Store.forgotOne cfg previous time) ·))
        refine ⟨[] ++ entries, [] ++ messages, past.map (·.id) ++ kept,
          hmissed.after hpast rfl hT (List.append_nil _) (List.append_nil _), ?_⟩
        rw [List.nil_append, List.nil_append, NothingMissed.after (mem_forgottenIds_of_swept
          (w.onStore (past.foldl (Store.forgotOne cfg previous time) ·)) hpast hT)
          (forgetMessages_congr hpast.subscribers hpast.components) rfl]
        exact and_congr_right fun _ => hiff
      | 1 =>
        obtain ⟨hres, hstate⟩ := failingCall_noting previous time hT
        simp only [hres, hstate, false_and, iff_false]
        obtain ⟨entries, messages, kept, hmissed, -⟩ := missed_retried now calls
          (w.onStore fun s =>
            (past.foldl (Store.forgotOne cfg previous time) s).resolveIncident i.id time)
        have hswept := hpast.trans (Swept.resolveIncident _ i time)
        rw [List.append_nil] at hswept
        have hT' : w.store.targets pf cfg = (past ++ [i]) ++ rest := by
          rw [hT, List.append_assoc]
          rfl
        refine ⟨[i] ++ entries, [i] ++ messages, (past ++ [i]).map (·.id) ++ kept,
          hmissed.after hswept rfl hT' rfl rfl, ?_⟩
        rintro ⟨hentries, -⟩
        exact List.cons_ne_nil i _ hentries
      | k + 2 =>
        obtain ⟨hres, hstate⟩ := failingCall_telling previous time hT hk
        simp only [hres, hstate, reduceCtorEq, false_implies, and_true]
        refine ⟨[], [i], [], .of_swept (swept_untold hT time) (by simp) ?_ rfl,
          by simp [NothingMissed]⟩
        rw [hT, List.append_assoc]
        exact List.perm_append_comm.append_left past

end Retry

/-! ### A call that succeeds -/

/-- `w'` is `w` with the open abandoned incidents closed and one entry added to the timeline of
each. -/
structure Cleared (cfg : Config) (now : ℤ) (w w' : World) : Prop where
  incidents : w'.store.incidents.rows = w.store.incidents.rows.map fun i =>
    if i.isActive ∧ cfg.abandons i then i.closed now else i
  updates : ∃ added, w'.store.updates.rows = w.store.updates.rows ++ added ∧
    (added.map (·.incidentId)).Perm
      ((w.store.incidents.rows.filter fun i => i.isActive && cfg.abandons i).map (·.id)) ∧
    ∀ u ∈ added, u.state = .resolved

/-- How far the loop is: the incidents of `ids` are closed and have their entry, and those of `l`
are to come. -/
structure Clearing (cfg : Config) (now : ℤ) (w : World) (targets l : List Incident) (ids : List ℤ)
    (w' : World) : Prop where
  split : ids ++ l.map (·.id) = targets.map (·.id)
  todo : ∀ i ∈ l, cfg.abandons i ∧ (w'.store.incident i.id).isSome
  incidents : w'.store.incidents.rows = w.store.incidents.rows.map fun i =>
    if i.id ∈ ids then i.closed now else i
  updates : ∃ added, w'.store.updates.rows = w.store.updates.rows ++ added ∧
    added.map (·.incidentId) = ids ∧ ∀ u ∈ added, u.state = .resolved

section Success

variable {pf : Platform} {cfg : Config} {previous : Option Config} {now : ℤ} {w w' : World}
  {i : Incident} {l targets : List Incident} {ids : List ℤ}

/-- Every way the closing of an incident can end. -/
theorem wp_forgetIncident {Q : Option (List ℤ) → World → Prop} (hab : cfg.abandons i)
    (h : (w.store.incident i.id).isSome) :
    (forgetIncident cfg previous now ids i).wp Q w ↔
      Q none w ∧ Q none (w.onStore (·.resolveIncident i.id now)) ∧
        Q (some (ids ++ [i.id])) (w.onStore (Store.forgotNoted previous now · i)) ∧
        Q (some (ids ++ [i.id])) (w.onStore (Store.forgotOne cfg previous now · i)) := by
  rw [forgetIncident_of_abandons hab]
  simp only [Prog.wp_bind, wp_statement, Prog.after_some, Prog.after_none]
  rw [wp_addUpdate (Store.isSome_incident_resolveIncident h _)]
  simp only [Prog.after_some, Prog.after_none, Prog.wp_bind, wp_publishIncident, Prog.wp_done,
    World.onStore_onStore, Store.forgotOne, hab, if_true, Store.forgotNoted]
  tauto

theorem Clearing.step (h : Clearing cfg now w targets (i :: l) ids w') :
    Clearing cfg now w targets l (ids ++ [i.id])
      (w'.onStore (Store.forgotNoted previous now · i)) where
  split := by
    rw [← h.split, List.append_assoc]
    rfl
  todo j hj := by
    obtain ⟨hab, hsome⟩ := h.todo j (List.mem_cons_of_mem i hj)
    exact ⟨hab, Store.isSome_incident_resolveIncident hsome _⟩
  incidents := by
    show (w'.store.resolveIncident i.id now).incidents.rows = _
    simp only [Store.resolveIncident, Table.update, beq_iff_eq, h.incidents, List.map_map]
    refine List.map_congr_left fun j _ => ?_
    have hid : (if j.id ∈ ids then j.closed now else j).id = j.id := by split <;> rfl
    simp only [Function.comp_apply, hid, List.mem_append, List.mem_singleton]
    by_cases hids : j.id ∈ ids
    · have hin : j.id ∈ ids ∨ j.id = i.id := .inl hids
      rw [if_pos hids, if_pos hin]
      split <;> rfl
    · by_cases hi : j.id = i.id
      · have hin : j.id ∈ ids ∨ j.id = i.id := .inr hi
        rw [if_neg hids, if_pos hi, if_pos hin]
      · have hout : ¬(j.id ∈ ids ∨ j.id = i.id) := by tauto
        rw [if_neg hids, if_neg hi, if_neg hout]
  updates := by
    obtain ⟨added, hrows, hids, hresolved⟩ := h.updates
    refine ⟨added ++ [⟨w'.store.updates.next, i.id, now, .resolved, forgetText previous i, true⟩],
      ?_, ?_, ?_⟩
    · show w'.store.updates.rows ++ _ = _
      rw [hrows, List.append_assoc]
      rfl
    · rw [List.map_append, hids]
      rfl
    · intro u hu
      rcases List.mem_append.mp hu with hu | hu
      · exact hresolved u hu
      · rw [List.mem_singleton.mp hu]

/-- Whether subscribers are told changes neither table. -/
theorem Clearing.told (hab : cfg.abandons i)
    (h : Clearing cfg now w targets l ids (w'.onStore (Store.forgotNoted previous now · i))) :
    Clearing cfg now w targets l ids (w'.onStore (Store.forgotOne cfg previous now · i)) := by
  have hincidents : (w'.store.forgotOne cfg previous now i).incidents =
      (w'.store.forgotNoted previous now i).incidents := by
    rw [Store.forgotOne, if_pos hab]
    exact Store.incidents_publishIncident
  have hupdates : (w'.store.forgotOne cfg previous now i).updates =
      (w'.store.forgotNoted previous now i).updates := by
    rw [Store.forgotOne, if_pos hab]
    exact Store.updates_publishIncident
  refine ⟨h.split, fun j hj => ⟨(h.todo j hj).1, ?_⟩, ?_, ?_⟩
  · show ((w'.store.forgotOne cfg previous now i).incidents.find? j.id).isSome
    rw [hincidents]
    exact (h.todo j hj).2
  · show (w'.store.forgotOne cfg previous now i).incidents.rows = _
    rw [hincidents]
    exact h.incidents
  · show ∃ added, (w'.store.forgotOne cfg previous now i).updates.rows = _ ∧ _
    rw [hupdates]
    exact h.updates

/-- The end of the loop. -/
theorem Clearing.cleared (h : Clearing cfg now w (w.store.targets pf cfg) [] ids w') :
    Cleared cfg now w w' where
  incidents := by
    have hids : ids = w.store.forgottenIds pf cfg := (List.append_nil ids).symm.trans h.split
    rw [h.incidents]
    refine List.map_congr_left fun i hi => ?_
    rw [hids]
    simp only [Store.mem_forgottenIds hi]
  updates := by
    obtain ⟨added, hrows, hids, hresolved⟩ := h.updates
    refine ⟨added, hrows, ?_, hresolved⟩
    rw [hids, (List.append_nil ids).symm.trans h.split, Store.targets, Store.activeIncidents]
    refine List.Perm.map _ (((pf.newestFirst_perm _).filter _).trans ?_)
    rw [List.filter_filter]
    refine List.Perm.of_eq (List.filter_congr fun i _ => ?_)
    exact Bool.and_comm _ _

/-- Whichever statements fail, a call that succeeds has closed every target and written its
entry. -/
theorem cleared_of_success (faults : List Bool)
    (h : ((forgetUnmonitored pf cfg previous now).run faults w).result.isSome) :
    Cleared cfg now w ((forgetUnmonitored pf cfg previous now).run faults w).state := by
  have hstart : Clearing cfg now w (w.store.targets pf cfg) (w.store.targets pf cfg) [] w := by
    refine ⟨List.nil_append _, fun i hi => ?_, by simp, [], by simp⟩
    obtain ⟨hrow, -, hab⟩ := Store.mem_targets.mp hi
    exact ⟨hab, Store.exists_incident_iff.mpr ⟨i, hrow, rfl⟩⟩
  have hloop := Prog.wp_foldlM (f := forgetIncident cfg previous now) (E := fun _ => True)
    (I := Clearing cfg now w (w.store.targets pf cfg)) (fun i l ids w' hI => by
      obtain ⟨hab, hsome⟩ := hI.todo i List.mem_cons_self
      rw [wp_forgetIncident hab hsome]
      exact ⟨trivial, trivial, hI.step, .told hab hI.step⟩) _ [] w hstart
  have hall : (forgetUnmonitored pf cfg previous now).wp
      (fun r w' => r.isSome → Cleared cfg now w w') w := by
    rw [forgetUnmonitored_eq, Prog.wp_bind]
    refine ⟨?_, fun hnone => absurd hnone (by simp)⟩
    show (((w.store.targets pf cfg).foldlM (forgetIncident cfg previous now) []).bind _).wp _ w
    rw [Prog.wp_bind]
    refine Prog.wp_mono hloop fun r w' hr => ?_
    cases r with
    | none => exact fun hnone => absurd hnone (by simp)
    | some ids => exact fun _ => ⟨hr.cleared.incidents, hr.cleared.updates⟩
  exact Prog.wp_run hall faults h

end Success

/-! ### The clean-up, retried -/

section Retry

variable {pf : Platform} {cfg : Config} {previous : Option Config}

/-- **Retrying a clean-up.** Calls that fail and are tried again have the outcome of one call
without a failure exactly when each of them fails where it does no harm. A call that succeeds has
closed what it had to in any case. -/
theorem retry_safe (calls : List (ℕ × ℤ)) (now now₀ : ℤ) (w : World) :
    (SameOutcome (retried pf cfg previous calls now w) (cleaned pf cfg previous now₀ w) ∧
      ∀ faults time, ((forgetUnmonitored pf cfg previous time).run faults w).result.isSome →
        Cleared cfg time w ((forgetUnmonitored pf cfg previous time).run faults w).state) ↔
      HarmlessCalls pf cfg previous calls w := by
  obtain ⟨entries, messages, kept, hmissed, hiff⟩ := missed_retried now calls w
  rw [Missed.cleaned.sameOutcome_iff hmissed, hiff]
  exact ⟨fun h => h.1, fun h => ⟨h, fun faults time => cleared_of_success faults⟩⟩

/-- The check is taken out of the config while its incident is open. The row of the incident is
closed, its timeline entry fails to be written, and the next tick finds nothing left to do. -/
theorem retry_unnoted :
    ¬∀ (pf : Platform) (cfg : Config) (previous : Option Config) (calls : List (ℕ × ℤ))
      (now now₀ : ℤ) (w : World),
      SameOutcome (retried pf cfg previous calls now w) (cleaned pf cfg previous now₀ w) ∧
        ∀ faults time, ((forgetUnmonitored pf cfg previous time).run faults w).result.isSome →
          Cleared cfg time w ((forgetUnmonitored pf cfg previous time).run faults w).state := by
  intro h
  have hlen := (h .ascii { quickConfig with components := [], checks := [] } (some quickConfig)
    [(2, 20)] 21 20 (step .ascii (.initial .empty quickConfig) (.handle (probe false 10)))
    ).1.updates.length_eq
  revert hlen
  decide

end Retry

end Dunlin

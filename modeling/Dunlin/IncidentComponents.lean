import Dunlin.AlertSystem
import Dunlin.StatusHistory

/-!
# Whose incidents a component holds

A check's incidents are filed under the component that mirrors it, and under the check's own id when
none does. `validate` wants the ids of checks to be different, and those of components, but compares
no check id with a component id, and lets either be empty. So a check that no component mirrors can
have the id of a component that mirrors another check; the two then take over each other's
incidents. And an incident under the empty id counts for every component (`affects`).

`keepsApart_iff` says in which valid configs this happens. Two checks with a component each are kept
apart by what `validate` does check.

## Main results

* `keepsApart_of_separateIds`, `KeepsApart.separateIds` — the two directions
* `KeepsApart.activeIncidentFor`, `KeepsApart.affects` — what the readers of incidents rely on
* `keepsApart_iff` — for every config that `validate` accepts
* `crossed_not_keepsApart` — an accepted config with two checks in one component
-/

namespace Dunlin

namespace Config

/-- The component is the first that mirrors the check. -/
def FirstMirror (cfg : Config) (k : ComponentConfig) (checkId : String) : Prop :=
  ∃ before after, cfg.components = before ++ k :: after ∧ k.check = some checkId ∧
    ∀ j ∈ before, j.check ≠ some checkId

/-- No component mirrors the check. -/
def Unmirrored (cfg : Config) (checkId : String) : Prop :=
  ∀ k ∈ cfg.components, k.check ≠ some checkId

/-- Different checks file their incidents under different components, and none files them under
the empty id. -/
structure KeepsApart (cfg : Config) : Prop where
  injective : ∀ c ∈ cfg.checks, ∀ d ∈ cfg.checks,
    cfg.incidentComponent c.id = cfg.incidentComponent d.id → c.id = d.id
  nonempty : ∀ c ∈ cfg.checks, cfg.incidentComponent c.id ≠ ""

/-- A check that no component mirrors has an id of its own: not the empty one, and not that of the
first component to mirror another check. Nor has such a component the empty id. -/
structure SeparateIds (cfg : Config) : Prop where
  check_ne_empty : ∀ c ∈ cfg.checks, cfg.Unmirrored c.id → c.id ≠ ""
  check_ne_mirror : ∀ c ∈ cfg.checks, cfg.Unmirrored c.id →
    ∀ d ∈ cfg.checks, ∀ k, cfg.FirstMirror k d.id → k.id ≠ c.id
  mirror_ne_empty : ∀ d ∈ cfg.checks, ∀ k, cfg.FirstMirror k d.id → k.id ≠ ""

variable {cfg : Config} {k : ComponentConfig} {checkId : String}

theorem FirstMirror.incidentComponent (h : cfg.FirstMirror k checkId) :
    cfg.incidentComponent checkId = k.id := by
  obtain ⟨before, after, hsplit, hcheck, hfirst⟩ := h
  have hfind : cfg.components.find? (·.check == some checkId) = some k := by
    rw [List.find?_eq_some_iff_append]
    exact ⟨by simp [hcheck], before, after, hsplit, fun j hj => by simpa using hfirst j hj⟩
  rw [Config.incidentComponent, hfind]
  rfl

theorem Unmirrored.incidentComponent (h : cfg.Unmirrored checkId) :
    cfg.incidentComponent checkId = checkId := by
  have hfind : cfg.components.find? (·.check == some checkId) = none := by
    rw [List.find?_eq_none]
    exact fun k hk => by simpa using h k hk
  rw [Config.incidentComponent, hfind]
  rfl

/-- A check has a first component to mirror it, or none. -/
theorem mirror_cases (cfg : Config) (checkId : String) :
    (∃ k, cfg.FirstMirror k checkId) ∨ cfg.Unmirrored checkId := by
  cases hfind : cfg.components.find? (·.check == some checkId) with
  | some k =>
    obtain ⟨hcheck, before, after, hsplit, hfirst⟩ := List.find?_eq_some_iff_append.mp hfind
    refine .inl ⟨k, before, after, hsplit, by simpa using hcheck, fun j hj => ?_⟩
    simpa using hfirst j hj
  | none =>
    rw [List.find?_eq_none] at hfind
    exact .inr fun k hk => by simpa using hfind k hk

theorem FirstMirror.mem (h : cfg.FirstMirror k checkId) : k ∈ cfg.components := by
  obtain ⟨before, after, hsplit, -, -⟩ := h
  simp [hsplit]

theorem FirstMirror.check_eq (h : cfg.FirstMirror k checkId) : k.check = some checkId := by
  obtain ⟨-, -, -, hcheck, -⟩ := h
  exact hcheck

/-- Components that mirror different checks have different ids. -/
theorem FirstMirror.eq_of_id_eq {j : ComponentConfig} {otherId : String}
    (hvalid : cfg.validate = []) (hk : cfg.FirstMirror k checkId) (hj : cfg.FirstMirror j otherId)
    (hid : k.id = j.id) : checkId = otherId := by
  obtain rfl := List.inj_on_of_nodup_map (nodup_components hvalid) hk.mem hj.mem hid
  exact Option.some.inj (hk.check_eq.symm.trans hj.check_eq)

theorem keepsApart_of_separateIds (hvalid : cfg.validate = []) (h : cfg.SeparateIds) :
    cfg.KeepsApart := by
  refine ⟨fun c hc d hd heq => ?_, fun c hc => ?_⟩
  · rcases cfg.mirror_cases c.id with ⟨k, hk⟩ | hcfree <;>
      rcases cfg.mirror_cases d.id with ⟨j, hj⟩ | hdfree
    · rw [hk.incidentComponent, hj.incidentComponent] at heq
      exact hk.eq_of_id_eq hvalid hj heq
    · rw [hk.incidentComponent, hdfree.incidentComponent] at heq
      exact absurd heq (h.check_ne_mirror d hd hdfree c hc k hk)
    · rw [hcfree.incidentComponent, hj.incidentComponent] at heq
      exact absurd heq.symm (h.check_ne_mirror c hc hcfree d hd j hj)
    · rwa [hcfree.incidentComponent, hdfree.incidentComponent] at heq
  · rcases cfg.mirror_cases c.id with ⟨k, hk⟩ | hfree
    · rw [hk.incidentComponent]
      exact h.mirror_ne_empty c hc k hk
    · rw [hfree.incidentComponent]
      exact h.check_ne_empty c hc hfree

theorem KeepsApart.separateIds (h : cfg.KeepsApart) : cfg.SeparateIds := by
  refine ⟨fun c hc hfree => ?_, fun c hc hfree d hd k hk heq => ?_, fun d hd k hk => ?_⟩
  · have hne := h.nonempty c hc
    rwa [hfree.incidentComponent] at hne
  · have hsame : c.id = d.id :=
      h.injective c hc d hd (by rw [hfree.incidentComponent, hk.incidentComponent, heq])
    exact hfree k hk.mem (hsame ▸ hk.check_eq)
  · have hne := h.nonempty d hd
    rwa [hk.incidentComponent] at hne

/-! ### What the readers of incidents rely on -/

/-- No two checks find the same incident open. -/
theorem KeepsApart.activeIncidentFor {pf : Platform} {s : Store} {i : Incident} {c d : CheckConfig}
    (h : cfg.KeepsApart) (hc : c ∈ cfg.checks) (hd : d ∈ cfg.checks)
    (hci : s.activeIncidentFor pf (cfg.incidentComponent c.id) = some i)
    (hdi : s.activeIncidentFor pf (cfg.incidentComponent d.id) = some i) : c.id = d.id := by
  obtain ⟨-, -, hcomp, -⟩ := Store.activeIncidentFor_eq_some hci
  obtain ⟨-, -, hdomp, -⟩ := Store.activeIncidentFor_eq_some hdi
  exact h.injective c hc d hd (hcomp.symm.trans hdomp)

/-- A check's incidents count for one component at most. -/
theorem KeepsApart.affects {c : CheckConfig} {id : String} (h : cfg.KeepsApart)
    (hc : c ∈ cfg.checks) (haffects : affects (cfg.incidentComponent c.id) id = true) :
    id = cfg.incidentComponent c.id := by
  have hne := h.nonempty c hc
  rw [Dunlin.affects, Bool.or_eq_true, beq_iff_eq, beq_iff_eq] at haffects
  exact (haffects.resolve_left hne).symm

/-- **A valid config keeps its checks' incidents apart exactly when its ids are separate**, and then
no incident is open for two checks, and none of a check's incidents counts for another component. -/
theorem keepsApart_iff (hvalid : cfg.validate = []) :
    (cfg.KeepsApart ↔ cfg.SeparateIds) ∧ (cfg.KeepsApart →
      (∀ (pf : Platform) (s : Store) (i : Incident), ∀ c ∈ cfg.checks, ∀ d ∈ cfg.checks,
        s.activeIncidentFor pf (cfg.incidentComponent c.id) = some i →
          s.activeIncidentFor pf (cfg.incidentComponent d.id) = some i → c.id = d.id) ∧
      ∀ c ∈ cfg.checks, ∀ id, Dunlin.affects (cfg.incidentComponent c.id) id = true →
        id = cfg.incidentComponent c.id) := by
  refine ⟨⟨KeepsApart.separateIds, keepsApart_of_separateIds hvalid⟩, fun h => ⟨?_, ?_⟩⟩
  · exact fun pf s i c hc d hd hci hdi => h.activeIncidentFor hc hd hci hdi
  · exact fun c hc id haffects => h.affects hc haffects

end Config

/-! ### A check named like another's component -/

/-- The component `api` mirrors the check `web`; the check `api` has no component. -/
def crossedConfig : Config where
  components := [{ id := "api", name := "API", check := some "web" }]
  checks := [{ id := "web", name := "Web" }, { id := "api", name := "Gateway" }]

/-- **A valid config in which two checks share a component.** -/
theorem crossed_not_keepsApart : crossedConfig.validate = [] ∧ ¬crossedConfig.KeepsApart := by
  refine ⟨by decide, fun h => ?_⟩
  have hsame := h.injective { id := "web", name := "Web" } (by decide)
    { id := "api", name := "Gateway" } (by decide) (by decide)
  exact absurd hsame (by decide)

/-- Two checks with a component each, and one with none. -/
def pairedConfig : Config where
  components := [{ id := "site", name := "Site", check := some "web" },
    { id := "api", name := "API", check := some "gateway" }]
  checks := [{ id := "web", name := "Web" }, { id := "gateway", name := "Gateway" },
    { id := "disk", name := "Disk" }]

theorem keepsApart_iff_paired : pairedConfig.SeparateIds ∧
    (∀ (pf : Platform) (s : Store) (i : Incident),
      ∀ c ∈ pairedConfig.checks, ∀ d ∈ pairedConfig.checks,
      s.activeIncidentFor pf (pairedConfig.incidentComponent c.id) = some i →
        s.activeIncidentFor pf (pairedConfig.incidentComponent d.id) = some i → c.id = d.id) ∧
    ∀ c ∈ pairedConfig.checks, ∀ id,
      affects (pairedConfig.incidentComponent c.id) id = true →
        id = pairedConfig.incidentComponent c.id := by
  have hvalid : pairedConfig.validate = [] := by decide
  have hkeeps : pairedConfig.KeepsApart := ⟨by decide, by decide⟩
  exact ⟨(Config.keepsApart_iff hvalid).1.mp hkeeps, (Config.keepsApart_iff hvalid).2 hkeeps⟩

end Dunlin

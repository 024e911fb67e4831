import Dunlin.Config
import Dunlin.Lib.Run
import Mathlib.Algebra.Group.Int.Defs
import Mathlib.Data.List.Basic

/-!
# Heartbeats

The model of `probe_heartbeat` in `prober.rs`, of the parts of `prober_loop` in `app.rs` that it
depends on, and of the endpoint in `web.rs` that records pings. A round of the prober takes the
running config, forgets the times of checks that are no longer in it, if the engine could clear
their incidents, and probes the checks that are due. The deadline of a heartbeat runs from its last
ping, a row that is never deleted, or from when this process first ran the check.

`evaluated` and `pings` are no state of the program. They say what has happened since a check last
entered the config: when it was first evaluated, and which pings have come. `Synced` is that the
program's two times are those of the two; a check that enters must find neither (`Fresh`).

## Scope

A round judges its heartbeats when it begins. `Monitor` has the prober in full, with whatever
happens between two probes of a round, and `ProberViews` shows that a tick there is a round here.

## Main results

* `probeHeartbeat_fails_iff` — when one probe fails, as a duration and not in whole seconds
* `Synced.step`, `Synced.graced` — one operation, and what a round reports
* `heartbeat_graced` — a heartbeat that enters gets its grace, in every run
* `old_ping_counts` — one that finds an old ping does not
-/

namespace Dunlin

open Lib

inductive CheckType
  | http
  | tcp
  | systemd
  | docker
  | disk
  | ram
  | swap
  | load
  | heartbeat
  deriving DecidableEq, Repr

/-- `[[checks]]`, as far as the prober's clock and heartbeats read it. -/
structure WatchedCheck where
  id : String
  kind : CheckType
  interval : Duration := .fromSecs 60
  period : Option Duration := none
  grace : Option Duration := none
  token : Option String := none
  deriving DecidableEq, Repr

/-- `validate_check`, for these fields. -/
def WatchedCheck.Valid (c : WatchedCheck) : Prop :=
  c.interval.nanos ≠ 0 ∧ (c.kind = .heartbeat →
    c.period ≠ none ∧ c.grace ≠ none ∧ ∃ token ∈ c.token, 8 ≤ token.utf8ByteSize)

/-- A config that has passed its checks. -/
structure WatchedConfig where
  checks : List WatchedCheck
  nodup : (checks.map (·.id)).Nodup
  valid : ∀ c ∈ checks, c.Valid

/-- `Config::check`. -/
def WatchedConfig.check (cfg : WatchedConfig) (id : String) : Option WatchedCheck :=
  cfg.checks.find? (·.id == id)

/-- What a probe reports; the latency is left out. -/
structure ProbeOutcome where
  ok : Bool
  message : Option String
  deriving DecidableEq, Repr

def Duration.saturatingAdd (a b : Duration) : Duration := ⟨min (a.nanos + b.nanos) durationMax⟩

namespace WatchedCheck

def periodOr (c : WatchedCheck) : Duration := c.period.getD (.fromSecs 3600)

def graceOr (c : WatchedCheck) : Duration := c.grace.getD (.fromSecs 300)

/-- The seconds that `probe_heartbeat` allows. -/
def allowed (c : WatchedCheck) : ℤ := asI64 (c.periodOr.saturatingAdd c.graceOr).asSecs

/-- Late when nothing arrived within `period + grace`. -/
def probeHeartbeat (c : WatchedCheck) (lastPing : Option ℤ) (watchingSince now : ℤ) :
    ProbeOutcome :=
  match lastPing with
  | none =>
    let waited := now - watchingSince
    if waited > c.allowed then
      ⟨false, some s!"no ping received in {waited}s (allowed {c.allowed}s)"⟩
    else ⟨true, some "waiting for the first ping"⟩
  | some ts =>
    let age := now - ts
    if age > c.allowed then ⟨false, some s!"last ping {age}s ago (allowed {c.allowed}s)"⟩
    else ⟨true, none⟩

/-- More than `period + grace` has elapsed. -/
def Late (c : WatchedCheck) (secs : ℤ) : Prop :=
  ((c.periodOr.nanos + c.graceOr.nanos : ℕ) : ℤ) < secs * 1000000000

instance (c : WatchedCheck) (secs : ℤ) : Decidable (c.Late secs) :=
  inferInstanceAs (Decidable (_ < _))

/-- `period + grace` fits an `i64` in seconds. -/
def InRange (c : WatchedCheck) : Prop :=
  c.periodOr.nanos + c.graceOr.nanos < 2 ^ 63 * 1000000000

instance (c : WatchedCheck) : Decidable c.InRange := inferInstanceAs (Decidable (_ < _))

end WatchedCheck

/-- A heartbeat with this id is in the config. -/
def WatchedConfig.Watches (cfg : WatchedConfig) (id : String) : Prop :=
  ∃ c ∈ cfg.checks, c.id = id ∧ c.kind = .heartbeat

instance (cfg : WatchedConfig) (id : String) : Decidable (cfg.Watches id) :=
  inferInstanceAs (Decidable (∃ c ∈ cfg.checks, _))

/-! ### The prober -/

structure Watch where
  cfg : WatchedConfig
  /-- Counts the configs; two of them are never the same allocation. -/
  version : ℕ
  /-- The config the prober has last reconciled with. -/
  applied : ℕ
  last : String → Option ℤ
  firstRun : String → Option ℤ
  /-- The table `heartbeats`. -/
  heartbeats : String → Option ℤ
  /-- When a check was first evaluated since it entered. -/
  evaluated : String → Option ℤ
  /-- The pings of a check since it entered, oldest first. -/
  pings : String → List ℤ

namespace Watch

/-- A new process, with what the database holds. -/
def start (cfg : WatchedConfig) (heartbeats : String → Option ℤ) : Watch :=
  ⟨cfg, 0, 0, fun _ => none, fun _ => none, heartbeats, fun _ => none, fun _ => []⟩

/-- `apply_reload`, with a config that is valid. -/
def reload (cfg : WatchedConfig) (s : Watch) : Watch :=
  { s with
    cfg
    version := s.version + 1
    evaluated := fun id => if s.cfg.Watches id then s.evaluated id else none
    pings := fun id => if s.cfg.Watches id then s.pings id else [] }

/-- `record_ping`. -/
def recordPing (id : String) (now : ℤ) (s : Watch) : Watch :=
  { s with
    heartbeats := fun id' => if id' = id then some now else s.heartbeats id'
    pings := fun id' => if id' = id then s.pings id' ++ [now] else s.pings id' }

/-- The endpoint for pings: the first heartbeat with the token. -/
def ping (token : String) (now : ℤ) (stored : Bool) (s : Watch) : Watch :=
  match s.cfg.checks.find? fun c => c.kind == .heartbeat && c.token == some token with
  | some c => if stored then s.recordPing c.id now else s
  | none => s

/-- `forget_removed_checks`, when the config is another one and its incidents could be cleared. -/
def forget (cleared : Bool) (s : Watch) : Watch :=
  if s.version ≠ s.applied ∧ cleared then
    { s with
      last := fun id => if (s.cfg.check id).isSome then s.last id else none
      firstRun := fun id => if (s.cfg.check id).isSome then s.firstRun id else none
      applied := s.version }
  else s

/-- The checks that are due. -/
def due (now : ℤ) (s : Watch) : List WatchedCheck :=
  s.cfg.checks.filter fun c => now - (s.last c.id).getD 0 ≥ asI64 c.interval.asSecs

/-- Note the times of the checks that are due. -/
def mark (now : ℤ) (s : Watch) : Watch :=
  let ids := (s.due now).map (·.id)
  { s with
    last := fun id => if id ∈ ids then some now else s.last id
    firstRun := fun id => if id ∈ ids then some ((s.firstRun id).getD now) else s.firstRun id
    evaluated := fun id => if id ∈ ids then some ((s.evaluated id).getD now) else s.evaluated id }

/-- A heartbeat in `evaluate`; a last ping that cannot be read counts as none. -/
def evaluate (readable : String → Bool) (now : ℤ) (s : Watch) (c : WatchedCheck) : ProbeOutcome :=
  c.probeHeartbeat (if readable c.id then s.heartbeats c.id else none)
    ((s.firstRun c.id).getD now) now

end Watch

inductive WatchOp
  | reload (cfg : WatchedConfig)
  | ping (token : String) (now : ℤ) (stored : Bool)
  | round (now : ℤ) (cleared : Bool) (readable : String → Bool)

namespace WatchOp

def step (s : Watch) : WatchOp → Watch
  | .reload cfg => s.reload cfg
  | .ping token now stored => s.ping token now stored
  | .round now cleared _ => (s.forget cleared).mark now

/-- A heartbeat that a round reports failing has had its time: since it was first evaluated, or
since a ping, both counted from when it entered. -/
def Graced (s : Watch) : WatchOp → Prop
  | .reload _ | .ping .. => True
  | .round now cleared readable =>
    let s' := (s.forget cleared).mark now
    ∀ c ∈ (s.forget cleared).due now, c.kind = .heartbeat →
      (s'.evaluate readable now c).ok = false →
      c.Late (now - (s'.evaluated c.id).getD now) ∨ ∃ ts ∈ s'.pings c.id, c.Late (now - ts)

/-- A heartbeat that enters finds no ping on record and no first run. -/
def Fresh (s : Watch) : WatchOp → Prop
  | .reload cfg => ∀ c ∈ cfg.checks, c.kind = .heartbeat → c.InRange ∧
      (¬s.cfg.Watches c.id → s.heartbeats c.id = none ∧ s.firstRun c.id = none)
  | .ping .. | .round .. => True

instance (s : Watch) : DecidablePred (Fresh s) := fun op => by
  cases op <;> unfold Fresh <;> infer_instance

instance (s : Watch) : DecidablePred (Graced s) := fun op => by
  cases op <;> unfold Graced <;> infer_instance

end WatchOp

/-! ### One probe -/

section Probe

variable {c : WatchedCheck} {lastPing : Option ℤ} {watchingSince now secs : ℤ}

theorem allowed_eq (h : c.InRange) :
    c.allowed = ((c.periodOr.nanos + c.graceOr.nanos) / 1000000000 : ℕ) := by
  unfold WatchedCheck.InRange at h
  unfold WatchedCheck.allowed Duration.saturatingAdd Duration.asSecs durationMax
  dsimp only
  rw [min_eq_left (by omega), asI64_of_lt (by omega)]

/-- Whole seconds are compared as the duration is. -/
theorem allowed_lt_iff (h : c.InRange) : c.allowed < secs ↔ c.Late secs := by
  rw [allowed_eq h, WatchedCheck.Late]
  omega

/-- A heartbeat fails if its last ping, or without one its first run, is too long ago. -/
theorem probeHeartbeat_fails_iff (h : c.InRange) :
    (c.probeHeartbeat lastPing watchingSince now).ok = false ↔
      c.Late (now - lastPing.getD watchingSince) := by
  rw [← allowed_lt_iff h]
  unfold WatchedCheck.probeHeartbeat
  cases lastPing with
  | none =>
    dsimp only [Option.getD_none]
    split
    · rename_i hlate
      exact iff_of_true rfl hlate
    · rename_i hlate
      exact iff_of_false Bool.noConfusion hlate
  | some ts =>
    dsimp only [Option.getD_some]
    split
    · rename_i hlate
      exact iff_of_true rfl hlate
    · rename_i hlate
      exact iff_of_false Bool.noConfusion hlate

end Probe

/-! ### The two clocks -/

namespace Watch

/-- For the heartbeats in the config, the program's times are those since they entered. -/
structure Synced (s : Watch) : Prop where
  inRange : ∀ c ∈ s.cfg.checks, c.kind = .heartbeat → c.InRange
  ping : ∀ id, s.cfg.Watches id → s.heartbeats id = (s.pings id).getLast?
  firstRun : ∀ id, s.cfg.Watches id → s.firstRun id = s.evaluated id

variable {s : Watch} {now : ℤ}

theorem watches_of_mem {cfg : WatchedConfig} {c : WatchedCheck} (hc : c ∈ cfg.checks)
    (hkind : c.kind = .heartbeat) : cfg.Watches c.id := ⟨c, hc, rfl, hkind⟩

theorem isSome_check {cfg : WatchedConfig} {id : String} (h : cfg.Watches id) :
    (cfg.check id).isSome = true := by
  obtain ⟨c, hc, hid, -⟩ := h
  rw [WatchedConfig.check, List.find?_isSome]
  exact ⟨c, hc, by simpa using hid⟩

theorem Synced.reload {cfg : WatchedConfig} (h : s.Synced)
    (hfresh : WatchOp.Fresh s (.reload cfg)) : (s.reload cfg).Synced := by
  refine ⟨fun c hc hkind => (hfresh c hc hkind).1, fun id hid => ?_, fun id hid => ?_⟩
  · obtain ⟨c, hc, rfl, hkind⟩ := hid
    by_cases hold : s.cfg.Watches c.id
    · simp only [Watch.reload, if_pos hold]
      exact h.ping _ hold
    · simp only [Watch.reload, if_neg hold]
      exact ((hfresh c hc hkind).2 hold).1
  · obtain ⟨c, hc, rfl, hkind⟩ := hid
    by_cases hold : s.cfg.Watches c.id
    · simp only [Watch.reload, if_pos hold]
      exact h.firstRun _ hold
    · simp only [Watch.reload, if_neg hold]
      exact ((hfresh c hc hkind).2 hold).2

theorem Synced.recordPing (h : s.Synced) (id : String) (now : ℤ) :
    (s.recordPing id now).Synced := by
  refine ⟨h.inRange, fun id' hid => ?_, h.firstRun⟩
  rw [Watch.recordPing]
  dsimp only
  by_cases heq : id' = id
  · rw [if_pos heq, if_pos heq, List.getLast?_concat]
  · rw [if_neg heq, if_neg heq]
    exact h.ping id' hid

theorem Synced.ping_step {token : String} {stored : Bool} (h : s.Synced) :
    (s.ping token now stored).Synced := by
  rw [Watch.ping]
  split
  · split
    · exact h.recordPing _ now
    · exact h
  · exact h

/-- Nothing but the times of checks that are gone is forgotten. -/
theorem forget_frame (cleared : Bool) (s : Watch) : (s.forget cleared).cfg = s.cfg ∧
    (s.forget cleared).heartbeats = s.heartbeats ∧ (s.forget cleared).evaluated = s.evaluated ∧
    (s.forget cleared).pings = s.pings := by
  rw [Watch.forget]
  split
  · exact ⟨rfl, rfl, rfl, rfl⟩
  · exact ⟨rfl, rfl, rfl, rfl⟩

theorem forget_times (cleared : Bool) {id : String} (h : s.cfg.Watches id) :
    (s.forget cleared).last id = s.last id ∧ (s.forget cleared).firstRun id = s.firstRun id := by
  rw [Watch.forget]
  split
  · exact ⟨if_pos (isSome_check h), if_pos (isSome_check h)⟩
  · exact ⟨rfl, rfl⟩

theorem Synced.forget {cleared : Bool} (h : s.Synced) : (s.forget cleared).Synced := by
  obtain ⟨hcfg, hheartbeats, hevaluated, hpings⟩ := forget_frame cleared s
  refine ⟨hcfg ▸ h.inRange, fun id hid => ?_, fun id hid => ?_⟩
  · rw [hheartbeats, hpings]
    exact h.ping id (hcfg ▸ hid)
  · have hwatches : s.cfg.Watches id := hcfg ▸ hid
    rw [(forget_times cleared hwatches).2, hevaluated]
    exact h.firstRun id hwatches

theorem Synced.mark (h : s.Synced) : (s.mark now).Synced := by
  refine ⟨h.inRange, h.ping, fun id hid => ?_⟩
  rw [Watch.mark]
  dsimp only
  rw [h.firstRun id hid]

theorem Synced.step {op : WatchOp} (h : s.Synced) (hfresh : WatchOp.Fresh s op) :
    (WatchOp.step s op).Synced := by
  cases op with
  | reload cfg => exact h.reload hfresh
  | ping token now stored => exact h.ping_step
  | round now cleared readable => exact h.forget.mark

theorem firstRun_mark {c : WatchedCheck} (hc : c ∈ s.due now) :
    (s.mark now).firstRun c.id = some ((s.firstRun c.id).getD now) ∧
      (s.mark now).evaluated c.id = some ((s.evaluated c.id).getD now) := by
  have hid : c.id ∈ (s.due now).map (·.id) := List.mem_map_of_mem hc
  rw [Watch.mark]
  dsimp only
  rw [if_pos hid, if_pos hid]
  exact ⟨rfl, rfl⟩

/-- What a round reports of a heartbeat that is due. -/
theorem evaluate_due {cleared : Bool} {readable : String → Bool} {c : WatchedCheck}
    (hc : c ∈ (s.forget cleared).due now) (hwatches : s.cfg.Watches c.id) :
    ((s.forget cleared).mark now).evaluate readable now c =
      c.probeHeartbeat (if readable c.id then s.heartbeats c.id else none)
        ((s.firstRun c.id).getD now) now := by
  rw [Watch.evaluate, (firstRun_mark hc).1, (forget_times cleared hwatches).2, Option.getD_some]
  show c.probeHeartbeat (if readable c.id then (s.forget cleared).heartbeats c.id else none) _ _ = _
  rw [(forget_frame cleared s).2.1]

/-- A heartbeat that is reported failing has had its time. -/
theorem Synced.late_of_fails {c : WatchedCheck} {readable : String → Bool} (h : s.Synced)
    (hc : c ∈ s.cfg.checks) (hkind : c.kind = .heartbeat)
    (hfails : (s.evaluate readable now c).ok = false) :
    c.Late (now - (s.evaluated c.id).getD now) ∨ ∃ ts ∈ s.pings c.id, c.Late (now - ts) := by
  have hwatches := watches_of_mem hc hkind
  rw [Watch.evaluate, probeHeartbeat_fails_iff (h.inRange c hc hkind),
    h.firstRun _ hwatches] at hfails
  -- the time it runs from is that of its last ping, or of its first run
  cases hping : if readable c.id then s.heartbeats c.id else none with
  | none =>
    rw [hping] at hfails
    exact .inl hfails
  | some ts =>
    rw [hping] at hfails
    have hrow : s.heartbeats c.id = some ts := by
      split at hping
      · exact hping
      · cases hping
    rw [h.ping _ hwatches] at hrow
    exact .inr ⟨ts, List.mem_of_mem_getLast? hrow, hfails⟩

/-- **One round.** -/
theorem Synced.graced {op : WatchOp} (h : s.Synced) : WatchOp.Graced s op := by
  cases op with
  | reload cfg => trivial
  | ping token now stored => trivial
  | round now cleared readable =>
    intro c hc hkind hfails
    have hsynced : ((s.forget cleared).mark now).Synced := h.forget.mark
    exact hsynced.late_of_fails (List.mem_of_mem_filter hc) hkind hfails

theorem synced_start {cfg : WatchedConfig} {heartbeats : String → Option ℤ}
    (h : ∀ c ∈ cfg.checks, c.kind = .heartbeat → c.InRange ∧ heartbeats c.id = none) :
    (start cfg heartbeats).Synced := by
  refine ⟨fun c hc hkind => (h c hc hkind).1, fun id hid => ?_, fun _ _ => rfl⟩
  obtain ⟨c, hc, rfl, hkind⟩ := hid
  exact (h c hc hkind).2

/-- A heartbeat that enters and finds a ping or a first run from before fails at once, if it is
evaluated late enough. -/
theorem exists_not_graced {cfg : WatchedConfig} {c : WatchedCheck} (hc : c ∈ cfg.checks)
    (hkind : c.kind = .heartbeat) (hrange : c.InRange) (henters : ¬s.cfg.Watches c.id)
    (hstale : s.heartbeats c.id ≠ none ∨ s.firstRun c.id ≠ none) :
    ∃ now, ¬WatchOp.Graced (s.reload cfg) (.round now true fun _ => true) := by
  -- the time that its deadline runs from
  obtain ⟨since, hsince⟩ : ∃ since, ∀ now,
      (s.heartbeats c.id).getD ((s.firstRun c.id).getD now) = since := by
    cases hping : s.heartbeats c.id with
    | some ts => exact ⟨ts, fun _ => rfl⟩
    | none =>
      obtain ⟨ts, hts⟩ := Option.ne_none_iff_exists'.mp (hstale.resolve_left (not_not.mpr hping))
      exact ⟨ts, fun _ => by rw [hts]; rfl⟩
  obtain ⟨hcfg, -, hevaluated, hpings⟩ := forget_frame true (s.reload cfg)
  have hwatches : (s.reload cfg).cfg.Watches c.id := watches_of_mem hc hkind
  refine ⟨max (since + c.allowed + 1) ((s.last c.id).getD 0 + asI64 c.interval.asSecs), ?_⟩
  generalize hnow : max (since + c.allowed + 1) _ = now
  intro hgraced
  have hdue : c ∈ ((s.reload cfg).forget true).due now := by
    refine List.mem_filter.mpr ⟨hcfg ▸ hc, decide_eq_true ?_⟩
    rw [(forget_times true hwatches).1]
    show asI64 c.interval.asSecs ≤ now - (s.last c.id).getD 0
    omega
  have hfails : ((((s.reload cfg).forget true).mark now).evaluate (fun _ => true) now c).ok =
      false := by
    rw [evaluate_due hdue hwatches, if_pos rfl, probeHeartbeat_fails_iff hrange,
      ← allowed_lt_iff hrange]
    show c.allowed < now - (s.heartbeats c.id).getD ((s.firstRun c.id).getD now)
    rw [hsince]
    omega
  rcases hgraced c hdue hkind hfails with hlate | ⟨ts, hts, -⟩
  · rw [(firstRun_mark hdue).2, hevaluated, Option.getD_some] at hlate
    have hnone : (s.reload cfg).evaluated c.id = none := if_neg henters
    rw [hnone, Option.getD_none, WatchedCheck.Late] at hlate
    omega
  · have hnil : (((s.reload cfg).forget true).mark now).pings c.id = [] := by
      show ((s.reload cfg).forget true).pings c.id = []
      rw [hpings]
      exact if_neg henters
    rw [hnil] at hts
    exact absurd hts List.not_mem_nil

end Watch

/-- **A heartbeat that enters gets its grace**, in every run in which each that enters, at the start
or later, finds no ping and no first run from before: no probe reports it failing until more than
`period + grace` has elapsed since it was first evaluated, or since a ping. One that does find such
a time, after any run, fails at its first evaluation, if that is late enough. -/
theorem heartbeat_graced (cfg : WatchedConfig) (heartbeats : String → Option ℤ)
    (ops : List WatchOp)
    (hstart : ∀ c ∈ cfg.checks, c.kind = .heartbeat → c.InRange ∧ heartbeats c.id = none) :
    (Always WatchOp.step WatchOp.Fresh (.start cfg heartbeats) ops →
      Always WatchOp.step WatchOp.Graced (.start cfg heartbeats) ops) ∧
    ∀ (new : WatchedConfig), ∀ c ∈ new.checks, c.kind = .heartbeat → c.InRange →
      let s := Lib.run WatchOp.step (.start cfg heartbeats) ops
      ¬s.cfg.Watches c.id → (s.heartbeats c.id ≠ none ∨ s.firstRun c.id ≠ none) →
      ∃ now, ¬WatchOp.Graced (s.reload new) (.round now true fun _ => true) := by
  constructor
  · intro hfresh
    exact hfresh.of_inv (Watch.synced_start hstart) (fun _ _ h hop => h.step hop)
      fun _ _ h _ => h.graced
  · intro new c hc hkind hinRange s henters hstale
    exact Watch.exists_not_graced hc hkind hinRange henters hstale

def noChecks : WatchedConfig := ⟨[], List.nodup_nil, List.forall_mem_nil _⟩

/-- A job that is to ping every hour. -/
def hourlyJob : WatchedCheck where
  id := "job"
  kind := .heartbeat
  period := some (.fromSecs 3600)
  grace := some (.fromSecs 300)
  token := some "a-long-token"

theorem hourlyJob_valid : hourlyJob.Valid :=
  ⟨by decide, fun _ => ⟨by decide, by decide, _, rfl, by decide⟩⟩

def hourly : WatchedConfig :=
  ⟨[hourlyJob], List.nodup_singleton _, List.forall_mem_singleton.mpr hourlyJob_valid⟩

/-- A job that has never pinged leaves the config and comes back. -/
def leftAndBack : List WatchOp :=
  [.reload hourly, .round 100 true fun _ => true, .reload noChecks, .round 200 true fun _ => true,
    .reload hourly, .round 90000 true fun _ => true]

theorem heartbeat_graced_leftAndBack :
    Always WatchOp.step WatchOp.Graced (.start noChecks fun _ => none) leftAndBack ∧
    ∃ now, ¬WatchOp.Graced ((Lib.run WatchOp.step (.start hourly fun _ => none)
      [.ping "a-long-token" 100 true, .reload noChecks]).reload hourly)
      (.round now true fun _ => true) :=
  ⟨(heartbeat_graced noChecks _ leftAndBack (by decide)).1 (by decide),
    (heartbeat_graced hourly _ _ (by decide)).2 hourly hourlyJob (List.mem_singleton_self _) rfl
      (by decide) (by decide) (.inl (by decide))⟩

/-- **A job that comes back fails at once**: its ping from before it left is still on record. -/
theorem old_ping_counts :
    ¬∀ (cfg : WatchedConfig) (ops : List WatchOp),
      (∀ c ∈ cfg.checks, c.kind = .heartbeat → c.InRange) →
      Always WatchOp.step WatchOp.Graced (.start cfg fun _ => none) ops := by
  intro h
  have hgraced := h hourly [.round 50 true fun _ => true, .ping "a-long-token" 100 true,
    .reload noChecks, .round 200 true fun _ => true, .reload hourly,
    .round 90000 true fun _ => true] (by decide)
  exact absurd hgraced (by decide)

end Dunlin

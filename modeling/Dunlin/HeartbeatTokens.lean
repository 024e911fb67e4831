import Dunlin.Heartbeats

/-!
# The tokens of heartbeats

The endpoint for pings looks for the token in the checks, in their order, and records a ping for the
first heartbeat that has it. `validate` wants a heartbeat's token to be long enough, but does not
compare it with the tokens of other heartbeats. With one token for two of them, the later one never
gets a ping.

`pings_reach_iff` says which heartbeats get theirs. A token that no heartbeat has records nothing.

The comparison takes the same time wherever two tokens differ (`secretEq`); what it decides is
equality, and the rest follows from which check `find?` comes to first.

## Main results

* `heartbeat_unknown` — a token that no heartbeat has records nothing
* `reaches_iff` — a heartbeat gets its pings if it is first with its token
* `pings_reach_iff` — all heartbeats of a config get theirs if their tokens differ
* `copied_not_reached` — a valid config with one token for two jobs
-/

namespace Dunlin

/-- `secret_eq`: the bytes of two strings. -/
def secretEq (a b : String) : Bool := a.toByteArray.data.toList == b.toByteArray.data.toList

theorem secretEq_iff {a b : String} : secretEq a b = true ↔ a = b := by
  rw [secretEq, beq_iff_eq, Array.toList_inj, ← ByteArray.ext_iff, String.toByteArray_inj]

/-- What the endpoint answers. -/
inductive PingAnswer
  | ok
  | unknownToken
  | internalError
  deriving DecidableEq, Repr

/-- The table `heartbeats`. -/
abbrev LastPings := String → Option ℤ

/-- `record_ping`. -/
def LastPings.record (id : String) (now : ℤ) (pings : LastPings) : LastPings :=
  fun id' => if id' = id then some now else pings id'

section Endpoint

variable (token : String) (now : ℤ) (stored : Bool) (pings : LastPings)

/-- `heartbeat`: the loop over the checks. `stored` says whether the statement succeeds. -/
def heartbeat : List WatchedCheck → PingAnswer × LastPings
  | [] => (.unknownToken, pings)
  | check :: checks =>
    if check.kind ≠ .heartbeat then heartbeat checks
    else
      match check.token with
      | some expected =>
        if secretEq expected token then
          if stored then (.ok, pings.record check.id now) else (.internalError, pings)
        else heartbeat checks
      | none => heartbeat checks

/-- A heartbeat with the token. -/
def Answers (c : WatchedCheck) : Prop := c.kind = .heartbeat ∧ c.token = some token

instance : DecidablePred (Answers token) := fun _ => inferInstanceAs (Decidable (_ ∧ _))

variable {token now stored pings} {checks : List WatchedCheck} {c : WatchedCheck}

/-- The loop records a ping for the first heartbeat with the token. -/
theorem heartbeat_eq : heartbeat token now stored pings checks =
    match checks.find? fun c => decide (Answers token c) with
    | some c => if stored then (.ok, pings.record c.id now) else (.internalError, pings)
    | none => (.unknownToken, pings) := by
  induction checks with
  | nil => rfl
  | cons check checks ih =>
    rw [heartbeat]
    by_cases hkind : check.kind = .heartbeat
    · rw [if_neg (not_not.mpr hkind)]
      cases htoken : check.token with
      | none =>
        have hno : ¬Answers token check := fun h => by simp [Answers, htoken] at h
        rw [List.find?_cons_of_neg (by simpa using hno), ih]
      | some expected =>
        dsimp only
        by_cases heq : expected = token
        · have hyes : Answers token check := ⟨hkind, by rw [htoken, heq]⟩
          rw [if_pos (secretEq_iff.mpr heq), List.find?_cons_of_pos (by simpa using hyes)]
        · have hno : ¬Answers token check := fun h => by simp [Answers, htoken, heq] at h
          rw [if_neg (fun h => heq (secretEq_iff.mp h)),
            List.find?_cons_of_neg (by simpa using hno), ih]
    · have hno : ¬Answers token check := fun h => hkind h.1
      rw [if_pos hkind, List.find?_cons_of_neg (by simpa using hno), ih]

/-- What the endpoint does to the table is what it does in `Watch.ping`. -/
theorem heartbeats_ping (s : Watch) : (s.ping token now stored).heartbeats =
    (heartbeat token now stored s.heartbeats s.cfg.checks).2 := by
  have hsame : (fun c : WatchedCheck => decide (Answers token c)) =
      fun c => c.kind == .heartbeat && c.token == some token := by
    funext c
    rw [Bool.eq_iff_iff, decide_eq_true_iff, Bool.and_eq_true, beq_iff_eq, beq_iff_eq, Answers]
  rw [heartbeat_eq, hsame, Watch.ping]
  cases s.cfg.checks.find? fun c => c.kind == .heartbeat && c.token == some token with
  | none => rfl
  | some c => cases stored <;> rfl

/-- A token that no heartbeat has records nothing. -/
theorem heartbeat_unknown (h : ∀ c ∈ checks, ¬Answers token c) :
    heartbeat token now stored pings checks = (.unknownToken, pings) := by
  have hfind : checks.find? (fun c => decide (Answers token c)) = none := by
    rw [List.find?_eq_none]
    exact fun c hc => by simpa using h c hc
  rw [heartbeat_eq, hfind]

end Endpoint

/-! ### Which heartbeats get their pings -/

namespace WatchedConfig

variable {cfg : WatchedConfig} {c : WatchedCheck} {token : String}

/-- A request with the check's token records a ping for the check, and nothing else. -/
def Reaches (cfg : WatchedConfig) (c : WatchedCheck) : Prop :=
  ∀ token, c.token = some token → ∀ (now : ℤ) (pings : LastPings),
    heartbeat token now true pings cfg.checks = (.ok, pings.record c.id now)

/-- No heartbeat before the check has its token. -/
def FirstWithToken (cfg : WatchedConfig) (c : WatchedCheck) : Prop :=
  ∃ before after, cfg.checks = before ++ c :: after ∧
    ∀ b ∈ before, b.kind = .heartbeat → b.token ≠ c.token

/-- The tokens of different heartbeats are different. -/
def DistinctTokens (cfg : WatchedConfig) : Prop :=
  cfg.checks.Pairwise fun b c => b.kind = .heartbeat → c.kind = .heartbeat → b.token ≠ c.token

theorem eq_of_id_eq {b : WatchedCheck} (hb : b ∈ cfg.checks) (hc : c ∈ cfg.checks)
    (h : b.id = c.id) : b = c := List.inj_on_of_nodup_map cfg.nodup hb hc h

/-- A heartbeat in a config has a token. -/
theorem exists_token (hc : c ∈ cfg.checks) (hkind : c.kind = .heartbeat) :
    ∃ token, c.token = some token := by
  obtain ⟨-, -, token, htoken, -⟩ := (cfg.valid c hc).2 hkind
  exact ⟨token, htoken⟩

theorem FirstWithToken.find? (h : cfg.FirstWithToken c) (hc : Answers token c) :
    cfg.checks.find? (fun c => decide (Answers token c)) = some c := by
  obtain ⟨before, after, hsplit, hfirst⟩ := h
  rw [List.find?_eq_some_iff_append]
  refine ⟨by simpa using hc, before, after, hsplit, fun b hb => ?_⟩
  have hno : ¬Answers token b := fun hba => hfirst b hb hba.1 (hba.2.trans hc.2.symm)
  simpa using hno

theorem firstWithToken_of_find? (hc : Answers token c)
    (h : cfg.checks.find? (fun c => decide (Answers token c)) = some c) :
    cfg.FirstWithToken c := by
  obtain ⟨-, before, after, hsplit, hfirst⟩ := List.find?_eq_some_iff_append.mp h
  refine ⟨before, after, hsplit, fun b hb hkind heq => ?_⟩
  have hno : ¬Answers token b := by simpa using hfirst b hb
  exact hno ⟨hkind, heq.trans hc.2⟩

/-- **A heartbeat gets its pings exactly when it is the first with its token.** -/
theorem reaches_iff (hc : c ∈ cfg.checks) (hkind : c.kind = .heartbeat) :
    cfg.Reaches c ↔ cfg.FirstWithToken c := by
  obtain ⟨token, htoken⟩ := exists_token hc hkind
  constructor
  · intro h
    have hping := h token htoken 0 fun _ => none
    rw [heartbeat_eq] at hping
    cases hfind : cfg.checks.find? fun c => decide (Answers token c) with
    | none => simp [hfind] at hping
    | some d =>
      -- The ping was recorded for the check that was found.
      have hrecord : LastPings.record d.id 0 (fun _ => none) d.id =
          LastPings.record c.id 0 (fun _ => none) d.id := by
        simpa [hfind] using congrFun (congrArg Prod.snd hping) d.id
      have hid : d.id = c.id := by
        by_contra hne
        simp [LastPings.record, hne] at hrecord
      obtain rfl := eq_of_id_eq (List.mem_of_find?_eq_some hfind) hc hid
      exact firstWithToken_of_find? ⟨hkind, htoken⟩ hfind
  · intro h token' htoken' now pings
    rw [heartbeat_eq, h.find? ⟨hkind, htoken'⟩]
    rfl

theorem distinctTokens_iff :
    cfg.DistinctTokens ↔ ∀ c ∈ cfg.checks, c.kind = .heartbeat → cfg.FirstWithToken c := by
  constructor
  · intro h c hc hkind
    obtain ⟨before, after, hsplit⟩ := List.append_of_mem hc
    rw [DistinctTokens, hsplit, List.pairwise_append] at h
    exact ⟨before, after, hsplit, fun b hb hbkind =>
      h.2.2 b hb c List.mem_cons_self hbkind hkind⟩
  · intro h
    rw [DistinctTokens, List.pairwise_iff_getElem]
    intro i j hi hj hij hbkind hckind
    have hcj : cfg.checks[j]? = some cfg.checks[j] := List.getElem?_eq_getElem hj
    obtain ⟨before, after, hsplit, hfirst⟩ := h cfg.checks[j] (List.getElem_mem hj) hckind
    generalize cfg.checks[j] = c at hckind hsplit hfirst hcj ⊢
    have hcl : cfg.checks[before.length]? = some c := by rw [hsplit]; simp
    have hlt : before.length < cfg.checks.length := by rw [hsplit]; simp
    -- There is one place only where the check stands.
    have hlen : before.length = j :=
      (List.getElem?_inj hlt (List.Nodup.of_map _ cfg.nodup)).mp (hcl.trans hcj.symm)
    have hbi : before[i]? = some cfg.checks[i] := by
      rw [← List.getElem?_eq_getElem hi, hsplit, List.getElem?_append_left (by omega)]
    exact hfirst _ (List.mem_of_getElem? hbi) hbkind

/-- **Pings reach the heartbeats that are first with their token**: all of a config's if and only if
their tokens are different. Any other string records nothing. -/
theorem pings_reach_iff (cfg : WatchedConfig) :
    (∀ c ∈ cfg.checks, c.kind = .heartbeat → (cfg.Reaches c ↔ cfg.FirstWithToken c)) ∧
      ((∀ c ∈ cfg.checks, c.kind = .heartbeat → cfg.Reaches c) ↔ cfg.DistinctTokens) ∧
      ∀ token, (∀ c ∈ cfg.checks, ¬Answers token c) →
        ∀ (now : ℤ) (stored : Bool) (pings : LastPings),
          heartbeat token now stored pings cfg.checks = (.unknownToken, pings) := by
  refine ⟨fun c hc hkind => reaches_iff hc hkind, ?_,
    fun token h now stored pings => heartbeat_unknown h⟩
  rw [distinctTokens_iff]
  constructor
  · exact fun h c hc hkind => (reaches_iff hc hkind).mp (h c hc hkind)
  · exact fun h c hc hkind => (reaches_iff hc hkind).mpr (h c hc hkind)

end WatchedConfig

/-- Another job with the token of `hourlyJob`. -/
def copiedJob : WatchedCheck := { hourlyJob with id := "backup" }

theorem copiedJob_valid : copiedJob.Valid := hourlyJob_valid

/-- Two jobs with one token. -/
def copied : WatchedConfig where
  checks := [hourlyJob, copiedJob]
  nodup := by decide
  valid := List.forall_mem_cons.mpr ⟨hourlyJob_valid, List.forall_mem_singleton.mpr copiedJob_valid⟩

/-- **A ping with the second job's token is recorded for the first.** -/
theorem copied_not_reached :
    copiedJob ∈ copied.checks ∧ copiedJob.kind = .heartbeat ∧ ¬copied.Reaches copiedJob := by
  refine ⟨by decide, rfl, fun h => ?_⟩
  have hping := h "a-long-token" rfl 100 fun _ => none
  have hrecord := congrFun (congrArg Prod.snd hping) "backup"
  exact absurd hrecord (by decide)

/-- The only job of a config. -/
theorem pings_reach_iff_hourly : (hourly.Reaches hourlyJob ↔ hourly.FirstWithToken hourlyJob) ∧
    heartbeat "another-token" 100 true (fun _ => none) hourly.checks =
      (.unknownToken, fun _ => none) :=
  ⟨(WatchedConfig.pings_reach_iff hourly).1 hourlyJob List.mem_cons_self rfl,
    (WatchedConfig.pings_reach_iff hourly).2.2 "another-token" (by decide) 100 true fun _ => none⟩

end Dunlin

import Mathlib.Data.List.Basic

/-!
# Maps that know when a key was last seen

A pacer spaces the events of each key by remembering, for every key, an instant no earlier than its
last event. Such a map grows with every key, so it is purged of what is old. `Remembers` says what
is left of the past in a map that is written to and purged in any order: an event is covered by the
instant of its key, or it is older than what a purge keeps.

The two uses of a map are the two rules at the end. An event that is let through when its key has
been quiet for a while (`Remembers.ready`) and an event that waits for what is missing
(`Remembers.waited`) come that long after every event of the same key, purges or not. No rule
needs to know which purges there were.

## Main results

* `Remembers.put`, `Remembers.purge`, `Remembers.later` — what happens to a map keeps it
* `Remembers.ready`, `Remembers.waited` — the two uses
-/

namespace Lib

namespace LastSeen

variable {κ : Type}

/-- Set the instant of a key. -/
def put [DecidableEq κ] (m : List (κ × ℕ)) (k : κ) (t : ℕ) : List (κ × ℕ) :=
  (k, t) :: m.filter fun e => e.1 ≠ k

/-- Forget every instant `keep` ago or longer. -/
def purge (keep now : ℕ) (m : List (κ × ℕ)) : List (κ × ℕ) := m.filter fun e => now - e.2 < keep

variable [BEq κ] [LawfulBEq κ]

/-- A purge does not move an instant that it keeps. -/
theorem lookup_purge {keep now t : ℕ} {m : List (κ × ℕ)} {k : κ} (h : m.lookup k = some t)
    (hkept : now - t < keep) : (purge keep now m).lookup k = some t := by
  obtain ⟨l₁, l₂, rfl, hl₁⟩ := List.lookup_eq_some_iff.mp h
  rw [purge, List.filter_append, List.filter_cons_of_pos (by simpa using hkept)]
  exact List.lookup_eq_some_iff.mpr ⟨_, _, rfl, fun e he => hl₁ e (List.mem_filter.mp he).1⟩

variable [DecidableEq κ]

theorem lookup_put_self (m : List (κ × ℕ)) (k : κ) (t : ℕ) : (put m k t).lookup k = some t :=
  List.lookup_cons_self

/-- Dropping one key leaves the instants of the others. -/
theorem lookup_filter_ne (m : List (κ × ℕ)) {k k' : κ} (hne : k' ≠ k) :
    (m.filter fun e => e.1 ≠ k).lookup k' = m.lookup k' := by
  induction m with
  | nil => rfl
  | cons e m ih =>
    by_cases he : e.1 = k
    · have hskip : (k' == e.1) = false := beq_eq_false_iff_ne.mpr (he ▸ hne)
      rw [List.filter_cons_of_neg (by simpa using he), ih, List.lookup_cons, hskip]
    · rw [List.filter_cons_of_pos (by simpa using he), List.lookup_cons, List.lookup_cons, ih]

theorem lookup_put_of_ne (m : List (κ × ℕ)) {k k' : κ} (t : ℕ) (hne : k' ≠ k) :
    (put m k t).lookup k' = m.lookup k' := by
  rw [put, List.lookup_cons, beq_eq_false_iff_ne.mpr hne, ← lookup_filter_ne m hne]

end LastSeen

/-- What the map `m` still knows of the events of the past at `clock`: each one is covered by the
instant of its key, or it is at least `keep` old. -/
structure Remembers {κ : Type} [BEq κ] (keep : ℕ) (past : List (κ × ℕ)) (clock : ℕ)
    (m : List (κ × ℕ)) : Prop where
  le : ∀ e ∈ past, e.2 ≤ clock
  seen : ∀ e ∈ past, (∃ t, m.lookup e.1 = some t ∧ e.2 ≤ t) ∨ e.2 + keep ≤ clock

namespace Remembers

variable {κ : Type} [BEq κ] {keep clock now t gap : ℕ} {past : List (κ × ℕ)}
  {m : List (κ × ℕ)} {k : κ} {e : κ × ℕ}

theorem nil (keep clock : ℕ) (m : List (κ × ℕ)) : Remembers keep [] clock m :=
  ⟨fun _ he => absurd he List.not_mem_nil, fun _ he => absurd he List.not_mem_nil⟩

theorem later (h : Remembers keep past clock m) (hle : clock ≤ now) :
    Remembers keep past now m :=
  ⟨fun e he => Nat.le_trans (h.le e he) hle,
    fun e he => (h.seen e he).imp_right fun hold => Nat.le_trans hold hle⟩

theorem purge [LawfulBEq κ] (h : Remembers keep past now m) :
    Remembers keep past now (LastSeen.purge keep now m) := by
  refine ⟨h.le, fun e he => ?_⟩
  rcases h.seen e he with ⟨t, hlookup, ht⟩ | hold
  · have hle := h.le e he
    by_cases hkept : now - t < keep
    · exact .inl ⟨t, LastSeen.lookup_purge hlookup hkept, ht⟩
    · exact .inr (by omega)
  · exact .inr hold

/-- An event at `t` that is written down at `now`. -/
theorem put [LawfulBEq κ] [DecidableEq κ] (h : Remembers keep past clock m) (hle : clock ≤ now)
    (ht : t ≤ now) (k : κ) : Remembers keep (past ++ [(k, t)]) now (LastSeen.put m k now) := by
  refine ⟨fun e he => ?_, fun e he => ?_⟩
  · rcases List.mem_append.mp he with he | he
    · exact Nat.le_trans (h.le e he) hle
    · rwa [List.mem_singleton.mp he]
  · rcases List.mem_append.mp he with he | he
    · by_cases hk : e.1 = k
      · exact .inl ⟨now, hk ▸ LastSeen.lookup_put_self m k now, Nat.le_trans (h.le e he) hle⟩
      · rw [LastSeen.lookup_put_of_ne m now hk]
        exact (h.later hle).seen e he
    · rw [List.mem_singleton.mp he]
      exact .inl ⟨now, LastSeen.lookup_put_self m k now, ht⟩

/-- **Letting through.** When the instant of a key is `gap` ago, so is every event of that key. -/
theorem ready (h : Remembers keep past now m) (hgap : gap ≤ keep)
    (hready : (m.lookup k).all (fun t => gap ≤ now - t) = true) (he : e ∈ past) (hk : e.1 = k) :
    e.2 + gap ≤ now := by
  have hle := h.le e he
  rcases h.seen e he with ⟨t, hlookup, ht⟩ | hold
  · have hsince : gap ≤ now - t := by simpa [← hk, hlookup] using hready
    omega
  · omega

/-- **Waiting.** After waiting for what the instant of a key lacks of `gap`, every event of that key
is `gap` ago. -/
theorem waited (h : Remembers keep past now m) (hgap : gap ≤ keep) (he : e ∈ past) (hk : e.1 = k) :
    e.2 + gap ≤ now + ((m.lookup k).map fun t => gap - (now - t)).getD 0 := by
  have hle := h.le e he
  rcases h.seen e he with ⟨t, hlookup, ht⟩ | hold
  · rw [← hk, hlookup, Option.map_some, Option.getD_some]
    omega
  · omega

end Remembers

end Lib

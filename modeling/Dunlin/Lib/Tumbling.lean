import Dunlin.Lib.Run
import Mathlib.Algebra.Order.Group.Defs
import Mathlib.Tactic.Abel

/-!
# Counting in tumbling windows

A counter of hits keeps the hits of one window. The window opens with a hit and takes the hits less
than `width` later; the next hit after that opens the next window, and a clear closes the window at
once. That is less to keep than every recent hit, and it counts less: hits close together may fall
into two windows.

`Burst n` says what one would like to know, that `n` hits fell within less than `width` with no
clear between them. `Fills n` says what the counter knows, that some window came to hold `n` hits.
The second implies the first (`burst_of_fills`), and `2 * n - 1` hits close together are enough for
a window to hold `n` of them (`fills_of_burst`).

Times are elements of an ordered group.

## Main results

* `exists_fillsAt_iff` — a counter that filled up did so at some hit
* `burst_of_fills` — a window that filled up is a burst
* `fills_of_burst` — and a burst of almost twice as many fills a window
-/

namespace Lib

variable {α : Type}

/-- What a counter is fed. -/
inductive Beat (α : Type)
  | hit (t : α)
  | clear
  deriving DecidableEq

/-- The time of a hit. -/
def Beat.time : Beat α → Option α
  | .hit t => some t
  | .clear => none

/-- The times of the hits. -/
def hits (beats : List (Beat α)) : List α := beats.filterMap Beat.time

@[simp] theorem hits_append_hit (beats : List (Beat α)) (t : α) :
    hits (beats ++ [.hit t]) = hits beats ++ [t] := by
  simp [hits, Beat.time]

@[simp] theorem hits_append_clear (beats : List (Beat α)) :
    hits (beats ++ [.clear]) = hits beats := by
  simp [hits, Beat.time]

variable [AddCommGroup α] [LinearOrder α]

/-- The hits of the window after one more beat. -/
def tumble (width : α) (window : List α) : Beat α → List α
  | .hit t => if window.head?.any (t - · < width) then window ++ [t] else [t]
  | .clear => []

/-- The hits of the window, oldest first. -/
def window (width : α) (beats : List (Beat α)) : List α := run (tumble width) [] beats

/-- Some window came to hold `n` hits. -/
def Fills (width : α) (n : ℕ) (beats : List (Beat α)) : Prop :=
  ∃ past, past <+: beats ∧ n ≤ (window width past).length

/-- The hit at `t` was the first to be the `n`-th of a window. -/
def FillsAt (width : α) (n : ℕ) (beats : List (Beat α)) (t : α) : Prop :=
  ∃ past, past ++ [.hit t] <+: beats ∧ (window width (past ++ [.hit t])).length = n ∧
    ¬Fills width n past

/-- `n` hits fell within less than `width`, with no clear between them. -/
def Burst (width : α) (n : ℕ) (beats : List (Beat α)) : Prop :=
  ∃ seg, seg <:+: beats ∧ .clear ∉ seg ∧ n ≤ (hits seg).length ∧
    ∀ a ∈ hits seg, ∀ b ∈ hits seg, b - a < width

variable {width t : α} {n : ℕ} {beats : List (Beat α)} {b : Beat α}

/-! ### One more beat -/

theorem window_append_singleton (width : α) (beats : List (Beat α)) (b : Beat α) :
    window width (beats ++ [b]) = tumble width (window width beats) b := by
  rw [window, run_append]
  rfl

/-- A window grows by one hit at most. -/
theorem length_tumble_le (width : α) (window : List α) (b : Beat α) :
    (tumble width window b).length ≤ window.length + 1 := by
  cases b with
  | hit t =>
    rw [tumble]
    split
    · rw [List.length_append, List.length_singleton]
    · rw [List.length_singleton]
      omega
  | clear => exact Nat.zero_le _

theorem fills_append_singleton : Fills width n (beats ++ [b]) ↔
    Fills width n beats ∨ n ≤ (window width (beats ++ [b])).length := by
  constructor
  · rintro ⟨past, hpast, hn⟩
    rcases List.prefix_concat_iff.mp hpast with rfl | hpast
    · exact .inr hn
    · exact .inl ⟨past, hpast, hn⟩
  · rintro (⟨past, hpast, hn⟩ | hn)
    · exact ⟨past, hpast.trans (List.prefix_append _ _), hn⟩
    · exact ⟨beats ++ [b], List.prefix_refl _, hn⟩

theorem length_lt_of_not_fills (h : ¬Fills width n beats) : (window width beats).length < n :=
  Nat.lt_of_not_le fun hn => h ⟨beats, List.prefix_refl _, hn⟩

theorem fillsAt_append_singleton : FillsAt width n (beats ++ [b]) t ↔
    FillsAt width n beats t ∨
      b = .hit t ∧ (window width (beats ++ [b])).length = n ∧ ¬Fills width n beats := by
  constructor
  · rintro ⟨past, hpast, hn, hfirst⟩
    rcases List.prefix_concat_iff.mp hpast with heq | hpast
    · obtain ⟨rfl, hb⟩ := List.append_inj' heq rfl
      cases hb
      exact .inr ⟨rfl, hn, hfirst⟩
    · exact .inl ⟨past, hpast, hn, hfirst⟩
  · rintro (⟨past, hpast, hn, hfirst⟩ | ⟨rfl, hn, hfirst⟩)
    · exact ⟨past, hpast.trans (List.prefix_append _ _), hn, hfirst⟩
    · exact ⟨beats, List.prefix_refl _, hn, hfirst⟩

theorem FillsAt.fills (h : FillsAt width n beats t) : Fills width n beats := by
  obtain ⟨past, hpast, hn, -⟩ := h
  exact ⟨past ++ [.hit t], hpast, hn.ge⟩

/-- A window is filled by one hit. -/
theorem exists_fillsAt_iff (hn : 0 < n) : (∃ t, FillsAt width n beats t) ↔ Fills width n beats := by
  refine ⟨fun ⟨t, ht⟩ => ht.fills, fun h => ?_⟩
  induction beats using List.reverseRecOn with
  | nil =>
    obtain ⟨past, hpast, hle⟩ := h
    rw [List.prefix_nil.mp hpast] at hle
    exact absurd hle (Nat.not_le.mpr hn)
  | append_singleton beats b ih =>
    by_cases hold : Fills width n beats
    · obtain ⟨t, ht⟩ := ih hold
      exact ⟨t, fillsAt_append_singleton.mpr (.inl ht)⟩
    · have hfull := (fills_append_singleton.mp h).resolve_left hold
      have hlt := length_lt_of_not_fills hold
      have hle := length_tumble_le width (window width beats) b
      rw [← window_append_singleton] at hle
      cases b with
      | hit t => exact ⟨t, fillsAt_append_singleton.mpr (.inr ⟨rfl, by omega, hold⟩)⟩
      | clear =>
        rw [window_append_singleton, tumble, List.length_nil] at hfull
        omega

/-! ### Windows and bursts -/

/-- The hits of a window come one after another, the first of them less than `width` ago. -/
theorem exists_segment (hwidth : 0 < width) (hsorted : (hits beats).Pairwise (· ≤ ·)) :
    ∃ seg, seg <:+ beats ∧ .clear ∉ seg ∧ hits seg = window width beats ∧
      ∀ t ∈ window width beats, ∃ s ∈ (window width beats).head?, s ≤ t ∧ t - s < width := by
  induction beats using List.reverseRecOn with
  | nil => exact ⟨[], List.suffix_refl _, by simp, rfl, nofun⟩
  | append_singleton beats b ih =>
    cases b with
    | clear =>
      refine ⟨[], List.nil_suffix, by simp, ?_, ?_⟩ <;> simp [window_append_singleton, tumble, hits]
    | hit t =>
      rw [hits_append_hit] at hsorted
      obtain ⟨hbefore, -, hlast⟩ := List.pairwise_append.mp hsorted
      obtain ⟨seg, hseg, hclear, hhits, hwithin⟩ := ih hbefore
      rw [window_append_singleton, tumble]
      split
      · rename_i hopen
        obtain ⟨s, hs, hst⟩ := (Option.any_eq_true _ _).mp hopen
        have hmem : s ∈ hits beats := by
          have hwindow : s ∈ hits seg := hhits ▸ List.mem_of_head? hs
          exact (hseg.sublist.filterMap Beat.time).subset hwindow
        have hhead : (window width beats ++ [t]).head? = some s := by
          rw [List.head?_append, hs, Option.some_or]
        refine ⟨seg ++ [.hit t], ?_, by simp [hclear], by rw [hits_append_hit, hhits], ?_⟩
        · obtain ⟨before, rfl⟩ := hseg
          exact ⟨before, (List.append_assoc _ _ _).symm⟩
        · intro a ha
          refine ⟨s, hhead, ?_⟩
          rcases List.mem_append.mp ha with ha | ha
          · obtain ⟨s', hs', hwithin⟩ := hwithin a ha
            rwa [Option.some.inj (hs.symm.trans hs')]
          · rw [List.mem_singleton.mp ha]
            exact ⟨hlast s hmem t (List.mem_singleton_self t), of_decide_eq_true hst⟩
      · refine ⟨[.hit t], List.suffix_append _ _, by simp, by simp [hits, Beat.time], ?_⟩
        intro a ha
        rw [List.mem_singleton.mp ha]
        exact ⟨t, rfl, le_refl t, by rwa [sub_self]⟩

/-- **A full window is a burst.** -/
theorem burst_of_fills [IsOrderedAddMonoid α] (hwidth : 0 < width)
    (hsorted : (hits beats).Pairwise (· ≤ ·)) (h : Fills width n beats) : Burst width n beats := by
  obtain ⟨past, ⟨rest, rfl⟩, hn⟩ := h
  have hpast : (hits past).Pairwise (· ≤ ·) := by
    rw [hits, List.filterMap_append] at hsorted
    exact (List.pairwise_append.mp hsorted).1
  obtain ⟨seg, hseg, hclear, hhits, hwithin⟩ := exists_segment hwidth hpast
  refine ⟨seg, hseg.isInfix.trans (List.prefix_append past rest).isInfix, hclear, hhits ▸ hn, ?_⟩
  intro a ha b hb
  rw [hhits] at ha hb
  obtain ⟨s, hs, hsa, -⟩ := hwithin a ha
  obtain ⟨s', hs', -, hsb⟩ := hwithin b hb
  rw [Option.some.inj (hs.symm.trans hs')] at hsa
  exact lt_of_le_of_lt (sub_le_sub_left hsa b) hsb

/-- Through hits close together, either the window has them all, or it opened at one of them, and
then fewer than `n` are missing, or a window was full. -/
theorem window_of_close {past seg : List (Beat α)} (hclear : .clear ∉ seg)
    (hclose : ∀ a ∈ hits seg, ∀ b ∈ hits seg, b - a < width) :
    Fills width n (past ++ seg) ∨
      (hits seg).length ≤ (window width (past ++ seg)).length ∨
        (hits seg).length + 1 ≤ (window width (past ++ seg)).length + n ∧
          ∃ s ∈ (window width (past ++ seg)).head?, s ∈ hits seg := by
  induction seg using List.reverseRecOn with
  | nil => exact .inr (.inl (Nat.zero_le _))
  | append_singleton seg b ih =>
    cases b with
    | clear => exact absurd (List.mem_append_right _ (List.mem_singleton_self _)) hclear
    | hit t =>
      rw [hits_append_hit] at hclose ⊢
      have hmem : ∀ a ∈ hits seg, a ∈ hits seg ++ [t] := fun a ha => List.mem_append_left _ ha
      have hlast : t ∈ hits seg ++ [t] := List.mem_append_right _ (List.mem_singleton_self t)
      rw [← List.append_assoc]
      rcases ih (fun h => hclear (List.mem_append_left _ h)) fun a ha b hb =>
          hclose a (hmem a ha) b (hmem b hb) with hfull | hold
      · exact .inl (fills_append_singleton.mpr (.inl hfull))
      by_cases hfull : Fills width n (past ++ seg)
      · exact .inl (fills_append_singleton.mpr (.inl hfull))
      have hlt := length_lt_of_not_fills hfull
      right
      rw [window_append_singleton, tumble, List.length_append, List.length_singleton]
      split
      · -- the window goes on
        rw [List.length_append, List.length_singleton]
        rcases hold with hall | ⟨hmost, s, hs, hin⟩
        · exact .inl (by omega)
        · refine .inr ⟨by omega, s, ?_, hmem s hin⟩
          rw [List.head?_append, hs, Option.some_or]
          rfl
      · -- the hit opens a window
        rename_i hover
        rcases hold with hall | ⟨-, s, hs, hin⟩
        · refine .inr ⟨?_, t, rfl, hlast⟩
          rw [List.length_singleton]
          omega
        · refine absurd ((Option.any_eq_true _ _).mpr ⟨s, hs, ?_⟩) hover
          exact decide_eq_true (hclose s (hmem s hin) t hlast)

/-- **Almost twice as many hits close together fill a window.** -/
theorem fills_of_burst (h : Burst width (2 * n - 1) beats) : Fills width n beats := by
  obtain ⟨seg, ⟨past, rest, rfl⟩, hclear, hmany, hclose⟩ := h
  have hfills : Fills width n (past ++ seg) := by
    have hwindow : Fills width n (past ++ seg) ∨ _ := window_of_close hclear hclose
    rcases hwindow with hfull | hall | ⟨hmost, -⟩
    · exact hfull
    · exact ⟨past ++ seg, List.prefix_refl _, by omega⟩
    · exact ⟨past ++ seg, List.prefix_refl _, by omega⟩
  obtain ⟨before, hbefore, hn⟩ := hfills
  exact ⟨before, hbefore.trans (List.prefix_append _ _), hn⟩

end Lib

import Dunlin.Lib.Escape
import Dunlin.MessageLinks

/-!
# Escaped text

`slack_escape` replaces `&`, then `<`, then `>` in the whole text. The entities of the later two
bring in a `&`, so the order matters: with `&` first, each character is escaped once, and the three
passes are the escaping `entities` (`toList_slackEscape`).

`escape_within` relies on that when it escapes one character at a time. It stops before the first
character after which the ellipsis would not fit any more, unless it is the last one and fits. What
carries the bound is that the ellipsis always still fits (`escapeLoop_of_lt`).

## Main results

* `toList_slackEscape` — three passes are one escaping
* `slackEscape_reversible` — it escapes character by character, and can be undone
* `escapeWithin_cuts_cleanly` — a cut is at an entity's boundary, the longest that fits, and the
  message keeps to its limit
-/

namespace Dunlin

open Lib

/-- The entities of `slack_escape`. -/
def entities : Escaping Char where
  mark := '&'
  codes := [('&', "amp;".toList), ('<', "lt;".toList), ('>', "gt;".toList)]
  mark_mem := List.mem_cons_self
  prefixFree := by decide

/-! ### Three passes are one -/

/-- The three replacements do to a character what the entities say. -/
theorem replaced_eq_word (c : Char) :
    (((if c = '&' then "&amp;".toList else [c]).flatMap fun x =>
      if x = '<' then "&lt;".toList else [x]).flatMap fun x =>
        if x = '>' then "&gt;".toList else [x]) = entities.word c := by
  by_cases hamp : c = '&'
  · subst hamp
    rfl
  by_cases hlt : c = '<'
  · subst hlt
    rfl
  by_cases hgt : c = '>'
  · subst hgt
    rfl
  have hword : entities.word c = [c] := by
    rw [Escaping.word, entities]
    simp [Ne.symm hamp, Ne.symm hlt, Ne.symm hgt]
  simp [hamp, hlt, hgt, hword]

theorem toList_slackEscape (s : String) : (slackEscape s).toList = entities.escape s.toList := by
  rw [slackEscape, Escaping.escape]
  rw [toList_replaceChar, toList_replaceChar, toList_replaceChar, List.flatMap_assoc,
    List.flatMap_assoc]
  congr 1
  funext c
  rw [← replaced_eq_word, List.flatMap_assoc]

theorem toList_slackEscape_singleton (c : Char) :
    (slackEscape (String.singleton c)).toList = entities.word c := by
  rw [toList_slackEscape, String.toList_singleton, Escaping.escape_cons, Escaping.escape_nil,
    List.append_nil]

theorem length_slackEscape (s : String) :
    (slackEscape s).length = (entities.escape s.toList).length := by
  rw [← String.length_toList, toList_slackEscape]

/-- What follows a `&` in an escaped text. -/
theorem entity_of_amp {s : String} {pre rest : List Char}
    (h : (slackEscape s).toList = pre ++ '&' :: rest) :
    "amp;".toList <+: rest ∨ "lt;".toList <+: rest ∨ "gt;".toList <+: rest := by
  rw [toList_slackEscape] at h
  have hword : ∀ p ∈ entities.codes, entities.mark ∉ p.2 := by decide
  obtain ⟨p, hp, hpre⟩ := Escaping.code_of_mark hword h
  simp only [entities, List.mem_cons, List.not_mem_nil, or_false] at hp
  rcases hp with rfl | rfl | rfl
  · exact .inl hpre
  · exact .inr (.inl hpre)
  · exact .inr (.inr hpre)

/-- **`slack_escape` escapes each character on its own, and can be undone.** -/
theorem slackEscape_reversible :
    (∀ a b : String, slackEscape (a ++ b) = slackEscape a ++ slackEscape b) ∧
      (∀ s : String, (slackEscape s).toList =
        s.toList.flatMap fun c => (slackEscape (String.singleton c)).toList) ∧
      (∀ s : String, '<' ∉ (slackEscape s).toList ∧ '>' ∉ (slackEscape s).toList ∧
        ∀ pre rest, (slackEscape s).toList = pre ++ '&' :: rest →
          "amp;".toList <+: rest ∨ "lt;".toList <+: rest ∨ "gt;".toList <+: rest) ∧
      (∀ s : String, String.ofList (entities.unescape (slackEscape s).toList) = s) ∧
      Function.Injective slackEscape := by
  have hback : ∀ s : String, String.ofList (entities.unescape (slackEscape s).toList) = s := by
    intro s
    rw [toList_slackEscape, Escaping.unescape_escape, String.ofList_toList]
  refine ⟨slackEscape_append, fun s => ?_, fun s => ⟨?_, ?_, fun _ _ => entity_of_amp⟩, hback, ?_⟩
  · rw [toList_slackEscape, Escaping.escape]
    simp only [toList_slackEscape_singleton]
  · rw [toList_slackEscape]
    exact Escaping.notMem_escape (by decide) (by decide) (by decide)
  · rw [toList_slackEscape]
    exact Escaping.notMem_escape (by decide) (by decide) (by decide)
  · have hinv : Function.LeftInverse
        (fun s : String => String.ofList (entities.unescape s.toList)) slackEscape := hback
    exact hinv.injective

/-! ### Escaping within a budget -/

/-- A text escaped within a budget: whole when it fits, and otherwise as long a beginning of it as
fits with an ellipsis. -/
structure CutCleanly (s : String) (budget : ℕ) (out : String) : Prop where
  bounded : out.length ≤ budget
  whole : out = slackEscape s ↔ (slackEscape s).length ≤ budget
  cut : budget < (slackEscape s).length →
    ∃ p, p <+: s.toList ∧ p ≠ s.toList ∧
      out = slackEscape (String.ofList p) ++ "…" ∧
      ∀ q, q <+: s.toList → p.length < q.length →
        budget < (slackEscape (String.ofList q) ++ "…").length

variable {budget used : ℕ} {chars : List Char}

/-- One round of the loop. -/
theorem escapeLoop_cons (budget used : ℕ) (c : Char) (chars : List Char) :
    escapeLoop budget used (c :: chars) =
      if used + (entities.word c).length + (if chars.isEmpty then 0 else 1) > budget then ['…']
      else entities.word c ++ escapeLoop budget (used + (entities.word c).length) chars := by
  rw [escapeLoop, ← String.length_toList, toList_slackEscape_singleton]

/-- A text that fits is not cut. -/
theorem escapeLoop_of_le (h : used + (entities.escape chars).length ≤ budget) :
    escapeLoop budget used chars = entities.escape chars := by
  induction chars generalizing used with
  | nil => rfl
  | cons c chars ih =>
    rw [Escaping.escape_cons, List.length_append] at h
    have hreserve : (if chars.isEmpty then 0 else 1) ≤ (entities.escape chars).length := by
      cases chars with
      | nil => exact Nat.zero_le _
      | cons d chars =>
        have hpos := entities.length_word_pos d
        rw [Escaping.escape_cons, List.length_append, List.isEmpty_cons, if_neg Bool.false_ne_true]
        omega
    rw [escapeLoop_cons, if_neg (by omega), Escaping.escape_cons, ih (by omega)]

/-- A text that does not fit is cut before a character, with which the ellipsis would not fit. -/
theorem escapeLoop_of_lt (hroom : used + 1 ≤ budget)
    (h : budget < used + (entities.escape chars).length) :
    ∃ p c rest, chars = p ++ c :: rest ∧
      escapeLoop budget used chars = entities.escape p ++ ['…'] ∧
      used + (entities.escape p).length + 1 ≤ budget ∧
      budget < used + (entities.escape (p ++ [c])).length + 1 := by
  induction chars generalizing used with
  | nil => simp at h; omega
  | cons c chars ih =>
    rw [Escaping.escape_cons, List.length_append] at h
    rw [escapeLoop_cons]
    by_cases hcut : used + (entities.word c).length + (if chars.isEmpty then 0 else 1) > budget
    · refine ⟨[], c, chars, rfl, by rw [if_pos hcut]; rfl, hroom, ?_⟩
      rw [List.nil_append, Escaping.escape_cons, Escaping.escape_nil, List.append_nil]
      split at hcut <;> omega
    · -- Something follows, so that the room for the ellipsis was reserved.
      have hmore : chars.isEmpty = false := by
        cases chars with
        | nil => simp at h hcut; omega
        | cons d chars => rfl
      rw [hmore, if_neg Bool.false_ne_true] at hcut
      obtain ⟨p, d, rest, rfl, hloop, hfits, hnext⟩ :=
        @ih (used + (entities.word c).length) (by omega) (by omega)
      refine ⟨c :: p, d, rest, rfl, ?_, ?_, ?_⟩
      · rw [hmore, if_neg Bool.false_ne_true, if_neg hcut, hloop, Escaping.escape_cons,
          List.append_assoc]
      · rw [Escaping.escape_cons, List.length_append]
        omega
      · rw [List.cons_append, Escaping.escape_cons, List.length_append]
        omega

theorem toList_escapeWithin (s : String) (budget : ℕ) :
    (escapeWithin s budget).toList = escapeLoop budget 0 s.toList := String.toList_ofList

theorem escapeWithin_of_le {s : String} (h : (slackEscape s).length ≤ budget) :
    escapeWithin s budget = slackEscape s := by
  apply String.toList_injective
  rw [length_slackEscape] at h
  rw [toList_escapeWithin, escapeLoop_of_le (by omega), toList_slackEscape]

theorem cutCleanly_escapeWithin (s : String) (h : 1 ≤ budget) :
    CutCleanly s budget (escapeWithin s budget) := by
  by_cases hfits : (slackEscape s).length ≤ budget
  · have hwhole := escapeWithin_of_le hfits
    exact ⟨hwhole ▸ hfits, iff_of_true hwhole hfits, fun hlt => absurd hfits (by omega)⟩
  · have hlt : budget < 0 + (entities.escape s.toList).length := by
      rw [← length_slackEscape]
      omega
    obtain ⟨p, c, rest, hs, hloop, hroom, hnext⟩ := escapeLoop_of_lt (by omega) hlt
    have hout : escapeWithin s budget = slackEscape (String.ofList p) ++ "…" := by
      apply String.toList_injective
      rw [toList_escapeWithin, hloop, String.toList_append, toList_slackEscape,
        String.toList_ofList]
      rfl
    have hlen : (slackEscape (String.ofList p)).length = (entities.escape p).length := by
      rw [length_slackEscape, String.toList_ofList]
    have hellipsis : "…".length = 1 := rfl
    have hbound : (escapeWithin s budget).length ≤ budget := by
      rw [hout, String.length_append, hlen, hellipsis]
      omega
    refine ⟨hbound, ⟨fun heq => heq ▸ hbound, fun hle => absurd hle hfits⟩, fun _ => ?_⟩
    refine ⟨p, hs ▸ List.prefix_append p _, fun heq => ?_, hout, fun q hq hpq => ?_⟩
    · rw [← heq] at hs
      exact absurd (congrArg List.length hs) (by simp)
    · -- A longer beginning has the character in it before which the text was cut.
      have hps : p ++ [c] <+: s.toList := ⟨rest, by rw [hs, List.append_assoc]; rfl⟩
      have hpc : p ++ [c] <+: q := List.prefix_of_prefix_length_le hps hq
        (by rw [List.length_append, List.length_singleton]; omega)
      have hle := (Escaping.escape_prefix (e := entities) hpc).length_le
      rw [String.length_append, length_slackEscape, String.toList_ofList, hellipsis]
      omega

/-! ### Telegram's message -/

section Rendering

variable (chrono : Chrono) (d : Delivery)

/-- The subject in bold. -/
def renderHead : String := s!"<b>{slackEscape (truncateChars (compose chrono d).1 256)}</b>\n\n"

/-- How to stop. -/
def renderFoot : String :=
  s!"\n\nUnsubscribe: send /stop or open {slackEscape d.message.unsubscribeUrl}"

theorem render_eq : render chrono d = renderHead chrono d ++
    escapeWithin (trimEnd (compose chrono d).2)
      (maxText - ((renderHead chrono d).length + (renderFoot d).length)) ++ renderFoot d := rfl

/-- **`escape_within` cuts cleanly, and the message fits Telegram's limit.** -/
theorem escapeWithin_cuts_cleanly :
    (∀ (s : String) (budget : ℕ), 1 ≤ budget → CutCleanly s budget (escapeWithin s budget)) ∧
      ∀ (chrono : Chrono) (d : Delivery),
        (renderHead chrono d).length + (renderFoot d).length < maxText →
          (render chrono d).length ≤ maxText := by
  refine ⟨fun s budget h => cutCleanly_escapeWithin s h, fun chrono d h => ?_⟩
  have hbudget : 1 ≤ maxText - ((renderHead chrono d).length + (renderFoot d).length) := by omega
  have hbody := (cutCleanly_escapeWithin (trimEnd (compose chrono d).2) hbudget).bounded
  rw [render_eq, String.length_append, String.length_append]
  omega

/-- A text in which the entity does not fit, and an update longer than the limit. -/
theorem escapeWithin_cuts_cleanly_longUpdate :
    CutCleanly "a&b" 4 (escapeWithin "a&b" 4) ∧
      (render noZones (longUpdate 5000)).length ≤ maxText :=
  ⟨escapeWithin_cuts_cleanly.1 "a&b" 4 (by decide),
    escapeWithin_cuts_cleanly.2 noZones (longUpdate 5000) (by decide)⟩

end Rendering

end Dunlin

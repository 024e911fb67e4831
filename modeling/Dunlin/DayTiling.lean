import Dunlin.Uptime

/-!
# Days tile time

`startOf` takes the first wall time of a date on the grid of quarter hours that anything shows
(`startOf_spec`). Two dates in a row either have different ones, in order, or the same, and then the
first is empty: so the days tile time in every zone, and every instant is in one of them.

That it is the day of its own date takes more: a zone that goes forward (`Tz.Forward`). `untiled`
is a zone that does not.

Midnight is not always there: a zone may change its clocks at it, and a zone may skip a whole date.
The search of `startOf` goes on to later dates then, so a start always exists, and the starts never
go back.

## Main results

* `startOf_spec` — what the search finds
* `existsUnique_day` — every instant is in exactly one day
* `days_tile` — the tiling, with the dates of what is in a day
* `untiled` — a zone in which an instant is not in the day of its date
-/

namespace Dunlin

open Lib

variable {tz : Tz} {date ts wall : ℤ}

/-- A wall time that something shows has a first instant. -/
theorem exists_earliest (h : tz.wall ts = wall) :
    ∃ a, earliest tz wall = some a ∧ tz.wall a = wall ∧ ∀ u < a, tz.wall u ≠ wall := by
  have hmem := Tz.mem_instants.mpr h
  rw [earliest_eq_head?]
  cases hhead : (tz.instants wall).head? with
  | none =>
    rw [List.head?_eq_none_iff.mp hhead] at hmem
    exact absurd hmem List.not_mem_nil
  | some a =>
    obtain ⟨ha, hleast⟩ := (head?_eq_some_iff_least (tz.sorted_instants wall)).mp hhead
    exact ⟨a, rfl, Tz.mem_instants.mp ha, fun u hu hwall =>
      absurd hu (hleast u (Tz.mem_instants.mpr hwall)).not_gt⟩

/-- Some quarter hour of a date or of the day after exists. -/
theorem exists_quarter (tz : Tz) (date : ℤ) :
    ∃ k : ℕ, k < 192 ∧ ∃ ts, tz.wall ts = date * 86400 + slotSecs * k := by
  have hdate : date ≤ dateOf tz ((calendar tz).first date) := (calendar tz).le_date_first date
  have hslot := first_slot tz date
  have hgap := wall_first_lt tz date
  obtain ⟨q, hq⟩ := tz.quarters ((calendar tz).first date)
  generalize (calendar tz).first date = first at *
  refine ⟨((tz.wall first - date * 86400) / slotSecs).toNat, ?_, first, ?_⟩
  all_goals
    unfold dateOf at hdate
    unfold Tz.wall at hdate hgap ⊢
    simp only [slotSecs] at hslot hq ⊢
    omega

/-- **A day starts at the first quarter hour of its date that exists**, or of the next dates. -/
theorem startOf_spec (tz : Tz) (date : ℤ) :
    ∃ k : ℕ, k < 192 ∧ tz.wall (startOf tz date) = date * 86400 + slotSecs * k ∧
      (∀ j < k, ∀ ts, tz.wall ts ≠ date * 86400 + slotSecs * j) ∧
      ∀ u < startOf tz date, tz.wall u ≠ tz.wall (startOf tz date) := by
  classical
  have hex : ∃ k : ℕ, ∃ ts, tz.wall ts = date * 86400 + slotSecs * k :=
    (exists_quarter tz date).imp fun _ h => h.2
  have hk192 : Nat.find hex < 192 := by
    obtain ⟨k, hk, hshown⟩ := exists_quarter tz date
    exact (Nat.find_le hshown).trans_lt hk
  have hbefore : ∀ j < Nat.find hex, ∀ ts, tz.wall ts ≠ date * 86400 + slotSecs * j :=
    fun j hj ts hts => Nat.find_min hex hj ⟨ts, hts⟩
  obtain ⟨ts, hts⟩ := Nat.find_spec hex
  obtain ⟨a, ha, hwall, hfirst⟩ := exists_earliest hts
  generalize Nat.find hex = k at *
  have hstart : startOf tz date = a :=
    startOf_eq hk192 (fun j hj => earliest_eq_none (hbefore j hj)) ha
  rw [hstart, hwall]
  exact ⟨k, hk192, rfl, hbefore, hfirst⟩

/-- The date shown at the start of a day is not before it, and at most one day late. -/
theorem dateOf_startOf (tz : Tz) (date : ℤ) :
    date ≤ dateOf tz (startOf tz date) ∧ dateOf tz (startOf tz date) ≤ date + 1 := by
  obtain ⟨k, hk, hwall, -, -⟩ := startOf_spec tz date
  rw [dateOf]
  rw [hwall]
  simp only [slotSecs]
  omega

/-- A day that starts on a later date starts where the next one does. -/
theorem startOf_succ_eq (h : dateOf tz (startOf tz date) ≠ date) :
    startOf tz (date + 1) = startOf tz date := by
  obtain ⟨k, hk, hwall, hbefore, hfirst⟩ := startOf_spec tz date
  obtain ⟨k', hk', hwall', hbefore', hfirst'⟩ := startOf_spec tz (date + 1)
  have hnext : ∀ j : ℕ, (date + 1) * 86400 + slotSecs * (j : ℤ) =
      date * 86400 + slotSecs * ((j + 96 : ℕ) : ℤ) := by
    intro j
    simp only [slotSecs]
    omega
  have hk96 : 96 ≤ k := by
    by_contra hlt
    refine h ?_
    rw [dateOf]
    rw [hwall]
    simp only [slotSecs]
    omega
  have hsame : k' = k - 96 := by
    rcases lt_trichotomy k' (k - 96) with hlt | heq | hgt
    · exact absurd (hwall'.trans (hnext k')) (hbefore (k' + 96) (by omega) _)
    · exact heq
    · refine absurd ?_ (hbefore' (k - 96) hgt (startOf tz date))
      rw [hwall, hnext, Nat.sub_add_cancel hk96]
  have hwalls : tz.wall (startOf tz (date + 1)) = tz.wall (startOf tz date) := by
    rw [hwall', hwall, hnext, hsame, Nat.sub_add_cancel hk96]
  rcases lt_trichotomy (startOf tz (date + 1)) (startOf tz date) with hlt | heq | hgt
  · exact absurd hwalls (hfirst _ hlt)
  · exact heq
  · exact absurd hwalls.symm (hfirst' _ hgt)

theorem startOf_mono (tz : Tz) : Monotone (startOf tz) := by
  refine monotone_int_of_le_succ fun date => ?_
  by_cases h : dateOf tz (startOf tz date) = date
  · have hnext := (dateOf_startOf tz (date + 1)).1
    by_contra hlt
    have hle := dateOf_mono tz (not_le.mp hlt).le
    omega
  · exact (startOf_succ_eq h).ge

/-- Before a day's start nothing after its date is shown. -/
theorem lt_startOf (h : dateOf tz ts < date) : ts < startOf tz date := by
  by_contra hle
  have hdate := dateOf_mono tz (not_lt.mp hle)
  have hstart := (dateOf_startOf tz date).1
  omega

theorem start_on (tz : Tz) (date : ℤ) : (Day.on tz date).start = startOf tz date := rfl

theorem end_on (tz : Tz) (date : ℤ) : (Day.on tz date).end = startOf tz (date + 1) :=
  max_eq_left (startOf_mono tz (by omega))

theorem contains_on_iff :
    (Day.on tz date).contains ts = true ↔ startOf tz date ≤ ts ∧ ts < startOf tz (date + 1) := by
  rw [Day.contains, Bool.and_eq_true, decide_eq_true_eq, decide_eq_true_eq, start_on, end_on]

/-- **Every instant is in exactly one day.** -/
theorem existsUnique_day (tz : Tz) (ts : ℤ) :
    ∃! date, (Day.on tz date).contains ts = true := by
  have hafter : ts < startOf tz (dateOf tz ts + 1) := lt_startOf (by omega)
  have hold : startOf tz (dateOf tz ts - 2) ≤ ts := by
    by_contra hlt
    have hle := dateOf_mono tz (not_le.mp hlt).le
    have hstart := (dateOf_startOf tz (dateOf tz ts - 2)).2
    omega
  refine existsUnique_of_exists_of_unique ?_ fun d d' hd hd' => ?_
  · -- the day of the date, or one of the two before it
    simp only [contains_on_iff]
    by_cases h : startOf tz (dateOf tz ts) ≤ ts
    · exact ⟨_, h, hafter⟩
    by_cases h' : startOf tz (dateOf tz ts - 1) ≤ ts
    · exact ⟨_, h', by rwa [Int.sub_add_cancel, ← not_le]⟩
    · refine ⟨_, hold, ?_⟩
      rw [show dateOf tz ts - 2 + 1 = dateOf tz ts - 1 by omega]
      exact not_le.mp h'
  · obtain ⟨hd₁, hd₂⟩ := contains_on_iff.mp hd
    obtain ⟨hd₁', hd₂'⟩ := contains_on_iff.mp hd'
    rcases lt_trichotomy d d' with hlt | heq | hgt
    · have hle := startOf_mono tz (show d + 1 ≤ d' by omega)
      omega
    · exact heq
    · have hle := startOf_mono tz (show d' + 1 ≤ d by omega)
      omega

/-- The dates of `lastDays`, oldest first. -/
theorem lastDays_eq_map (tz : Tz) (now : ℤ) (n : ℕ) : lastDays tz now n =
    (List.range n).map fun i : ℕ => Day.on tz (dateOf tz now - n + 1 + i) := by
  rw [lastDays, daysBack_eq, ← List.map_reverse]
  refine List.ext_getElem (by simp) fun i hi hi' => ?_
  simp only [List.length_map, List.length_reverse, List.length_range] at hi
  simp only [List.getElem_map, List.getElem_reverse, List.length_range, List.getElem_range]
  congr 1
  omega

theorem isChain_lastDays (tz : Tz) (now : ℤ) (n : ℕ) :
    (lastDays tz now n).IsChain fun a b => a.end = b.start := by
  rw [lastDays_eq_map, List.isChain_iff_getElem]
  intro i hi
  simp only [List.getElem_map, List.getElem_range, end_on, start_on]
  congr 1
  omega

/-- **Days tile time.** In every zone each day ends where the next one starts, every instant is in
one day, a date that the zone skips is an empty day, and `lastDays` are the days of consecutive
dates up to that of `now`. In a zone that goes forward the day of an instant is that of its date. -/
theorem days_tile (tz : Tz) :
    (∀ date, (Day.on tz date).end = (Day.on tz (date + 1)).start ∧
      (Day.on tz date).start ≤ (Day.on tz date).end) ∧
    (∀ ts, ∃! date, (Day.on tz date).contains ts = true) ∧
    (∀ date, (∀ ts, dateOf tz ts ≠ date) → (Day.on tz date).start = (Day.on tz date).end) ∧
    (∀ now n, (lastDays tz now n = (List.range n).map fun i : ℕ =>
        Day.on tz (dateOf tz now - n + 1 + i)) ∧
      (lastDays tz now n).IsChain fun a b => a.end = b.start) ∧
    (tz.Forward →
      (∀ date ts, dateOf tz ts = date ↔ (Day.on tz date).contains ts = true) ∧
      ∀ now n, ∀ day ∈ (lastDays tz now n).getLast?, day.contains now = true) := by
  refine ⟨fun date => ⟨end_on tz date, ?_⟩, existsUnique_day tz, fun date h => ?_, fun now n =>
    ⟨lastDays_eq_map tz now n, isChain_lastDays tz now n⟩, fun h => ⟨fun date ts =>
    (contains_on h).symm, fun now n day hday => ?_⟩⟩
  · rw [start_on, end_on]
    exact startOf_mono tz (by omega)
  · rw [start_on, end_on, startOf_succ_eq (h _)]
  · cases n with
    | zero => cases hday
    | succ n =>
      rw [lastDays_eq_map, List.range_succ, List.map_append, List.map_singleton,
        List.getLast?_concat] at hday
      obtain rfl := Option.some.inj hday
      rw [contains_on h]
      omega

theorem days_tile_spring : (Day.on spring 4).contains (4 * 86400 + 3600) = true :=
  (((days_tile spring).2.2.2.2 forward_spring).1 4 (4 * 86400 + 3600)).mp (by decide)

/-- **An instant that is not in the day of its date**, between two changes of the clocks. -/
theorem untiled :
    ¬∀ tz date ts, dateOf tz ts = date ↔ (Day.on tz date).contains ts = true := by
  intro h
  have hday := (h detour 1 83000).mp (by decide)
  exact absurd hday (by decide +kernel)

end Dunlin

import Planipus.CalendarSync.Verify.Intervals
import Planipus.Sync.Verify.Start

/-!
# The dates of an evaluation

`evaluateHours` materializes the dates from the day before the event's start to the day of its end.
Where a zone skips a whole local date, an interval that ends on it is moved past the next midnight:
it belongs to a date that the evaluation does not look at, and may still match. No other interval is
lost (`scanned_or_lost`), which settles when the decision is that over all dates
(`evaluateHours_complete_iff`).
-/

namespace Planipus.CalendarSync

open Library

/-! ## Local dates of resolved times -/

section Resolve

/-- Later instants do not show earlier local dates. -/
def Zone.DatesMonotone (z : Zone) : Prop := ∀ t t', t ≤ t' → z.localDay t ≤ z.localDay t'

/-- What moves a local date-time that no instant shows does not move it back. -/
def Zone.ShiftsForward (z : Zone) : Prop :=
  ∀ n, z.possibleInstants n = [] → z.offset (n - 86400) ≤ z.offset (n + 86400)

variable {z : Zone} {profile : HoursProfile} {date : Day} {text : String} {n t : Int}

theorem localDay_of_shows (h : z.Shows t n) : z.localDay t = n / 86400 := by
  unfold Zone.Shows at h
  rw [Zone.localDay, h]

theorem naive_div {time : Nat} (h : time < 86400) : naive date time / 86400 = date := by
  unfold naive
  omega

/-- A local date-time resolves to an instant that shows it, unless there is none. -/
theorem zonedDateTime_shows {disambiguation : Disambiguation}
    (h : zonedDateTime z n disambiguation = some t) (hne : z.possibleInstants n ≠ []) :
    z.Shows t n := by
  rw [← Zone.mem_possibleInstants]
  unfold zonedDateTime at h
  dsimp only at h
  split at h
  · rename_i t' hp
    cases h
    simp [hp]
  · cases h
  · contradiction
  · contradiction
  · rename_i t' ts hp
    cases h
    simp [hp]
  · exact List.mem_of_getLast? h

/-- Later than a local date-time that no instant shows is the one that is the gap after it. -/
theorem zonedDateTime_later_of_gap (h : zonedDateTime z n .later = some t)
    (hgap : z.possibleInstants n = []) :
    z.Shows t (n + (z.offset (n + 86400) - z.offset (n - 86400))) := by
  simp only [zonedDateTime, hgap] at h
  exact Zone.mem_possibleInstants.1 (List.mem_of_getLast? h)

/-- **A resolved time** shows the local time, or no instant does and it shows a later one. -/
theorem resolveLocal_shows {r : ResolvedInstant}
    (h : resolveLocal z profile date text = .ok r) :
    ∃ time, localTime? text = some time ∧
      (z.Shows r.instant (naive date time) ∨
        z.possibleInstants (naive date time) = [] ∧
          z.Shows r.instant (naive date time +
            (z.offset (naive date time + 86400) - z.offset (naive date time - 86400)))) := by
  unfold resolveLocal at h
  cases htime : localTime? text with
  | none => rw [htime] at h; cases h
  | some time =>
    refine ⟨time, rfl, ?_⟩
    rw [htime] at h
    dsimp only at h
    by_cases hgap : z.possibleInstants (naive date time) = []
    · right
      refine ⟨hgap, ?_⟩
      have hnone : zonedDateTime z (naive date time) .reject = none := by
        simp [zonedDateTime, hgap]
      have hshows : ∀ t, ¬ z.Shows t (naive date time) := by
        intro t ht
        rw [← Zone.mem_possibleInstants, hgap] at ht
        cases ht
      rw [hnone] at h
      dsimp only at h
      split at h
      · rename_i earlier later hearlier hlater
        rw [if_neg fun hboth => hshows earlier hboth.1] at h
        split at h
        · cases h
        · cases h
          exact zonedDateTime_later_of_gap hlater hgap
      · cases h
    · left
      split at h
      · rename_i t ht
        cases h
        exact zonedDateTime_shows ht hgap
      · split at h
        · rename_i earlier later hearlier hlater
          split at h
          · split at h
            · cases h
              exact zonedDateTime_shows hearlier hgap
            · cases h
              exact zonedDateTime_shows hlater hgap
          · split at h
            · cases h
            · cases h
              exact zonedDateTime_shows hlater hgap
        · cases h

/-- A resolved time is not on an earlier date. -/
theorem le_localDay_of_resolveLocal (hshift : z.ShiftsForward) {r : ResolvedInstant}
    (h : resolveLocal z profile date text = .ok r) : date ≤ z.localDay r.instant := by
  obtain ⟨time, htime, hshows | ⟨hgap, hshows⟩⟩ := resolveLocal_shows h
  · rw [localDay_of_shows hshows, naive_div (localTime?_lt htime)]
  · have hforward := hshift _ hgap
    rw [localDay_of_shows hshows]
    calc date = naive date time / 86400 := (naive_div (localTime?_lt htime)).symm
      _ ≤ _ := Int.ediv_le_ediv (by decide) (by omega)

/-- The time is one that no instant shows on the date. -/
def Skipped (z : Zone) (date : Day) (text : String) : Prop :=
  ∃ time, localTime? text = some time ∧ z.possibleInstants (naive date time) = []

/-- A time that is not skipped resolves to an instant of its date. -/
theorem localDay_of_resolveLocal {r : ResolvedInstant}
    (h : resolveLocal z profile date text = .ok r) (hshown : ¬ Skipped z date text) :
    z.localDay r.instant = date := by
  obtain ⟨time, htime, hshows | ⟨hgap, -⟩⟩ := resolveLocal_shows h
  · rw [localDay_of_shows hshows, naive_div (localTime?_lt htime)]
  · exact absurd ⟨time, htime, hgap⟩ hshown

end Resolve

/-! ## Concrete intervals of all dates -/

section Concrete

/-- An interval that the profile has on a date. -/
def ConcreteOn (z : Zone) (profile : HoursProfile) (date : Day) (i : InstantInterval) : Prop :=
  ∃ r, intervalsForDate z profile date = .ok r ∧ i ∈ r.1

/-- The local intervals that the concrete ones of a date are pieces of. -/
def HoursProfile.localsOn (profile : HoursProfile) (date : Day) : List LocalInterval :=
  match profile.exceptionOn date with
  | some (.closed _) => []
  | some (.replace _ intervals) => intervals
  | some (.add _ intervals) => profile.weeklyOn date ++ intervals
  | some (.remove _ _) | none => profile.weeklyOn date

variable {z : Zone} {profile : HoursProfile} {date first last : Day} {r : Materialized}
  {i : InstantInterval}

/-- The interval lies between the resolved ends of a local interval. -/
structure Within (z : Zone) (profile : HoursProfile) (date : Day) (value : LocalInterval)
    (i : InstantInterval) : Prop where
  start : ∃ t, resolveLocal z profile date value.start = .ok t ∧ t.instant * 1000 ≤ i.start
  finish : ∃ t, resolveLocal z profile (date + value.endDayOffset) value.finish = .ok t ∧
    i.finish ≤ t.instant * 1000

theorem materialize_within {value : LocalInterval}
    (h : materialize z profile date value = .ok r) :
    ∀ i ∈ r.1, Within z profile date value i := by
  intro i hi
  obtain ⟨start, finish, hstart, hfinish, -, rfl⟩ := mem_materialize h hi
  exact ⟨⟨start, hstart, Int.le_refl _⟩, ⟨finish, hfinish, Int.le_refl _⟩⟩

theorem materializeAll_within {values : List LocalInterval}
    (h : materializeAll z profile date values = .ok r) :
    ∀ i ∈ r.1, ∃ value ∈ values, Within z profile date value i :=
  materializeAll_forall h fun value hvalue _ hr i hi => ⟨value, hvalue, materialize_within hr i hi⟩

theorem subtractInterval_within {value : LocalInterval} {base removal : InstantInterval}
    (h : Within z profile date value base) :
    ∀ i ∈ subtractInterval base removal, Within z profile date value i := by
  obtain ⟨⟨start, hstart, hle⟩, ⟨finish, hfinish, hge⟩⟩ := h
  intro i hi
  unfold subtractInterval at hi
  split at hi
  · rw [List.mem_singleton] at hi
    subst hi
    exact ⟨⟨start, hstart, hle⟩, ⟨finish, hfinish, hge⟩⟩
  · rename_i hmeets
    rw [not_or, not_le, not_le] at hmeets
    rcases List.mem_append.1 hi with hi | hi <;> split at hi
    · rw [List.mem_singleton] at hi
      subst hi
      exact ⟨⟨start, hstart, hle⟩, ⟨finish, hfinish, hmeets.2.le.trans hge⟩⟩
    · cases hi
    · rw [List.mem_singleton] at hi
      subst hi
      exact ⟨⟨start, hstart, hle.trans hmeets.1.le⟩, ⟨finish, hfinish, hge⟩⟩
    · cases hi

/-- **A concrete interval is a piece of a local one.** -/
theorem ConcreteOn.within (h : ConcreteOn z profile date i) :
    ∃ value ∈ profile.localsOn date, Within z profile date value i := by
  obtain ⟨r, hr, hi⟩ := h
  unfold intervalsForDate at hr
  unfold HoursProfile.localsOn
  dsimp only at hr
  cases hexception : profile.exceptionOn date with
  | none =>
    rw [hexception] at hr
    exact materializeAll_within hr i hi
  | some exception =>
    rw [hexception] at hr
    cases exception with
    | closed date' =>
      cases hr
      cases hi
    | replace date' intervals => exact materializeAll_within hr i hi
    | add date' intervals => exact materializeAll_within hr i hi
    | remove date' intervals =>
      dsimp only at hr
      cases hweekly : materializeAll z profile date (profile.weeklyOn date) with
      | error e => rw [hweekly] at hr; cases hr
      | ok weekly =>
        cases hremovals : materializeAll z profile date intervals with
        | error e => rw [hweekly, hremovals] at hr; cases hr
        | ok removals =>
          rw [hweekly, hremovals] at hr
          cases hr
          refine foldl_carve_forall ?_ removals.1 (materializeAll_within hweekly) i hi
          rintro base removal ⟨value, hvalue, hbase⟩ piece hpiece
          exact ⟨value, hvalue, subtractInterval_within hbase piece hpiece⟩

/-- The loop collects the intervals of the dates that it visits. -/
theorem mem_visitDates_iff {remaining : Nat}
    (h : visitDates z profile last remaining first = .ok r) :
    i ∈ r.1 ↔ ∃ d, first ≤ d ∧ d ≤ last ∧ ConcreteOn z profile d i := by
  constructor
  · intro hi
    have hall := visitDates_forall (P := fun i => ∃ d, first ≤ d ∧ d ≤ last ∧
      ConcreteOn z profile d i) h fun d hd hd' r hr i hi => ⟨d, hd, hd', r, hr, hi⟩
    exact hall i hi
  · rintro ⟨d, hd, hd', hconcrete⟩
    induction remaining generalizing first r with
    | zero =>
      rw [visitDates, if_pos (hd.trans hd')] at h
      cases h
    | succ remaining ih =>
      rw [visitDates, if_pos (hd.trans hd')] at h
      cases hhead : intervalsForDate z profile first with
      | error e => rw [hhead] at h; cases h
      | ok head =>
        cases htail : visitDates z profile last remaining (first + 1) with
        | error e => rw [hhead, htail] at h; cases h
        | ok tail =>
          rw [hhead, htail] at h
          cases h
          rcases hd.eq_or_lt with rfl | hlt
          · obtain ⟨r, hr, hi⟩ := hconcrete
            rw [hhead] at hr
            cases hr
            exact List.mem_append_left _ hi
          · exact List.mem_append_right _ (ih htail hlt)

/-- The loop ends, if every date does and there are not too many. -/
theorem visitDates_ok {first last : Int} {remaining : Nat}
    (hdates : ∀ d : Int, first ≤ d → d ≤ last → ∃ r, intervalsForDate z profile d = .ok r)
    (hremaining : last < first + remaining) :
    ∃ r, visitDates z profile last remaining first = .ok r := by
  induction remaining generalizing first with
  | zero =>
    have hdone : ¬first ≤ last := by omega
    rw [visitDates, if_neg hdone]
    exact ⟨_, rfl⟩
  | succ remaining ih =>
    have hrest : ∀ d : Int, first + 1 ≤ d → d ≤ last → ∃ r, intervalsForDate z profile d = .ok r :=
      fun d hd => hdates d (by omega)
    have hfewer : last < first + 1 + remaining := by omega
    rw [visitDates]
    split
    · rename_i hle
      obtain ⟨head, hhead⟩ := hdates first (Int.le_refl first) hle
      obtain ⟨tail, htail⟩ := ih hrest hfewer
      rw [hhead, htail]
      exact ⟨_, rfl⟩
    · exact ⟨_, rfl⟩

end Concrete

/-! ## The decision -/

section Decision

/-- The mode holds of the event and one concrete interval. -/
def HoursMode.Matches (mode : HoursMode) (event i : InstantInterval) : Prop :=
  if mode = .overlapsProfile then event.start < i.finish ∧ i.start < event.finish
  else i.start ≤ event.start ∧ event.finish ≤ i.finish

/-- A date that is looked at has an interval that matches. -/
def Scanned (z : Zone) (profile : HoursProfile) (mode : HoursMode) (event : InstantInterval) : Prop :=
  ∃ date i, firstDate z event ≤ date ∧ date ≤ lastDate z event ∧ ConcreteOn z profile date i ∧
    mode.Matches event i

/-- A date before those that are looked at has an interval that matches, and a local interval that
ends at a skipped time. -/
def Lost (z : Zone) (profile : HoursProfile) (mode : HoursMode) (event : InstantInterval) : Prop :=
  ∃ date i, date < firstDate z event ∧ ConcreteOn z profile date i ∧ mode.Matches event i ∧
    ∃ value ∈ profile.localsOn date, Skipped z (date + value.endDayOffset) value.finish

/-- Local intervals end on their date or on the next. -/
def HoursProfile.WellTyped (profile : HoursProfile) : Prop :=
  ∀ date, ∀ value ∈ profile.localsOn date, value.endDayOffset ≤ 1

variable {z : Zone} {profile : HoursProfile} {mode : HoursMode} {event i : InstantInterval}
  {date : Day}

theorem HoursMode.Matches.meets (h : mode.Matches event i) (hevent : event.start < event.finish) :
    event.start < i.finish ∧ i.start < event.finish := by
  unfold HoursMode.Matches at h
  split at h
  · exact h
  · exact ⟨hevent.trans_le h.2, h.1.trans_lt hevent⟩

theorem lt_millis {t m : Int} (h : m / 1000 < t) : m < t * 1000 := by omega

theorem millis_le {t m : Int} (h : t < m / 1000) : t * 1000 ≤ m := by omega

theorem next_day_lt {d s : Int} {o : Nat} (h : d < s - 1) (ho : o ≤ 1) : d + o < s := by omega

/-- An instant on an earlier local date is earlier. -/
theorem lt_of_localDay_lt (hmono : z.DatesMonotone) {t t' : Int} (h : z.localDay t < z.localDay t') :
    t < t' :=
  Int.not_le.1 fun hle => absurd (hmono t' t hle) (Int.not_le.2 h)

/-- No interval of a date after the event's last one matches. -/
theorem ConcreteOn.le_lastDate (h : ConcreteOn z profile date i) (hmono : z.DatesMonotone)
    (hshift : z.ShiftsForward) (hmatch : i.start < event.finish) : date ≤ lastDate z event := by
  obtain ⟨value, -, ⟨t, ht, hstart⟩, -⟩ := h.within
  by_contra hlt
  have hday : z.localDay (event.finish / 1000) < z.localDay t.instant :=
    (Int.not_le.1 hlt).trans_le (le_localDay_of_resolveLocal hshift ht)
  have hlater : (event.finish : Int) / 1000 < t.instant := lt_of_localDay_lt hmono hday
  exact (lt_millis hlater).not_ge (hstart.trans hmatch.le)

/-- An interval of a date before those that are looked at matches only if its end is skipped. -/
theorem ConcreteOn.skipped (h : ConcreteOn z profile date i) (hmono : z.DatesMonotone)
    (htyped : profile.WellTyped) (hmatch : event.start < i.finish) (hdate : date < firstDate z event) :
    ∃ value ∈ profile.localsOn date, Skipped z (date + value.endDayOffset) value.finish := by
  obtain ⟨value, hvalue, -, t, ht, hfinish⟩ := h.within
  refine ⟨value, hvalue, ?_⟩
  by_contra hshown
  have hend := localDay_of_resolveLocal ht hshown
  have hoffset := htyped date value hvalue
  have hday : z.localDay t.instant < z.localDay (event.start / 1000) := by
    rw [hend]
    exact next_day_lt hdate hoffset
  have hearlier : t.instant < (event.start : Int) / 1000 := lt_of_localDay_lt hmono hday
  exact (millis_le hearlier).not_gt (hmatch.trans_le hfinish)

/-- **An interval that matches is looked at or lost**: its date is one of those that the evaluation
visits, or an earlier one with an end at a skipped time. -/
theorem scanned_or_lost (hmono : z.DatesMonotone) (hshift : z.ShiftsForward)
    (htyped : profile.WellTyped) (hevent : event.start < event.finish) :
    (∃ date i, ConcreteOn z profile date i ∧ mode.Matches event i) ↔
      Scanned z profile mode event ∨ Lost z profile mode event := by
  constructor
  · rintro ⟨date, i, hconcrete, hmatch⟩
    have hmeets := hmatch.meets hevent
    by_cases hfirst : firstDate z event ≤ date
    · exact .inl ⟨date, i, hfirst, hconcrete.le_lastDate hmono hshift hmeets.2, hconcrete, hmatch⟩
    · have hdate := Int.not_le.1 hfirst
      exact .inr ⟨date, i, hdate, hconcrete, hmatch, hconcrete.skipped hmono htyped hmeets.1 hdate⟩
  · rintro (⟨date, i, -, -, hconcrete, hmatch⟩ | ⟨date, i, -, hconcrete, hmatch, -⟩)
    · exact ⟨date, i, hconcrete, hmatch⟩
    · exact ⟨date, i, hconcrete, hmatch⟩

theorem not_isEmpty_filter {α : Type} (p : α → Bool) (values : List α) :
    (!(values.filter p).isEmpty) = true ↔ ∃ v ∈ values, p v := by
  rw [Bool.not_eq_true', List.isEmpty_eq_false_iff_exists_mem]
  simp only [List.mem_filter]

/-- What `matchProfile` includes, if it comes to a decision. -/
theorem matchProfile_included {zones : String → Option Zone} (hz : zones profile.timezone = some z)
    (hinvalid : (matchProfile zones mode event profile).reasonCode ≠ .invalidHoursProfile)
    (hrejected : (matchProfile zones mode event profile).reasonCode ≠ .dstResolutionRejected) :
    (matchProfile zones mode event profile).included = true ↔ Scanned z profile mode event := by
  unfold matchProfile at hinvalid hrejected ⊢
  rw [hz] at hinvalid hrejected ⊢
  dsimp only at hinvalid hrejected ⊢
  cases hvisit : visitDates z profile (lastDate z event) maxDates (firstDate z event) with
  | error e =>
    rw [hvisit] at hinvalid hrejected
    cases e with
    | dstResolution => exact absurd rfl hrejected
    | other => exact absurd rfl hinvalid
  | ok r =>
    have hmem : ∀ i, i ∈ deduplicateAndSort r.1 ↔
        ∃ d, firstDate z event ≤ d ∧ d ≤ lastDate z event ∧ ConcreteOn z profile d i := by
      intro i
      rw [deduplicateAndSort, List.mem_insertionSort, (distinct_spec r.1).2, mem_visitDates_iff hvisit]
    dsimp only
    unfold Scanned HoursMode.Matches
    split
    · rw [not_isEmpty_filter]
      simp only [hmem, Bool.and_eq_true, decide_eq_true_eq]
      grind
    · rw [not_isEmpty_filter]
      simp only [hmem, Bool.and_eq_true, decide_eq_true_eq]
      grind

/-- **An evaluation looks at enough dates** exactly if, whenever an interval of an earlier date that
ends at a skipped time matches, so does one of a date that is looked at. -/
theorem evaluateHours_complete_iff (env : Platform) (zones : String → Option Zone)
    (profile : HoursProfile) (z : Zone) (hz : zones profile.timezone = some z)
    (hmono : z.DatesMonotone) (hshift : z.ShiftsForward) (htyped : profile.WellTyped)
    (mode : HoursMode) (hmode : mode ≠ .allTimes) (event : InstantInterval)
    (hinvalid : (evaluateHours (env.withZones zones) ⟨mode, event, some profile⟩).reasonCode ≠
      .invalidHoursProfile)
    (hrejected : (evaluateHours (env.withZones zones) ⟨mode, event, some profile⟩).reasonCode ≠
      .dstResolutionRejected) :
    ((evaluateHours (env.withZones zones) ⟨mode, event, some profile⟩).included = true ↔
        ∃ date i, ConcreteOn z profile date i ∧ mode.Matches event i) ↔
      (Lost z profile mode event → Scanned z profile mode event) := by
  have hevent : event.start < event.finish := by
    by_contra hempty
    exact hinvalid (by rw [evaluateHours, if_pos (Int.not_lt.1 hempty)])
  rw [evaluateHours_of_profile env zones rfl hmode hevent] at hinvalid hrejected ⊢
  rw [matchProfile_included hz hinvalid hrejected, scanned_or_lost hmono hshift htyped hevent]
  tauto

end Decision

/-! ## A skipped date -/

section Sample

theorem apia_offset (t : Int) :
    (if t < 1325239200 then -36000 else 50400 : Int) ∈ [(-36000 : Int), 50400] := by
  split <;> simp

/-- Pacific/Apia without daylight saving time, which skipped 2011-12-30. -/
def apia : Zone := ⟨fun t => if t < 1325239200 then -36000 else 50400, [-36000, 50400], apia_offset⟩

theorem apia_datesMonotone : apia.DatesMonotone := by
  intro t t' h
  simp only [Zone.localDay, apia]
  refine Int.ediv_le_ediv (by decide) ?_
  split <;> split <;> omega

theorem apia_shiftsForward : apia.ShiftsForward := by
  intro n h
  simp only [apia]
  split <;> split <;> omega

/-- Thursday nights. -/
def thursdayNights : HoursProfile where
  profileRef := "on-call"
  revision := 1
  timezone := "Pacific/Apia"
  ambiguous := .earlierOffset
  nonexistent := .shiftForwardByGap
  weekly := [{ weekday := 4, start := "22:00:00", finish := "10:00:00", endDayOffset := 1 }]
  exceptions := []

def apiaZones : String → Option Zone := fun name => if name = "Pacific/Apia" then some apia else none

theorem thursdayNights_wellTyped : thursdayNights.WellTyped := by
  intro date value hvalue
  have hweekly : value ∈ thursdayNights.weeklyOn date := hvalue
  obtain ⟨item, hitem, rfl⟩ := List.mem_map.1 hweekly
  obtain rfl := List.mem_singleton.1 (List.mem_filter.1 hitem).1
  decide

/-- A Thursday night with no date skipped. -/
theorem evaluateHours_complete_ordinary :
    ((evaluateHours (Sync.plainPlatform.withZones apiaZones)
        ⟨.containedInProfile, ⟨1324638000000, 1324641600000⟩, some thursdayNights⟩).included = true ↔
      ∃ date i, ConcreteOn apia thursdayNights date i ∧
        HoursMode.containedInProfile.Matches ⟨1324638000000, 1324641600000⟩ i) ↔
      (Lost apia thursdayNights .containedInProfile ⟨1324638000000, 1324641600000⟩ →
        Scanned apia thursdayNights .containedInProfile ⟨1324638000000, 1324641600000⟩) :=
  evaluateHours_complete_iff Sync.plainPlatform apiaZones thursdayNights apia rfl
    apia_datesMonotone apia_shiftsForward thursdayNights_wellTyped .containedInProfile (by decide)
    ⟨1324638000000, 1324641600000⟩ (by decide +kernel) (by decide +kernel)

/-- The night of 2011-12-29 ends at 10:00 of the skipped date, which is 10:00 of 2011-12-31; a meeting
at 09:00 of that day is contained in it, and the evaluation starts on 2011-12-30. -/
theorem night_before_scan :
    ¬((evaluateHours (Sync.plainPlatform.withZones apiaZones)
        ⟨.containedInProfile, ⟨1325271600000, 1325273400000⟩, some thursdayNights⟩).included = true ↔
      ∃ date i, ConcreteOn apia thursdayNights date i ∧
        HoursMode.containedInProfile.Matches ⟨1325271600000, 1325273400000⟩ i) ∧
    (evaluateHours (Sync.plainPlatform.withZones apiaZones)
        ⟨.containedInProfile, ⟨1325271600000, 1325273400000⟩, some thursdayNights⟩).reasonCode =
      .notContainedInHours ∧
    apia.DatesMonotone ∧ apia.ShiftsForward ∧ thursdayNights.WellTyped := by
  have hnight : ConcreteOn apia thursdayNights 15337 ⟨1325232000000, 1325275200000⟩ :=
    ⟨([⟨1325232000000, 1325275200000⟩], [.dstNonexistentShifted]), by decide +kernel, .head _⟩
  have hmissed : (evaluateHours (Sync.plainPlatform.withZones apiaZones)
      ⟨.containedInProfile, ⟨1325271600000, 1325273400000⟩, some thursdayNights⟩).included = false := by
    decide +kernel
  refine ⟨fun h => ?_, by decide +kernel, apia_datesMonotone, apia_shiftsForward,
    thursdayNights_wellTyped⟩
  have hincluded := h.2 ⟨_, _, hnight, by decide, by decide⟩
  rw [hmissed] at hincluded
  cases hincluded

end Sample

end Planipus.CalendarSync

import Planipus.CalendarSync.Hours
import Planipus.Library.Outcomes
import Planipus.Library.Pieces
import Planipus.Library.Rows

/-!
# The concrete intervals of a date

A date's intervals stand for the instants that they cover. `intervalsForDate_covered` says which these
are, as sets: the exceptions of a profile are unions and differences of what its local intervals
materialize to, whatever overlaps, nests or touches. So the order of the local intervals does not
matter (`coveredOn_permuted`).
-/

namespace Planipus.CalendarSync

open Library

/-! ## Intervals are not empty -/

section Nonempty

/-- Every interval has a positive length. -/
def AllNonempty (intervals : List InstantInterval) : Prop := ∀ i ∈ intervals, i.start < i.finish

variable {z : Zone} {profile : CalendarSync.HoursProfile} {date : Day}

/-- What a local interval is made into lies between its resolved ends, which are in order. -/
theorem mem_materialize {value : LocalInterval} {r : Materialized}
    (h : materialize z profile date value = .ok r) {i : InstantInterval} (hi : i ∈ r.1) :
    ∃ start finish, resolveLocal z profile date value.start = .ok start ∧
      resolveLocal z profile (date + value.endDayOffset) value.finish = .ok finish ∧
      start.instant < finish.instant ∧ i = ⟨start.instant * 1000, finish.instant * 1000⟩ := by
  unfold materialize at h
  obtain ⟨start, hstart, h⟩ := bind_eq_ok.1 h
  obtain ⟨finish, hfinish, h⟩ := bind_eq_ok.1 h
  dsimp only at h
  split at h
  · cases h
    cases hi
  · rename_i hlt
    cases h
    exact ⟨start, finish, hstart, hfinish, Int.not_le.1 hlt, List.mem_singleton.1 hi⟩

theorem materialize_nonempty {value : LocalInterval} {r : Materialized}
    (h : materialize z profile date value = .ok r) : AllNonempty r.1 := by
  intro i hi
  obtain ⟨start, finish, -, -, hlt, rfl⟩ := mem_materialize h hi
  show start.instant * 1000 < finish.instant * 1000
  omega

theorem materializeAll_nonempty {values : List LocalInterval} {r : Materialized}
    (h : materializeAll z profile date values = .ok r) : AllNonempty r.1 :=
  materializeAll_forall h fun _ _ _ hvalue => materialize_nonempty hvalue

theorem subtractInterval_nonempty {base removal : InstantInterval} (h : base.start < base.finish) :
    AllNonempty (subtractInterval base removal) := by
  intro i hi
  unfold subtractInterval at hi
  split at hi
  · rw [List.mem_singleton] at hi
    subst hi
    exact h
  · rcases List.mem_append.1 hi with hi | hi <;> split at hi
    · rw [List.mem_singleton] at hi
      subst hi
      assumption
    · cases hi
    · rw [List.mem_singleton] at hi
      subst hi
      assumption
    · cases hi

theorem foldl_subtract_nonempty {removals bases : List InstantInterval} (h : AllNonempty bases) :
    AllNonempty (removals.foldl
      (fun bases removal => bases.flatMap (subtractInterval · removal)) bases) := by
  induction removals generalizing bases with
  | nil => exact h
  | cons removal removals ih =>
    apply ih
    intro i hi
    obtain ⟨base, hbase, hi⟩ := List.mem_flatMap.1 hi
    exact subtractInterval_nonempty (h base hbase) i hi

theorem intervalsForDate_nonempty {r : Materialized} (h : intervalsForDate z profile date = .ok r) :
    AllNonempty r.1 := by
  unfold intervalsForDate at h
  dsimp only at h
  split at h
  · cases h
    intro i hi
    cases hi
  · exact materializeAll_nonempty h
  · exact materializeAll_nonempty h
  · rename_i intervals _
    cases hw : materializeAll z profile date (profile.weeklyOn date) with
    | error e => rw [hw] at h; cases h
    | ok weekly =>
      cases hr : materializeAll z profile date intervals with
      | error e => rw [hw, hr] at h; cases h
      | ok removals =>
        rw [hw, hr] at h
        cases h
        exact foldl_subtract_nonempty (materializeAll_nonempty hw)
  · exact materializeAll_nonempty h

theorem visitDates_nonempty {last : Day} {remaining : Nat} {r : Materialized}
    (h : visitDates z profile last remaining date = .ok r) : AllNonempty r.1 :=
  visitDates_forall h fun _ _ _ _ hdate => intervalsForDate_nonempty hdate

theorem AllNonempty.deduplicateAndSort {intervals : List InstantInterval}
    (h : AllNonempty intervals) : AllNonempty (deduplicateAndSort intervals) := by
  intro i hi
  rw [CalendarSync.deduplicateAndSort, List.mem_insertionSort, (distinct_spec intervals).2] at hi
  exact h i hi

end Nonempty

/-! ## Materialized intervals -/

section Materialized

variable {z : Zone} {profile : HoursProfile} {date : Day} {r : Materialized}

/-- The instants of a half-open interval. -/
def InstantInterval.instants (i : InstantInterval) : Set Instant :=
  {t | i.start ≤ t ∧ t < i.finish}

/-- The instants of the intervals. -/
abbrev coveredBy (intervals : List InstantInterval) : Set Instant :=
  covered InstantInterval.instants intervals

/-- The instants of the concrete intervals of some local intervals on a date. -/
def materialized (z : Zone) (profile : HoursProfile) (date : Day) (values : List LocalInterval) :
    Set Instant :=
  {t | ∃ value ∈ values, ∃ r, materialize z profile date value = .ok r ∧ t ∈ coveredBy r.1}

theorem materialized_append (values values' : List LocalInterval) :
    materialized z profile date (values ++ values') =
      materialized z profile date values ∪ materialized z profile date values' := by
  ext t
  simp [materialized, or_and_right, exists_or]

/-- All of the local intervals are materialized, or it fails for one of them. -/
theorem materializeAll_isOk_iff {values : List LocalInterval} :
    (∃ r, materializeAll z profile date values = .ok r) ↔
      ∀ value ∈ values, ∃ r, materialize z profile date value = .ok r := by
  induction values with
  | nil => exact ⟨fun _ _ h => (by cases h), fun _ => ⟨_, rfl⟩⟩
  | cons value values ih =>
    rw [materializeAll, List.forall_mem_cons, ← ih]
    cases materialize z profile date value with
    | error e =>
      constructor
      · rintro ⟨r, h⟩
        cases h
      · rintro ⟨⟨r, h⟩, -⟩
        cases h
    | ok head =>
      cases materializeAll z profile date values with
      | error e =>
        constructor
        · rintro ⟨r, h⟩
          cases h
        · rintro ⟨-, r, h⟩
          cases h
      | ok tail => exact ⟨fun _ => ⟨⟨_, rfl⟩, ⟨_, rfl⟩⟩, fun _ => ⟨_, rfl⟩⟩

theorem mem_materializeAll_iff {values : List LocalInterval} {i : InstantInterval}
    (h : materializeAll z profile date values = .ok r) :
    i ∈ r.1 ↔ ∃ value ∈ values, ∃ r, materialize z profile date value = .ok r ∧ i ∈ r.1 := by
  induction values generalizing r with
  | nil =>
    cases h
    simp
  | cons value values ih =>
    rw [materializeAll] at h
    cases hhead : materialize z profile date value with
    | error e => rw [hhead] at h; cases h
    | ok head =>
      cases htail : materializeAll z profile date values with
      | error e => rw [hhead, htail] at h; cases h
      | ok tail =>
        rw [hhead, htail] at h
        cases h
        have hvalue : (∃ r, Except.ok head = (.ok r : Except HoursError Materialized) ∧ i ∈ r.1) ↔
            i ∈ head.1 := by
          constructor
          · rintro ⟨found, hfound, hi⟩
            cases hfound
            exact hi
          · intro hi
            exact ⟨head, rfl, hi⟩
        rw [List.exists_mem_cons_iff, hhead, hvalue, ← ih htail]
        exact List.mem_append

theorem materializeAll_covered {values : List LocalInterval}
    (h : materializeAll z profile date values = .ok r) :
    coveredBy r.1 = materialized z profile date values := by
  induction values generalizing r with
  | nil =>
    cases h
    ext t
    simp [covered, materialized]
  | cons value values ih =>
    rw [materializeAll] at h
    cases hhead : materialize z profile date value with
    | error e => rw [hhead] at h; cases h
    | ok head =>
      cases htail : materializeAll z profile date values with
      | error e => rw [hhead, htail] at h; cases h
      | ok tail =>
        rw [hhead, htail] at h
        cases h
        rw [coveredBy, covered_append]
        change coveredBy head.1 ∪ coveredBy tail.1 = _
        rw [ih htail]
        ext t
        have hvalue : (∃ r, materialize z profile date value = .ok r ∧ t ∈ coveredBy r.1) ↔
            t ∈ coveredBy head.1 := by
          rw [hhead]
          constructor
          · rintro ⟨found, hfound, ht⟩
            cases hfound
            exact ht
          · intro ht
            exact ⟨head, rfl, ht⟩
        simp only [materialized, Set.mem_union, Set.mem_ofPred_eq, List.exists_mem_cons_iff, hvalue]

/-- What is left of an interval are its instants that the removal does not have. -/
theorem subtractInterval_covered (base removal : InstantInterval) :
    coveredBy (subtractInterval base removal) = base.instants \ removal.instants := by
  ext t
  simp only [covered, subtractInterval, InstantInterval.instants, Set.mem_sdiff, Set.mem_ofPred_eq]
  split
  · simp only [List.mem_singleton, exists_eq_left]
    grind
  · simp only [List.mem_append, or_and_right, exists_or]
    split <;> split <;> simp <;> grind

/-- The instants of the concrete intervals of a date. -/
def hoursOn (z : Zone) (profile : HoursProfile) (date : Day) : Set Instant :=
  let weekly := materialized z profile date (profile.weeklyOn date)
  match profile.exceptionOn date with
  | none => weekly
  | some (.closed _) => ∅
  | some (.replace _ intervals) => materialized z profile date intervals
  | some (.add _ intervals) => weekly ∪ materialized z profile date intervals
  | some (.remove _ intervals) => weekly \ materialized z profile date intervals

/-- **The hours of a date are exact**: an instant is covered exactly if the weekly intervals and the
exception of the date say so, and no interval is empty. -/
theorem intervalsForDate_covered (h : intervalsForDate z profile date = .ok r) :
    coveredBy r.1 = hoursOn z profile date ∧ AllNonempty r.1 := by
  refine ⟨?_, intervalsForDate_nonempty h⟩
  unfold intervalsForDate at h
  unfold hoursOn
  dsimp only at h ⊢
  cases hexception : profile.exceptionOn date with
  | none =>
    rw [hexception] at h
    exact materializeAll_covered h
  | some exception =>
    rw [hexception] at h
    cases exception with
    | closed date' =>
      cases h
      ext t
      simp [covered]
    | replace date' intervals => exact materializeAll_covered h
    | add date' intervals =>
      rw [materializeAll_covered h, materialized_append]
    | remove date' intervals =>
      dsimp only at h
      cases hweekly : materializeAll z profile date (profile.weeklyOn date) with
      | error e => rw [hweekly] at h; cases h
      | ok weekly =>
        cases hremovals : materializeAll z profile date intervals with
        | error e => rw [hweekly, hremovals] at h; cases h
        | ok removals =>
          rw [hweekly, hremovals] at h
          cases h
          rw [coveredBy, covered_foldl_carve subtractInterval_covered]
          change coveredBy _ \ coveredBy _ = _
          rw [materializeAll_covered hweekly, materializeAll_covered hremovals]

end Materialized

/-! ## The order of local intervals -/

section Order

variable {z : Zone} {date : Day}

/-- The exceptions differ in the order of their local intervals. -/
inductive HoursException.Permuted : HoursException → HoursException → Prop
  | closed (date : String) : Permuted (.closed date) (.closed date)
  | replace {date : String} {intervals intervals' : List LocalInterval}
    (h : intervals.Perm intervals') : Permuted (.replace date intervals) (.replace date intervals')
  | add {date : String} {intervals intervals' : List LocalInterval}
    (h : intervals.Perm intervals') : Permuted (.add date intervals) (.add date intervals')
  | remove {date : String} {intervals intervals' : List LocalInterval}
    (h : intervals.Perm intervals') : Permuted (.remove date intervals) (.remove date intervals')

/-- The profiles differ in the order of their local intervals. -/
structure HoursProfile.Permuted (profile profile' : HoursProfile) : Prop where
  ambiguous : profile.ambiguous = profile'.ambiguous
  nonexistent : profile.nonexistent = profile'.nonexistent
  weekly : profile.weekly.Perm profile'.weekly
  exceptions : List.Forall₂ HoursException.Permuted profile.exceptions profile'.exceptions

/-- The instants that `intervalsForDate` covers, if it returns. -/
def coveredOn (z : Zone) (profile : HoursProfile) (date : Day) : Option (Set Instant) :=
  (intervalsForDate z profile date).toOption.map fun r => coveredBy r.1

variable {profile profile' : HoursProfile}

theorem materialize_congr (h : profile.Permuted profile') (value : LocalInterval) :
    materialize z profile date value = materialize z profile' date value := by
  have hresolve : ∀ day text, resolveLocal z profile day text = resolveLocal z profile' day text := by
    intro day text
    simp only [resolveLocal, h.ambiguous, h.nonexistent]
  simp only [materialize, hresolve]

theorem materialized_perm (h : profile.Permuted profile') {values values' : List LocalInterval}
    (hvalues : values.Perm values') :
    materialized z profile date values = materialized z profile' date values' := by
  ext t
  simp only [materialized, materialize_congr h, hvalues.mem_iff]

theorem weeklyOn_perm (h : profile.Permuted profile') (date : Day) :
    (profile.weeklyOn date).Perm (profile'.weeklyOn date) :=
  (h.weekly.filter _).map _

theorem HoursException.Permuted.date_eq {left right : HoursException} (h : left.Permuted right) :
    left.date = right.date := by
  cases h <;> rfl

theorem exceptionOn_permuted (h : profile.Permuted profile') (date : Day) :
    (profile.exceptionOn date = none ∧ profile'.exceptionOn date = none) ∨
      ∃ left right, profile.exceptionOn date = some left ∧ profile'.exceptionOn date = some right ∧
        left.Permuted right :=
  find?_forall₂ h.exceptions fun _ _ hpermuted => by rw [hpermuted.date_eq]

/-- The instants that the exception leaves or adds do not depend on the order. -/
theorem hoursOn_permuted (h : profile.Permuted profile') :
    hoursOn z profile date = hoursOn z profile' date := by
  have hweekly : materialized z profile date (profile.weeklyOn date) =
      materialized z profile' date (profile'.weeklyOn date) :=
    materialized_perm h (weeklyOn_perm h date)
  unfold hoursOn
  rcases exceptionOn_permuted h date with ⟨hnone, hnone'⟩ | ⟨left, right, hl, hr, hpermuted⟩
  · rw [hnone, hnone']
    exact hweekly
  · rw [hl, hr]
    cases hpermuted with
    | closed date' => rfl
    | replace hperm => exact materialized_perm h hperm
    | add hperm => exact congrArg₂ (· ∪ ·) hweekly (materialized_perm h hperm)
    | remove hperm => exact congrArg₂ (· \ ·) hweekly (materialized_perm h hperm)

theorem HoursException.Permuted.symm {left right : HoursException} (h : left.Permuted right) :
    right.Permuted left := by
  cases h with
  | closed date => exact .closed date
  | replace hperm => exact .replace hperm.symm
  | add hperm => exact .add hperm.symm
  | remove hperm => exact .remove hperm.symm

theorem HoursProfile.Permuted.symm (h : profile.Permuted profile') : profile'.Permuted profile where
  ambiguous := h.ambiguous.symm
  nonexistent := h.nonexistent.symm
  weekly := h.weekly.symm
  exceptions := h.exceptions.flip.imp fun _ _ => HoursException.Permuted.symm

theorem materializeAll_permuted (h : profile.Permuted profile') {values values' : List LocalInterval}
    (hvalues : values.Perm values') {r : Materialized}
    (hok : materializeAll z profile date values = .ok r) :
    ∃ r', materializeAll z profile' date values' = .ok r' := by
  refine materializeAll_isOk_iff.2 fun value hvalue => ?_
  rw [← materialize_congr h]
  exact materializeAll_isOk_iff.1 ⟨r, hok⟩ value (hvalues.mem_iff.2 hvalue)

/-- Whether `intervalsForDate` returns does not depend on the order. -/
theorem intervalsForDate_permuted (h : profile.Permuted profile') {r : Materialized}
    (hok : intervalsForDate z profile date = .ok r) :
    ∃ r', intervalsForDate z profile' date = .ok r' := by
  have hweekly := weeklyOn_perm h date
  unfold intervalsForDate at hok ⊢
  dsimp only at hok ⊢
  rcases exceptionOn_permuted h date with ⟨hnone, hnone'⟩ | ⟨left, right, hl, hr, hpermuted⟩
  · rw [hnone] at hok
    rw [hnone']
    exact materializeAll_permuted h hweekly hok
  · rw [hl] at hok
    rw [hr]
    cases hpermuted with
    | closed date' => exact ⟨_, rfl⟩
    | replace hperm => exact materializeAll_permuted h hperm hok
    | add hperm => exact materializeAll_permuted h (hweekly.append hperm) hok
    | @remove date' intervals intervals' hperm =>
      dsimp only at hok ⊢
      cases hfirst : materializeAll z profile date (profile.weeklyOn date) with
      | error e => rw [hfirst] at hok; cases hok
      | ok weekly =>
        cases hsecond : materializeAll z profile date intervals with
        | error e => rw [hfirst, hsecond] at hok; cases hok
        | ok removals =>
          obtain ⟨weekly', hfirst'⟩ := materializeAll_permuted h hweekly hfirst
          obtain ⟨removals', hsecond'⟩ := materializeAll_permuted h hperm hsecond
          rw [hfirst', hsecond']
          exact ⟨_, rfl⟩

theorem coveredOn_permuted (h : profile.Permuted profile') :
    coveredOn z profile date = coveredOn z profile' date := by
  unfold coveredOn
  cases hok : intervalsForDate z profile date with
  | error e =>
    cases hok' : intervalsForDate z profile' date with
    | error e' => rfl
    | ok r' =>
      obtain ⟨r, hr⟩ := intervalsForDate_permuted h.symm hok'
      rw [hok] at hr
      cases hr
  | ok r =>
    obtain ⟨r', hok'⟩ := intervalsForDate_permuted h hok
    rw [hok']
    simp only [Except.toOption, Option.map_some, Option.some.injEq]
    rw [(intervalsForDate_covered hok).1, (intervalsForDate_covered hok').1, hoursOn_permuted h]

end Order

/-- **The hours of a date are exact set algebra**: what `intervalsForDate` returns covers exactly the
instants that the weekly intervals and the exception of the date name, with no empty interval, and
covers the same whatever the order of the local intervals. -/
theorem hours_exact (z : Zone) (profile : HoursProfile) (date : Day) :
    (∀ r, intervalsForDate z profile date = .ok r →
      coveredBy r.1 = hoursOn z profile date ∧ AllNonempty r.1) ∧
      ∀ profile', profile.Permuted profile' →
        coveredOn z profile date = coveredOn z profile' date :=
  ⟨fun _ h => intervalsForDate_covered h, fun _ h => coveredOn_permuted h⟩

section Sample

theorem fixed_offset (offset t : Int) : (fun _ => offset : Int → Int) t ∈ [offset] :=
  List.mem_singleton.2 rfl

/-- A zone whose offset never changes. -/
def fixedZone (offset : Int) : Zone := ⟨fun _ => offset, [offset], fixed_offset offset⟩

/-- Office hours with a lunch hour that is removed on one day. -/
def lunchProfile : HoursProfile where
  profileRef := "work-hours"
  revision := 1
  timezone := "Etc/GMT-1"
  ambiguous := .earlierOffset
  nonexistent := .shiftForwardByGap
  weekly := [{ weekday := 2, start := "09:00:00", finish := "17:00:00", endDayOffset := 0 }]
  exceptions := [.remove "2026-07-21" [⟨"12:00:00", "13:00:00", 0⟩]]

/-- The morning and the afternoon. -/
theorem hours_exact_lunch :
    coveredBy [⟨1784620800000, 1784631600000⟩, ⟨1784635200000, 1784649600000⟩] =
      hoursOn (fixedZone 3600) lunchProfile 20655 :=
  ((hours_exact (fixedZone 3600) lunchProfile 20655).1
    ([⟨1784620800000, 1784631600000⟩, ⟨1784635200000, 1784649600000⟩], [])
    (by decide +kernel)).1

end Sample

end Planipus.CalendarSync

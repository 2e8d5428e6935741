import Planipus.CalendarSync.LocalTime
import Planipus.CalendarSync.Evaluate

/-!
# The hours evaluator

`packages/calendar-sync/src/hours.ts`: the concrete intervals of an hours profile around an event.
Every local time is resolved in the profile's time zone, in the order in which the source does it,
since the first resolution that fails ends the evaluation and every ambiguous or shifted one leaves a
diagnostic. Resolved instants are epoch seconds; the intervals are in milliseconds as the event is.

`Platform.withZones` is the platform whose profiles are matched by this evaluator.
-/

namespace Planipus.CalendarSync

/-- What ends an evaluation: a `DstResolutionError` or any other exception. -/
inductive HoursError | dstResolution | other
deriving DecidableEq

structure ResolvedInstant where
  instant : Int
  diagnostic : Option ReasonCode
deriving DecidableEq

/-- Concrete intervals and the diagnostics that were pushed for them. -/
abbrev Materialized := List InstantInterval × List ReasonCode

def resolveLocal (z : Zone) (profile : HoursProfile) (date : Day) (timeText : String) :
    Except HoursError ResolvedInstant :=
  match localTime? timeText with
  | none => .error .other
  | some time =>
    let requested := naive date time
    match zonedDateTime z requested .reject with
    | some t => .ok ⟨t, none⟩
    | none =>
      match zonedDateTime z requested .earlier, zonedDateTime z requested .later with
      | some earlier, some later =>
        if z.Shows earlier requested ∧ z.Shows later requested then
          match profile.ambiguous with
          | .earlierOffset => .ok ⟨earlier, some .dstAmbiguousEarlier⟩
          | .laterOffset => .ok ⟨later, some .dstAmbiguousLater⟩
        else
          match profile.nonexistent with
          | .reject => .error .dstResolution
          | .shiftForwardByGap => .ok ⟨later, some .dstNonexistentShifted⟩
      | _, _ => .error .dstResolution

/-- An interval that is empty in the zone is dropped; its diagnostics stay. -/
def materialize (z : Zone) (profile : HoursProfile) (date : Day) (interval : LocalInterval) :
    Except HoursError Materialized := do
  let start ← resolveLocal z profile date interval.start
  let finish ← resolveLocal z profile (date + interval.endDayOffset) interval.finish
  let diagnostics := start.diagnostic.toList ++ finish.diagnostic.toList
  if finish.instant ≤ start.instant then return ([], diagnostics)
  else return ([⟨start.instant * 1000, finish.instant * 1000⟩], diagnostics)

def materializeAll (z : Zone) (profile : HoursProfile) (date : Day) :
    List LocalInterval → Except HoursError Materialized
  | [] => .ok ([], [])
  | interval :: intervals => do
    let (concrete, diagnostics) ← materialize z profile date interval
    let (rest, diagnostics') ← materializeAll z profile date intervals
    return (concrete ++ rest, diagnostics ++ diagnostics')

def subtractInterval (base removal : InstantInterval) : List InstantInterval :=
  if removal.finish ≤ base.start ∨ base.finish ≤ removal.start then [base]
  else
    (if base.start < removal.start then [⟨base.start, removal.start⟩] else []) ++
      (if removal.finish < base.finish then [⟨removal.finish, base.finish⟩] else [])

def HoursException.date : HoursException → String
  | closed date | replace date _ | add date _ | remove date _ => date

def HoursException.intervals : HoursException → List LocalInterval
  | closed _ => []
  | replace _ intervals | add _ intervals | remove _ intervals => intervals

def HoursProfile.exceptionOn (profile : HoursProfile) (date : Day) : Option HoursException :=
  profile.exceptions.find? fun item => item.date = dateText date

def HoursProfile.weeklyOn (profile : HoursProfile) (date : Day) : List LocalInterval :=
  (profile.weekly.filter fun item => item.weekday = dayOfWeek date).map (·.toLocalInterval)

def intervalsForDate (z : Zone) (profile : HoursProfile) (date : Day) :
    Except HoursError Materialized :=
  let weekly := profile.weeklyOn date
  match profile.exceptionOn date with
  | some (.closed _) => .ok ([], [])
  | some (.replace _ intervals) => materializeAll z profile date intervals
  | some (.add _ intervals) => materializeAll z profile date (weekly ++ intervals)
  | some (.remove _ intervals) => do
    let (concrete, diagnostics) ← materializeAll z profile date weekly
    let (removals, diagnostics') ← materializeAll z profile date intervals
    return (removals.foldl (fun bases removal => bases.flatMap (subtractInterval · removal)) concrete,
      diagnostics ++ diagnostics')
  | none => materializeAll z profile date weekly

/-- The loop over the dates up to `localEnd`; `remaining` is what is left of the 371 dates that it may
visit. -/
def visitDates (z : Zone) (profile : HoursProfile) (localEnd : Day) :
    (remaining : Nat) → Day → Except HoursError Materialized
  | 0, date => if date ≤ localEnd then .error .dstResolution else .ok ([], [])
  | remaining + 1, date =>
    if date ≤ localEnd then do
      let (concrete, diagnostics) ← intervalsForDate z profile date
      let (rest, diagnostics') ← visitDates z profile localEnd remaining (date + 1)
      return (concrete ++ rest, diagnostics ++ diagnostics')
    else .ok ([], [])

/-- By start and then by end. -/
def InstantInterval.precedes (left right : InstantInterval) : Prop :=
  left.start < right.start ∨ (left.start = right.start ∧ left.finish ≤ right.finish)

instance : DecidableRel InstantInterval.precedes := fun left right =>
  inferInstanceAs (Decidable (left.start < right.start ∨ (left.start = right.start ∧
    left.finish ≤ right.finish)))

def deduplicateAndSort (intervals : List InstantInterval) : List InstantInterval :=
  (distinct intervals).insertionSort InstantInterval.precedes

/-! ## Properties of concrete intervals -/

theorem distinct_spec {α : Type} [DecidableEq α] (values : List α) :
    (distinct values).Nodup ∧ ∀ v, v ∈ distinct values ↔ v ∈ values := by
  have key : ∀ (values seen : List α), seen.Nodup →
      (values.foldl (fun seen v => if v ∈ seen then seen else v :: seen) seen).Nodup ∧
        ∀ v, v ∈ values.foldl (fun seen v => if v ∈ seen then seen else v :: seen) seen ↔
          v ∈ seen ∨ v ∈ values := by
    intro values
    induction values with
    | nil => intro seen h; simpa using h
    | cons x xs ih =>
      intro seen h
      rw [List.foldl_cons]
      by_cases hx : x ∈ seen
      · rw [if_pos hx]
        refine ⟨(ih seen h).1, fun v => ?_⟩
        rw [(ih seen h).2, List.mem_cons]
        constructor
        · rintro (hv | hv)
          · exact Or.inl hv
          · exact Or.inr (Or.inr hv)
        · rintro (hv | rfl | hv)
          · exact Or.inl hv
          · exact Or.inl hx
          · exact Or.inr hv
      · rw [if_neg hx]
        have hcons : (x :: seen).Nodup := List.nodup_cons.2 ⟨hx, h⟩
        refine ⟨(ih _ hcons).1, fun v => ?_⟩
        rw [(ih _ hcons).2, List.mem_cons, List.mem_cons, or_assoc, or_left_comm]
  have hspec := key values [] List.nodup_nil
  exact ⟨List.nodup_reverse.2 hspec.1, fun v => by simpa [distinct] using hspec.2 v⟩

section Forall

variable {z : Zone} {profile : HoursProfile} {date : Day} {P : InstantInterval → Prop}
  {r : Materialized}

/-- What holds of every materialized interval holds of all of them. -/
theorem materializeAll_forall {values : List LocalInterval}
    (h : materializeAll z profile date values = .ok r)
    (hP : ∀ value ∈ values, ∀ r, materialize z profile date value = .ok r → ∀ i ∈ r.1, P i) :
    ∀ i ∈ r.1, P i := by
  induction values generalizing r with
  | nil =>
    cases h
    intro i hi
    cases hi
  | cons value values ih =>
    rw [materializeAll] at h
    cases hh : materialize z profile date value with
    | error e => rw [hh] at h; cases h
    | ok head =>
      cases ht : materializeAll z profile date values with
      | error e => rw [hh, ht] at h; cases h
      | ok tail =>
        rw [hh, ht] at h
        cases h
        intro i hi
        rcases List.mem_append.1 hi with hi | hi
        · exact hP value (.head _) head hh i hi
        · exact ih ht (fun value' hvalue => hP value' (.tail _ hvalue)) i hi

/-- What holds of the intervals of every date holds of those that the loop collects. -/
theorem visitDates_forall {last : Day} {remaining : Nat}
    (h : visitDates z profile last remaining date = .ok r)
    (hP : ∀ d, date ≤ d → d ≤ last → ∀ r, intervalsForDate z profile d = .ok r → ∀ i ∈ r.1, P i) :
    ∀ i ∈ r.1, P i := by
  induction remaining generalizing date r with
  | zero =>
    rw [visitDates] at h
    split at h
    · cases h
    · cases h
      intro i hi
      cases hi
  | succ remaining ih =>
    rw [visitDates] at h
    split at h
    · rename_i hlast
      cases hi : intervalsForDate z profile date with
      | error e => rw [hi] at h; cases h
      | ok head =>
        cases ht : visitDates z profile last remaining (date + 1) with
        | error e => rw [hi, ht] at h; cases h
        | ok tail =>
          rw [hi, ht] at h
          cases h
          intro i hmem
          rcases List.mem_append.1 hmem with hmem | hmem
          · exact hP date (Int.le_refl _) hlast head hi i hmem
          · refine ih ht (fun d hd => hP d ?_) i hmem
            exact Int.le_trans (Int.le_add_of_nonneg_right (by decide)) hd
    · cases h
      intro i hi
      cases hi

end Forall

def invalidHours : HoursEvaluationResult := ⟨false, .invalidHoursProfile, [], [], []⟩

def rejectedHours : HoursEvaluationResult :=
  ⟨false, .dstResolutionRejected, [], [], [.dstResolutionRejected]⟩

/-- The reason for a match or the lack of one. -/
def matchReason (mode : HoursMode) (included : Bool) : ReasonCode :=
  if included then
    if mode = .overlapsProfile then .overlapsHours else .containedInHours
  else if mode = .overlapsProfile then .outsideHours else .notContainedInHours

/-- The first date that is materialized is the day before the event's. -/
def firstDate (z : Zone) (event : InstantInterval) : Day := z.localDay (event.start / 1000) - 1

def lastDate (z : Zone) (event : InstantInterval) : Day := z.localDay (event.finish / 1000)

def maxDates : Nat := 371

def matchProfile (zones : String → Option Zone) (mode : HoursMode) (event : InstantInterval)
    (profile : HoursProfile) : HoursEvaluationResult :=
  match zones profile.timezone with
  | none => invalidHours
  | some z =>
    match visitDates z profile (lastDate z event) maxDates (firstDate z event) with
    | .error .dstResolution => rejectedHours
    | .error .other => invalidHours
    | .ok (concrete, diagnostics) =>
      let sorted := deduplicateAndSort concrete
      let overlapping := sorted.filter fun i => event.start < i.finish && i.start < event.finish
      let contained := sorted.filter fun i => i.start ≤ event.start && event.finish ≤ i.finish
      let matched := if mode = .overlapsProfile then overlapping else contained
      { included := !matched.isEmpty
        reasonCode := matchReason mode (!matched.isEmpty)
        concreteIntervals := sorted
        matchedIntervals := matched
        diagnostics := distinct diagnostics }

def Platform.withZones (env : Platform) (zones : String → Option Zone) : Platform :=
  { env with matchProfile := CalendarSync.matchProfile zones }

/-- Where a profile decides, it is matched. -/
theorem evaluateHours_of_profile (env : Platform) (zones : String → Option Zone)
    {input : HoursEvaluationInput} {profile : HoursProfile} (hprofile : input.profile = some profile)
    (hmode : input.mode ≠ .allTimes) (hevent : input.event.start < input.event.finish) :
    evaluateHours (env.withZones zones) input = matchProfile zones input.mode input.event profile := by
  rw [evaluateHours, if_neg (Int.not_le.2 hevent), hprofile]
  cases hm : input.mode with
  | allTimes => exact absurd hm hmode
  | overlapsProfile => rfl
  | containedInProfile => rfl

/-- Which profile it is and which revision it has plays no part. -/
theorem matchProfile_rename (zones : String → Option Zone) (mode : HoursMode)
    (event : InstantInterval) (profile : HoursProfile) (profileRef : String) (revision : Nat) :
    matchProfile zones mode event { profile with profileRef, revision } =
      matchProfile zones mode event profile := by
  have hmat : ∀ z date interval,
      materialize z { profile with profileRef, revision } date interval =
        materialize z profile date interval := fun _ _ _ => rfl
  have hall : ∀ z date intervals,
      materializeAll z { profile with profileRef, revision } date intervals =
        materializeAll z profile date intervals := by
    intro z date intervals
    induction intervals with
    | nil => rfl
    | cons interval intervals ih => simp only [materializeAll, hmat, ih]
  have hdate : ∀ z date, intervalsForDate z { profile with profileRef, revision } date =
      intervalsForDate z profile date := by
    intro z date
    simp only [intervalsForDate, hall]
    rfl
  have hvisit : ∀ z localEnd remaining date,
      visitDates z { profile with profileRef, revision } localEnd remaining date =
        visitDates z profile localEnd remaining date := by
    intro z localEnd remaining
    induction remaining with
    | zero => intro date; rfl
    | succ remaining ih => intro date; simp only [visitDates, hdate, ih]
  simp only [matchProfile, hvisit]

end Planipus.CalendarSync

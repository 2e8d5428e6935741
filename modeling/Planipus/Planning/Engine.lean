import Planipus.CalendarSync.Hours
import Planipus.Provider.Google

/-!
# The planner

`server/src/planning/engine.ts`: the protected times of an availability boundary and the slots of a
smart meeting. The planner compares instants as texts, and there are two kinds of them:
`Date.toISOString` writes milliseconds and `Temporal.Instant.toString` stops at the second, so that
two texts of one instant may differ in order (`InstantText.before`); years outside of 0 to 9999 are
written with a sign. Local dates are texts of ten characters, which from the year 10000 on is a sign,
the year and the month. The clock is taken to be in a year that has four digits without padding, since
`Intl` pads none.
-/

namespace Planipus.Planning

open CalendarSync
open Provider.Google (PlanningRuleKind)

/-! ## Drafts -/

inductive ConflictPolicy | suggest | autoMove | keepWithWarning
deriving DecidableEq

structure AvailabilityBoundaryDraft where
  name : String
  targetCalendarId : String
  timezone : String
  workingDays : List Nat
  workdayStart : String
  workdayEnd : String
  protectBeforeWork : Bool
  protectAfterWork : Bool
  protectClosedDays : Bool
  title : String
  visibility : Visibility
  horizonDays : Nat
deriving DecidableEq

structure SmartMeetingAttendee where
  email : String
  required : Bool
  availabilityCalendarId : Option String
deriving DecidableEq

structure SmartMeetingDraft where
  name : String
  targetCalendarId : String
  timezone : String
  startDate : String
  weekdays : List Nat
  windowStart : String
  windowEnd : String
  preferredTime : String
  cadenceWeeks : Nat
  occurrenceCount : Nat
  minimumDurationMinutes : Nat
  maximumDurationMinutes : Nat
  startStepMinutes : Nat
  attendees : List SmartMeetingAttendee
  availabilityCalendarIds : List String
  conflictPolicy : ConflictPolicy
  lockBeforeMinutes : Nat
  description : Option String
  location : Option String
  visibility : Visibility
deriving DecidableEq

inductive PlanningDraft
  | availabilityBoundary (draft : AvailabilityBoundaryDraft)
  | smartMeeting (draft : SmartMeetingDraft)
deriving DecidableEq

namespace PlanningDraft

def kind : PlanningDraft → PlanningRuleKind
  | availabilityBoundary _ => .availabilityBoundary
  | smartMeeting _ => .smartMeeting

def targetCalendarId : PlanningDraft → String
  | availabilityBoundary draft => draft.targetCalendarId
  | smartMeeting draft => draft.targetCalendarId

end PlanningDraft

/-! ## Texts of instants -/

/-- An instant in epoch milliseconds, written with or without milliseconds. -/
structure InstantText where
  instant : Instant
  milliseconds : Bool
deriving DecidableEq

/-- 0000-01-01 in UTC. -/
def yearZero : Instant := -62167219200000

/-- 10000-01-01 in UTC. -/
def yearTenThousand : Instant := 253402300800000

example : civilOfDay (yearZero / 86400000) = (0, 1, 1) ∧
    civilOfDay (yearTenThousand / 86400000) = (10000, 1, 1) := by
  decide +kernel

/-- The first character of the text, by its place in ASCII: a `+` from the year 10000 on, a `-` before
the year 0, and else a digit. -/
def InstantText.sign (a : InstantText) : Nat :=
  if yearTenThousand ≤ a.instant then 0 else if a.instant < yearZero then 1 else 2

def InstantText.year (a : InstantText) : Int := (civilOfDay (a.instant / 86400000)).1

/-- The order of the texts. After a `-` the digits of the year count backwards, and within a second
`.000Z` comes before `Z`. -/
def InstantText.before (a b : InstantText) : Bool :=
  a.sign < b.sign || (a.sign = b.sign &&
    if a.sign = 1 ∧ a.year ≠ b.year then b.year < a.year
    else a.instant / 1000 < b.instant / 1000 || (a.instant / 1000 = b.instant / 1000 &&
      match a.milliseconds, b.milliseconds with
      | true, true => a.instant < b.instant
      | true, false => true
      | false, _ => false))

/-- `new Date(t).toISOString()` -/
def toISOString (t : Instant) : InstantText := ⟨t, true⟩

/-- `toString({ smallestUnit: "second" })` -/
def instantString (t : Instant) : InstantText := ⟨t, false⟩

structure TextInterval where
  start : InstantText
  finish : InstantText
deriving DecidableEq

def overlaps (left right : TextInterval) : Bool :=
  left.start.before right.finish && right.start.before left.finish

structure PlanningBusyInterval extends TextInterval where
  calendarId : String
deriving DecidableEq

/-! ## Local dates -/

/-- The first of the month that `+YYYYYY-MM` names. -/
def expandedMonth? (text : String) : Option Day :=
  match text.toList with
  | ['+', y₁, y₂, y₃, y₄, y₅, y₆, '-', m₁, m₂] =>
    match digits? [y₁, y₂, y₃, y₄, y₅, y₆], digits? [m₁, m₂] with
    | some year, some month => if 1 ≤ month ∧ month ≤ 12 then some (dayOfCivil year month 1) else none
    | _, _ => none
  | _ => none

/-- `setUTCDate` and the first ten characters of the result. `Date` reads a month for its first day. -/
def addLocalDays (date : String) (days : Nat) : Option String :=
  (localDate? date <|> expandedMonth? date).map fun day =>
    String.ofList ((dateText (day + days)).toList.take 10)

example : addLocalDays "9999-12-30" 7 = some "+010000-01" ∧
    addLocalDays "+010000-01" 7 = some "+010000-01" := by
  decide +kernel

def localDateAt (z : Zone) (t : Instant) : String := dateText (z.localDay (t / 1000))

def localMinuteOfDay (z : Zone) (t : Instant) : Int :=
  (t / 1000 + z.offset (t / 1000)) % 86400 / 60

def clockMinutes (value : String) : Int := (localTime? value).getD 0 / 60

structure MaterializedHours where
  concreteIntervals : List TextInterval
  diagnostics : List ReasonCode
deriving DecidableEq

def materializeHours (zones : String → Option Zone) (profile : HoursProfile)
    (startDate endDateExclusive : String) : MaterializedHours :=
  match localDate? startDate, localDate? endDateExclusive, zones profile.timezone with
  | some start, some finish, some z =>
    if finish ≤ start then ⟨[], []⟩
    else
      match visitDates z profile (finish - 1) maxDates start with
      | .error _ => ⟨[], [.dstResolutionRejected]⟩
      | .ok (concrete, diagnostics) =>
        ⟨(deduplicateAndSort concrete).map fun i => ⟨instantString i.start, instantString i.finish⟩,
          distinct diagnostics⟩
  | _, _, _ => ⟨[], [.dstResolutionRejected]⟩

def hoursProfile (id timezone : String) (weekly : List WeeklyInterval) : HoursProfile where
  profileRef := id
  revision := 1
  timezone
  ambiguous := .earlierOffset
  nonexistent := .shiftForwardByGap
  weekly
  exceptions := []

/-! ## Results -/

structure PlannedTiming where
  startInstant : InstantText
  endInstant : InstantText
  timezone : String
deriving DecidableEq

/-- A `ManagedPlanningEvent` without its provenance. Every one is opaque and has no reminders. -/
structure EventTemplate where
  timing : PlannedTiming
  summary : String
  description : Option String
  location : Option String
  visibility : Visibility
  /-- The addresses, and who is optional. -/
  attendees : List (String × Bool)
  sendUpdates : Bool
deriving DecidableEq

inductive Decision | schedule | unmet
deriving DecidableEq

structure PlannedOccurrenceTemplate where
  occurrenceKey : String
  decision : Decision
  reasonCode : String
  event : Option EventTemplate
  rejectedCandidateCount : Int
deriving DecidableEq

inductive PlanningWarning
  | availabilityIncomplete | requiredAttendeeAvailabilityUnknown | hours (diagnostic : ReasonCode)
deriving DecidableEq

structure PlanningResult where
  kind : PlanningRuleKind
  occurrences : List PlannedOccurrenceTemplate
  scheduledCount : Nat
  unmetCount : Nat
  warnings : List PlanningWarning
  hoursSummary : String
deriving DecidableEq

structure PlanningInput where
  draft : PlanningDraft
  now : Instant
  busy : List PlanningBusyInterval
  knownAvailabilityCalendarIds : List String

def hoursSummary (start finish timezone : String) : String :=
  String.ofList (start.toList.take 5) ++ "–" ++ String.ofList (finish.toList.take 5) ++ " · " ++
    timezone

def timingOf (interval : TextInterval) (timezone : String) : PlannedTiming :=
  ⟨interval.start, interval.finish, timezone⟩

section Planner

variable (zones : String → Option Zone)

/-! ## Availability boundaries -/

def boundaryWeekly (draft : AvailabilityBoundaryDraft) : List WeeklyInterval :=
  [1, 2, 3, 4, 5, 6, 7].flatMap fun weekday =>
    if weekday ∉ draft.workingDays then
      if draft.protectClosedDays then
        [{ weekday, start := "00:00:00", finish := "00:00:00", endDayOffset := 1 }]
      else []
    else
      (if draft.protectBeforeWork && draft.workdayStart ≠ "00:00:00" then
        [{ weekday, start := "00:00:00", finish := draft.workdayStart, endDayOffset := 0 }]
      else []) ++
      (if draft.protectAfterWork && draft.workdayEnd ≠ "00:00:00" then
        [{ weekday, start := draft.workdayEnd, finish := "00:00:00", endDayOffset := 1 }]
      else [])

/-- The text of an instant in seconds, as it stands in a key. -/
def secondText (t : Instant) : String :=
  let second := (t / 1000 % 86400).toNat
  dateText (t / 1000 / 86400) ++ "T" ++ padded 2 (second / 3600) ++ ":" ++
    padded 2 (second / 60 % 60) ++ ":" ++ padded 2 (second % 60) ++ "Z"

def planAvailabilityBoundary (draft : AvailabilityBoundaryDraft) (now : Instant) :
    Option PlanningResult := do
  let z ← zones draft.timezone
  let startDate := localDateAt z now
  let endDate ← addLocalDays startDate draft.horizonDays
  let profile := hoursProfile "availability-boundary-preview" draft.timezone (boundaryWeekly draft)
  let materialized := materializeHours zones profile startDate endDate
  let occurrences := materialized.concreteIntervals.map fun interval =>
    { occurrenceKey := "boundary:" ++ secondText interval.start.instant
      decision := .schedule
      reasonCode := "outside_working_hours"
      event := some
        { timing := timingOf interval draft.timezone
          summary := draft.title
          description := none
          location := none
          visibility := draft.visibility
          attendees := []
          sendUpdates := false }
      rejectedCandidateCount := 0 }
  return {
    kind := .availabilityBoundary
    occurrences
    scheduledCount := occurrences.length
    unmetCount := 0
    warnings := materialized.diagnostics.map .hours
    hoursSummary := hoursSummary draft.workdayStart draft.workdayEnd draft.timezone }

/-! ## Smart meetings -/

structure Candidate where
  interval : TextInterval
  score : Int
  rejectedBefore : Nat
deriving DecidableEq

def alignToStep (milliseconds : Int) (stepMinutes : Nat) : Int :=
  let step : Int := stepMinutes * 60000
  (-((-milliseconds) / step)) * step

/-- From the longest to the shortest. -/
def durations (draft : SmartMeetingDraft) : List Nat :=
  let stepped :=
    if draft.maximumDurationMinutes < draft.minimumDurationMinutes then []
    else
      (List.range ((draft.maximumDurationMinutes - draft.minimumDurationMinutes) /
        draft.startStepMinutes + 1)).map fun n =>
          draft.maximumDurationMinutes - n * draft.startStepMinutes
  if draft.minimumDurationMinutes ∈ stepped then stepped
  else stepped ++ [draft.minimumDurationMinutes]

/-- The starts of a meeting of the duration in a window. -/
def cursors (draft : SmartMeetingDraft) (window : TextInterval) (duration : Nat) : List Int :=
  let start := alignToStep window.start.instant draft.startStepMinutes
  let step : Int := draft.startStepMinutes * 60000
  (List.range ((window.finish.instant - duration * 60000 - start) / step + 1).toNat).map fun n =>
    start + n * step

def conflicts (earliestStart : InstantText) (busy : List PlanningBusyInterval)
    (used : List TextInterval) (candidate : TextInterval) : Bool :=
  candidate.start.before earliestStart ||
    busy.any (fun interval => overlaps candidate interval.toTextInterval) ||
    used.any (overlaps candidate)

/-- One start of the innermost loop: it is rejected, or becomes a candidate. -/
def tryCursor (z : Zone) (draft : SmartMeetingDraft) (conflict : TextInterval → Bool)
    (duration : Nat) (acc : Nat × List Candidate) (cursor : Int) : Nat × List Candidate :=
  let candidate : TextInterval := ⟨toISOString cursor, toISOString (cursor + duration * 60000)⟩
  if conflict candidate then (acc.1 + 1, acc.2)
  else
    (acc.1, acc.2 ++
      [{ interval := candidate
         score := (localMinuteOfDay z cursor - clockMinutes draft.preferredTime).natAbs +
           ((draft.maximumDurationMinutes : Int) - duration) * 5
         rejectedBefore := acc.1 }])

/-- The durations in order, until one of them has candidates. -/
def scanDurations (z : Zone) (draft : SmartMeetingDraft) (windows : List TextInterval)
    (conflict : TextInterval → Bool) : List Nat → Nat → List Candidate
  | [], _ => []
  | duration :: rest, rejected =>
    let (rejected, candidates) := (windows.flatMap (cursors draft · duration)).foldl
      (tryCursor z draft conflict duration) (rejected, [])
    if candidates.isEmpty then scanDurations z draft windows conflict rest rejected else candidates

def Candidate.before (a b : Candidate) : Bool :=
  a.score < b.score || (a.score = b.score &&
    (a.interval.start.before b.interval.start || (a.interval.start = b.interval.start &&
      !b.interval.finish.before a.interval.finish)))

def chooseMeetingSlot (z : Zone) (draft : SmartMeetingDraft) (windows : List TextInterval)
    (busy : List PlanningBusyInterval) (used : List TextInterval) (now : Instant) :
    Option Candidate :=
  let earliestStart := toISOString (now + draft.lockBeforeMinutes * 60000)
  ((scanDurations z draft windows (conflicts earliestStart busy used) (durations draft) 0).insertionSort
    fun a b => a.before b).head?

def candidateCount (draft : SmartMeetingDraft) (windows : List TextInterval) : Int :=
  windows.foldl (fun total window =>
    let room : Int := window.finish.instant - window.start.instant -
      draft.minimumDurationMinutes * 60000
    total + max 0 (room / (draft.startStepMinutes * 60000 : Int) + 1)) 0

def meetingEvent (draft : SmartMeetingDraft) (interval : TextInterval) : EventTemplate where
  timing := timingOf interval draft.timezone
  summary := draft.name
  description := draft.description
  location := draft.location
  visibility := draft.visibility
  attendees := draft.attendees.map fun attendee => (attendee.email, !attendee.required)
  sendUpdates := !draft.attendees.isEmpty

/-- The occurrence of one cycle. -/
def meetingOccurrence (z : Zone) (draft : SmartMeetingDraft) (windows : List TextInterval)
    (busy : List PlanningBusyInterval) (used : List TextInterval) (now : Instant)
    (windowStart : String) : PlannedOccurrenceTemplate :=
  match chooseMeetingSlot z draft windows busy used now with
  | none =>
    { occurrenceKey := "week:" ++ windowStart
      decision := .unmet
      reasonCode := "no_mutual_time_inside_meeting_hours"
      event := none
      rejectedCandidateCount := candidateCount draft windows }
  | some selected =>
    { occurrenceKey := "week:" ++ windowStart
      decision := .schedule
      reasonCode :=
        if selected.rejectedBefore > 0 then "closest_mutual_opening" else "preferred_time_available"
      event := some (meetingEvent draft selected.interval)
      rejectedCandidateCount := selected.rejectedBefore }

def PlannedOccurrenceTemplate.interval? (occurrence : PlannedOccurrenceTemplate) :
    Option TextInterval :=
  occurrence.event.map fun event => ⟨event.timing.startInstant, event.timing.endInstant⟩

/-- The loop over the cycles; `used` are the slots of the ones before. -/
def planCycles (z : Zone) (draft : SmartMeetingDraft) (profile : HoursProfile)
    (busy : List PlanningBusyInterval) (now : Instant) :
    Nat → String → List TextInterval → List PlanningWarning →
      Option (List PlannedOccurrenceTemplate × List PlanningWarning)
  | 0, _, _, warnings => some ([], warnings)
  | count + 1, windowStart, used, warnings => do
    let windowEnd ← addLocalDays windowStart (7 * draft.cadenceWeeks)
    let windows := materializeHours zones profile windowStart windowEnd
    let warnings := windows.diagnostics.foldl (fun warnings diagnostic =>
      if .hours diagnostic ∈ warnings then warnings else warnings ++ [.hours diagnostic]) warnings
    let occurrence :=
      meetingOccurrence z draft windows.concreteIntervals busy used now windowStart
    let (rest, warnings) ←
      planCycles z draft profile busy now count windowEnd (used ++ occurrence.interval?.toList) warnings
    return (occurrence :: rest, warnings)

def meetingWarnings (draft : SmartMeetingDraft) (known : List String) : List PlanningWarning :=
  (if draft.availabilityCalendarIds.any (· ∉ known) then [.availabilityIncomplete] else []) ++
  (if draft.attendees.any fun attendee => attendee.required &&
      !attendee.availabilityCalendarId.any (· ∈ known) then
    [.requiredAttendeeAvailabilityUnknown]
  else [])

def meetingProfile (draft : SmartMeetingDraft) : HoursProfile :=
  hoursProfile "smart-meeting-preview" draft.timezone (draft.weekdays.map fun weekday =>
    { weekday
      start := draft.windowStart
      finish := draft.windowEnd
      endDayOffset := if draft.windowStart < draft.windowEnd then 0 else 1 })

def planSmartMeeting (draft : SmartMeetingDraft) (input : PlanningInput) : Option PlanningResult := do
  let z ← zones draft.timezone
  let (occurrences, warnings) ← planCycles zones z draft (meetingProfile draft) input.busy input.now
    draft.occurrenceCount draft.startDate [] (meetingWarnings draft input.knownAvailabilityCalendarIds)
  return {
    kind := .smartMeeting
    occurrences
    scheduledCount := (occurrences.filter (·.decision = .schedule)).length
    unmetCount := (occurrences.filter (·.decision = .unmet)).length
    warnings
    hoursSummary := hoursSummary draft.windowStart draft.windowEnd draft.timezone }

def planScheduling (input : PlanningInput) : Option PlanningResult :=
  match input.draft with
  | .availabilityBoundary draft => planAvailabilityBoundary zones draft input.now
  | .smartMeeting draft => planSmartMeeting zones draft input

/-- A smart meeting goes on with the cycle of today. -/
def rollingDraft (draft : PlanningDraft) (now : Instant) : Option PlanningDraft :=
  match draft with
  | .availabilityBoundary _ => some draft
  | .smartMeeting meeting => do
    let z ← zones meeting.timezone
    let cycleDays : Int := meeting.cadenceWeeks * 7
    match localDate? (localDateAt z now), localDate? meeting.startDate with
    | some today, some start =>
      if today - start < cycleDays then return draft
      else
        let startDate ← addLocalDays meeting.startDate
          ((today - start) / cycleDays * cycleDays).toNat
        return .smartMeeting { meeting with startDate }
    | _, _ => return draft

end Planner

end Planipus.Planning

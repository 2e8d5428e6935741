import Mathlib.Data.List.DropRight
import Planipus.CalendarSync.CanonicalJson
import Planipus.CalendarSync.LocalTime
import Planipus.Library.Utf16
import Planipus.Planning.Engine

/-!
# Planning rules as input

`server/src/planning/validation.ts`: what the parser makes of an untrusted value. Values are those of
JSON, and members may be `undefined`; strings are lists of code units, lone surrogates included. A
service parses a request, stores the result as a document, and parses the document whenever it uses the
rule. `-0`, which is an integer to the parser, is `0`.
-/

namespace Planipus.Planning.Input

open CalendarSync Library

/-- The parts of the language that depend on Unicode or on the time zones that are known. -/
structure Runtime where
  /-- `String.prototype.normalize("NFC")`. -/
  normalizeNFC : CodeUnits → CodeUnits
  /-- `String.prototype.toLowerCase`. -/
  toLowerCase : CodeUnits → CodeUnits
  /-- `\p{Cc}` or `\p{Cf}`, of a code point. -/
  isControlOrFormat : Nat → Bool
  /-- `Intl.DateTimeFormat` accepts the time zone. -/
  isTimezone : CodeUnits → Bool

structure PlanningInputError where
  code : String
  message : String
deriving DecidableEq

def invalid (message : String) : PlanningInputError := ⟨"invalid_planning_rule", message⟩

abbrev Parsed (α : Type) := Except PlanningInputError α

/-- `if (!holds) throw invalid(message)`. -/
def require (holds : Bool) (message : String) : Parsed Unit :=
  if holds then .ok () else .error (invalid message)

/-! ## Drafts -/

structure AvailabilityBoundaryDraft where
  name : CodeUnits
  targetCalendarId : CodeUnits
  timezone : CodeUnits
  workingDays : List Nat
  workdayStart : CodeUnits
  workdayEnd : CodeUnits
  protectBeforeWork : Bool
  protectAfterWork : Bool
  protectClosedDays : Bool
  title : CodeUnits
  visibility : Visibility
  horizonDays : Nat
deriving DecidableEq

structure SmartMeetingAttendee where
  email : CodeUnits
  required : Bool
  availabilityCalendarId : Option CodeUnits
deriving DecidableEq

structure SmartMeetingDraft where
  name : CodeUnits
  targetCalendarId : CodeUnits
  timezone : CodeUnits
  startDate : CodeUnits
  weekdays : List Nat
  windowStart : CodeUnits
  windowEnd : CodeUnits
  preferredTime : CodeUnits
  cadenceWeeks : Nat
  occurrenceCount : Nat
  minimumDurationMinutes : Nat
  maximumDurationMinutes : Nat
  startStepMinutes : Nat
  priority : Nat
  attendees : List SmartMeetingAttendee
  availabilityCalendarIds : List CodeUnits
  conflictPolicy : ConflictPolicy
  lockBeforeMinutes : Nat
  description : Option CodeUnits
  location : Option CodeUnits
  visibility : Visibility
deriving DecidableEq

inductive PlanningDraft
  | availabilityBoundary (draft : AvailabilityBoundaryDraft)
  | smartMeeting (draft : SmartMeetingDraft)
deriving DecidableEq

/-! ## Patterns -/

/-- `\s`, which is also what `trim` takes off. -/
def isWhiteSpace (c : Nat) : Bool :=
  (9 ≤ c && c ≤ 13) || c = 0x20 || c = 0xA0 || c = 0x1680 || (0x2000 ≤ c && c ≤ 0x200A) ||
    c = 0x2028 || c = 0x2029 || c = 0x202F || c = 0x205F || c = 0x3000 || c = 0xFEFF

def trim (text : CodeUnits) : CodeUnits := (text.dropWhile isWhiteSpace).rdropWhile isWhiteSpace

def isDigit (c : Nat) : Bool := 48 ≤ c && c ≤ 57

/-- `[01]\d|2[0-3]` -/
def hourPattern (c d : Nat) : Bool :=
  ((c = 48 || c = 49) && isDigit d) || (c = 50 && 48 ≤ d && d ≤ 51)

/-- `[0-5]\d` -/
def sixtyPattern (c d : Nat) : Bool := 48 ≤ c && c ≤ 53 && isDigit d

/-- `^(?:[01]\d|2[0-3]):[0-5]\d(?::[0-5]\d)?$` -/
def clockPattern : CodeUnits → Bool
  | [h, h', colon, m, m'] => hourPattern h h' && colon = 58 && sixtyPattern m m'
  | [h, h', colon, m, m', colon', s, s'] =>
    hourPattern h h' && colon = 58 && sixtyPattern m m' && colon' = 58 && sixtyPattern s s'
  | _ => false

def digitsValue (digits : CodeUnits) : Nat := digits.foldl (fun value c => value * 10 + (c - 48)) 0

/-- `^\d{4}-\d{2}-\d{2}$`, and `Date` gives the same date back. -/
def datePattern : CodeUnits → Bool
  | [y, y', y'', y''', dash, m, m', dash', d, d'] =>
    [y, y', y'', y''', m, m', d, d'].all isDigit && dash = 45 && dash' = 45 &&
      1 ≤ digitsValue [m, m'] && digitsValue [m, m'] ≤ 12 && 1 ≤ digitsValue [d, d'] &&
      digitsValue [d, d'] ≤ daysInMonth (digitsValue [y, y', y'', y''']) (digitsValue [m, m'])
  | _ => false

/-- `^[^\s@]+@[^\s@]+\.[^\s@]+$`: one `@`, behind it a point that is neither first nor last. -/
def emailPattern (text : CodeUnits) : Bool :=
  let domain := (text.dropWhile (· ≠ 64)).tail
  text.all (!isWhiteSpace ·) && text.head? ≠ some 64 && text ≠ [] && text.contains 64 &&
    !domain.contains 64 && domain.tail.dropLast.contains 46

/-! ## Fields -/

namespace Field

variable (rt : Runtime)

def text (value : Option JsonValue) (field : String) (max : Nat) : Parsed CodeUnits :=
  match value with
  | some (.string value) => do
    let result := trim (rt.normalizeNFC value)
    require (1 ≤ result.length && (codePoints result).length ≤ max &&
      !(codePoints result).any rt.isControlOrFormat) (field ++ " is invalid")
    return result
  | _ => .error (invalid (field ++ " is required"))

def optionalText (value : Option JsonValue) (field : String) (max : Nat) :
    Parsed (Option CodeUnits) :=
  match value with
  | none | some .null | some (.string []) => .ok none
  | some value => some <$> text rt (some value) field max

def id (value : Option JsonValue) (field : String) : Parsed CodeUnits :=
  match value with
  | some (.string value) => do
    require (1 ≤ value.length && value.length ≤ 200 &&
      !(codePoints value).any rt.isControlOrFormat) (field ++ " is invalid")
    return value
  | _ => .error (invalid (field ++ " is invalid"))

def ids (value : Option JsonValue) (field : String) (limit : Nat) : Parsed (List CodeUnits) :=
  match value with
  | some (.array items) => do
    require (items.length ≤ limit) (field ++ " are invalid")
    let result ← items.mapM fun item => id rt (some item) field
    require (decide result.Nodup) (field ++ " must be unique")
    return result
  | _ => .error (invalid (field ++ " are invalid"))

def integer (value : Option JsonValue) (field : String) (min max : Nat) : Parsed Nat :=
  match value with
  | some (.number number) =>
    match number.safeInteger? with
    | some n => do
      require (min ≤ n && n ≤ max) (field ++ " is invalid")
      return n.toNat
    | none => .error (invalid (field ++ " is invalid"))
  | _ => .error (invalid (field ++ " is invalid"))

def weekdays (value : Option JsonValue) (field : String) : Parsed (List Nat) :=
  match value with
  | some (.array items) => do
    require (1 ≤ items.length && items.length ≤ 7) (field ++ " are invalid")
    let result ← items.mapM fun item => integer (some item) field 1 7
    require (decide result.Nodup) (field ++ " must be unique")
    return result.insertionSort (· ≤ ·)
  | _ => .error (invalid (field ++ " are invalid"))

def bool (value : Option JsonValue) (fallback : Bool) : Parsed Bool :=
  match value with
  | none => .ok fallback
  | some (.boolean value) => .ok value
  | some _ => .error (invalid "boolean setting is invalid")

def priority (value : Option JsonValue) : Parsed Nat := integer value "priority" 1 4

def visibility (value : Option JsonValue) : Parsed Visibility :=
  match value with
  | none => .ok .private_
  | some (.string value) =>
    if value = asciiUnits "private" then .ok .private_
    else if value = asciiUnits "default" then .ok .default_
    else .error (invalid "visibility is invalid")
  | some _ => .error (invalid "visibility is invalid")

def conflictPolicy (value : Option JsonValue) : Parsed ConflictPolicy :=
  match value with
  | none => .ok .suggest
  | some (.string value) =>
    if value = asciiUnits "suggest" then .ok .suggest
    else if value = asciiUnits "auto_move" then .ok .autoMove
    else if value = asciiUnits "keep_with_warning" then .ok .keepWithWarning
    else .error (invalid "conflict policy is invalid")
  | some _ => .error (invalid "conflict policy is invalid")

def clock (value : Option JsonValue) (field : String) : Parsed CodeUnits :=
  match value with
  | some (.string value) => do
    require (clockPattern value) (field ++ " is invalid")
    return if value.length = 5 then value ++ asciiUnits ":00" else value
  | _ => .error (invalid (field ++ " is invalid"))

def localDate (value : Option JsonValue) : Parsed CodeUnits :=
  match value with
  | some (.string value) => do
    require (datePattern value) "start date is invalid"
    return value
  | _ => .error (invalid "start date is invalid")

def timeZone (value : Option JsonValue) : Parsed CodeUnits :=
  match value with
  | some (.string value) => do
    require (value.length ≤ 100 && rt.isTimezone value) "timezone is invalid"
    return value
  | _ => .error (invalid "timezone is invalid")

end Field

/-! ## Rules -/

abbrev Members := List (CodeUnits × Option JsonValue)

/-- `value[key]`. -/
def member (value : Members) (key : String) : Option JsonValue :=
  (value.find? (·.1 = asciiUnits key)).bind (·.2)

/-- `value ?? fallback`. -/
def orElse (value : Option JsonValue) (fallback : JsonValue) : JsonValue :=
  match value with
  | none | some .null => fallback
  | some value => value

variable (rt : Runtime)

def parseBoundary (value : Members) : Parsed AvailabilityBoundaryDraft := do
  let name ← Field.text rt (member value "name") "name" 160
  let targetCalendarId ← Field.id rt (member value "target_calendar_id") "target calendar"
  let timezone ← Field.timeZone rt (member value "timezone")
  let workingDays ← Field.weekdays (member value "working_days") "working days"
  let workdayStart ← Field.clock (member value "workday_start") "workday start"
  let workdayEnd ← Field.clock (member value "workday_end") "workday end"
  require (decide (lessThan workdayStart workdayEnd)) "workday end must be after workday start"
  let horizonDays ← Field.integer (member value "horizon_days") "horizon days" 1 60
  let protectBeforeWork ← Field.bool (member value "protect_before_work") false
  let protectAfterWork ← Field.bool (member value "protect_after_work") true
  let protectClosedDays ← Field.bool (member value "protect_closed_days") false
  let title ← Field.text rt
    (some (orElse (member value "title") (.string (asciiUnits "Personal time")))) "title" 160
  let visibility ← Field.visibility (member value "visibility")
  return { name, targetCalendarId, timezone, workingDays, workdayStart, workdayEnd,
           protectBeforeWork, protectAfterWork, protectClosedDays, title, visibility, horizonDays }

/-- The calendar of an attendee, if there is one. -/
def attendeeCalendar (value : Option JsonValue) : Parsed (Option CodeUnits) :=
  match value with
  | none => .ok none
  | some value => some <$> Field.id rt (some value) "attendee availability calendar"

def parseAttendee (value : JsonValue) : Parsed SmartMeetingAttendee :=
  match value with
  | .object value => do
    let raw := rt.toLowerCase (← Field.text rt (member value "email") "attendee email" 254)
    require (emailPattern raw) "attendee email is invalid"
    let calendar ← attendeeCalendar rt (member value "availability_calendar_id")
    let required ← Field.bool (member value "required") true
    return { email := raw, required, availabilityCalendarId := calendar }
  | _ => .error (invalid "attendee must be an object")

def parseAttendees (value : Members) : Parsed (List SmartMeetingAttendee) :=
  match orElse (member value "attendees") (.array []) with
  | .array rawAttendees => do
    require (rawAttendees.length ≤ 25) "attendees are invalid"
    let attendees ← rawAttendees.mapM (parseAttendee rt)
    require (decide (attendees.map (·.email)).Nodup) "attendees must be unique"
    return attendees
  | _ => .error (invalid "attendees are invalid")

def parseSmartMeeting (value : Members) : Parsed SmartMeetingDraft := do
  let minimum ← Field.integer (member value "minimum_duration_minutes") "minimum duration" 15 480
  let maximum ←
    Field.integer (member value "maximum_duration_minutes") "maximum duration" minimum 480
  let step ← Field.integer (member value "start_step_minutes") "start step" 15 60
  require (step = 15 || step = 30 || step = 60) "start step must be 15, 30, or 60 minutes"
  let windowStart ← Field.clock (member value "window_start") "meeting window start"
  let windowEnd ← Field.clock (member value "window_end") "meeting window end"
  require (decide (lessThan windowStart windowEnd)) "meeting window end must be after its start"
  let preferred ← Field.clock (member value "preferred_time") "preferred time"
  require (!decide (lessThan preferred windowStart) && decide (lessThan preferred windowEnd))
    "preferred time must be inside the meeting window"
  let attendees ← parseAttendees rt value
  let availabilityCalendars ←
    Field.ids rt (member value "availability_calendar_ids") "availability calendars" 32
  require (availabilityCalendars ≠ []) "at least one availability calendar is required"
  require (attendees.all fun attendee =>
      attendee.availabilityCalendarId.all (· ∈ availabilityCalendars))
    "attendee availability calendars must also be selected for availability"
  let name ← Field.text rt (member value "name") "name" 160
  let targetCalendarId ← Field.id rt (member value "target_calendar_id") "target calendar"
  let timezone ← Field.timeZone rt (member value "timezone")
  let startDate ← Field.localDate (member value "start_date")
  let weekdays ← Field.weekdays (member value "weekdays") "meeting days"
  let cadenceWeeks ← Field.integer (member value "cadence_weeks") "cadence" 1 12
  let occurrenceCount ← Field.integer (member value "occurrence_count") "occurrence count" 1 16
  let priority ← Field.priority (member value "priority")
  let conflictPolicy ← Field.conflictPolicy (member value "conflict_policy")
  let lockBeforeMinutes ← Field.integer (member value "lock_before_minutes") "lock window" 0 10080
  let description ← Field.optionalText rt (member value "description") "description" 4000
  let location ← Field.optionalText rt (member value "location") "location" 500
  let visibility ← Field.visibility (member value "visibility")
  return { name, targetCalendarId, timezone, startDate, weekdays, windowStart, windowEnd,
           preferredTime := preferred, cadenceWeeks, occurrenceCount,
           minimumDurationMinutes := minimum, maximumDurationMinutes := maximum,
           startStepMinutes := step, priority, attendees,
           availabilityCalendarIds := availabilityCalendars, conflictPolicy, lockBeforeMinutes,
           description, location, visibility }

def parsePlanningDraft (value : JsonValue) : Parsed PlanningDraft :=
  match value with
  | .object value =>
    match member value "kind" with
    | some (.string kind) =>
      if kind = asciiUnits "availability_boundary" then
        .availabilityBoundary <$> parseBoundary rt value
      else if kind = asciiUnits "smart_meeting" then .smartMeeting <$> parseSmartMeeting rt value
      else .error (invalid "planning rule kind is unsupported")
    | _ => .error (invalid "planning rule kind is unsupported")
  | _ => .error (invalid "planning rule must be an object")

/-! ## Documents -/

def text (value : CodeUnits) : JsonValue := .string value

def number (value : Nat) : JsonValue := .number (.finite value)

def entry (key : String) (value : JsonValue) : CodeUnits × Option JsonValue :=
  (asciiUnits key, some value)

/-- A member that is left out where there is no value. -/
def optionalEntry (key : String) (value : Option CodeUnits) : Members :=
  match value with
  | some value => [entry key (text value)]
  | none => []

def visibilityText : Visibility → CodeUnits
  | .private_ => asciiUnits "private"
  | .default_ => asciiUnits "default"

def conflictPolicyText : ConflictPolicy → CodeUnits
  | .suggest => asciiUnits "suggest"
  | .autoMove => asciiUnits "auto_move"
  | .keepWithWarning => asciiUnits "keep_with_warning"

def AvailabilityBoundaryDraft.document (draft : AvailabilityBoundaryDraft) : Members :=
  [ entry "kind" (text (asciiUnits "availability_boundary")),
    entry "name" (text draft.name),
    entry "target_calendar_id" (text draft.targetCalendarId),
    entry "timezone" (text draft.timezone),
    entry "working_days" (.array (draft.workingDays.map number)),
    entry "workday_start" (text draft.workdayStart),
    entry "workday_end" (text draft.workdayEnd),
    entry "protect_before_work" (.boolean draft.protectBeforeWork),
    entry "protect_after_work" (.boolean draft.protectAfterWork),
    entry "protect_closed_days" (.boolean draft.protectClosedDays),
    entry "title" (text draft.title),
    entry "visibility" (text (visibilityText draft.visibility)),
    entry "horizon_days" (number draft.horizonDays) ]

def SmartMeetingAttendee.document (attendee : SmartMeetingAttendee) : JsonValue :=
  .object (entry "email" (text attendee.email) :: entry "required" (.boolean attendee.required) ::
    optionalEntry "availability_calendar_id" attendee.availabilityCalendarId)

def SmartMeetingDraft.document (draft : SmartMeetingDraft) : Members :=
  [ entry "kind" (text (asciiUnits "smart_meeting")),
    entry "name" (text draft.name),
    entry "target_calendar_id" (text draft.targetCalendarId),
    entry "timezone" (text draft.timezone),
    entry "start_date" (text draft.startDate),
    entry "weekdays" (.array (draft.weekdays.map number)),
    entry "window_start" (text draft.windowStart),
    entry "window_end" (text draft.windowEnd),
    entry "preferred_time" (text draft.preferredTime),
    entry "cadence_weeks" (number draft.cadenceWeeks),
    entry "occurrence_count" (number draft.occurrenceCount),
    entry "minimum_duration_minutes" (number draft.minimumDurationMinutes),
    entry "maximum_duration_minutes" (number draft.maximumDurationMinutes),
    entry "start_step_minutes" (number draft.startStepMinutes),
    entry "priority" (number draft.priority),
    entry "attendees" (.array (draft.attendees.map (·.document))),
    entry "availability_calendar_ids" (.array (draft.availabilityCalendarIds.map text)),
    entry "conflict_policy" (text (conflictPolicyText draft.conflictPolicy)),
    entry "lock_before_minutes" (number draft.lockBeforeMinutes) ] ++
  optionalEntry "description" draft.description ++ optionalEntry "location" draft.location ++
  [entry "visibility" (text (visibilityText draft.visibility))]

/-- The draft as the value that is stored and parsed again. -/
def PlanningDraft.document : PlanningDraft → JsonValue
  | .availabilityBoundary draft => .object draft.document
  | .smartMeeting draft => .object draft.document

end Planipus.Planning.Input

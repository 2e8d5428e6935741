import Planipus.Library.Numerals
import Planipus.CalendarSync.Evaluate
import Planipus.Provider.Calendar

/-!
# Event resources of the Google adapter

The resources that the adapter writes and reads (`server/src/providers/google/serializer.ts` and the
end of `calendar.ts`), text for text. `Provider.Calendar` keeps of a written event what later reads
depend on, and its markers as the identity they stand for; here the markers are the private
extended properties under their keys, and `managedIdentity`, `planningIdentity` and
`normalizeGoogleEvent` read them.
-/

namespace Planipus.Provider.Google

open CalendarSync Library

/-- What the adapter uses of JavaScript's `Date`: `parse` is `none` for text that makes an invalid
date. -/
structure Dates where
  toISOString : Instant → String
  parse : String → Option Instant

/-! ## Resources -/

structure GoogleTime where
  date : Option String := none
  dateTime : Option String := none
  timeZone : Option String := none
deriving DecidableEq

structure GoogleAttendee where
  email : Option String := none
  self : Option Bool := none
  optional : Option Bool := none
  responseStatus : Option String := none
  comment : Option String := none
deriving DecidableEq

structure GoogleOrganizer where
  email : Option String := none
  self : Option Bool := none
deriving DecidableEq

/-- `Record<string, string>`. -/
abbrev Properties := List (String × String)

structure GoogleEvent where
  id : Option String := none
  etag : Option String := none
  status : Option String := none
  summary : Option String := none
  description : Option String := none
  location : Option String := none
  hangoutLink : Option String := none
  htmlLink : Option String := none
  transparency : Option String := none
  start : Option GoogleTime := none
  finish : Option GoogleTime := none
  recurringEventId : Option String := none
  originalStartTime : Option GoogleTime := none
  organizer : Option GoogleOrganizer := none
  attendees : Option (List GoogleAttendee) := none
  privateProperties : Option Properties := none
deriving DecidableEq

/-- `event.extendedProperties?.private?.[key]`. -/
def GoogleEvent.marker (event : GoogleEvent) (key : String) : Option String :=
  event.privateProperties.bind fun properties => properties.lookup key

/-- The body of a write. `reminders` is constant. -/
structure GoogleEventWrite where
  id : Option String
  summary : String
  description : Option String
  location : Option String
  start : GoogleTime
  finish : GoogleTime
  transparency : Transparency
  visibility : Visibility
  colorId : Option String := none
  attendees : Option (List GoogleAttendee) := none
  privateProperties : Properties
deriving DecidableEq

/-! ## Planning events -/

inductive PlanningRuleKind | availabilityBoundary | smartMeeting
deriving DecidableEq

def PlanningRuleKind.text : PlanningRuleKind → String
  | .availabilityBoundary => "availability_boundary"
  | .smartMeeting => "smart_meeting"

structure PlanningTiming where
  startInstant : Instant
  endInstant : Instant
  timezone : String
deriving DecidableEq

structure PlanningProvenance where
  kind : PlanningRuleKind
  ruleRef : String
  plannedEventRef : String
  occurrenceKey : String
  generation : Nat
  intentSequence : Nat
deriving DecidableEq

structure PlanningAttendee where
  email : String
  optional : Bool
deriving DecidableEq

structure ManagedPlanningEvent where
  timing : PlanningTiming
  summary : String
  description : Option String := none
  location : Option String := none
  transparency : Transparency
  visibility : Visibility
  attendees : List PlanningAttendee
  provenance : PlanningProvenance
deriving DecidableEq

/-! ## The serializer -/

def serializeGooglePlanningEvent (dates : Dates) (desired : ManagedPlanningEvent)
    (eventId : Option String := none) : GoogleEventWrite where
  id := truthy eventId
  summary := desired.summary
  description := truthy desired.description
  location := truthy desired.location
  start :=
    { dateTime := dates.toISOString desired.timing.startInstant
      timeZone := desired.timing.timezone }
  finish :=
    { dateTime := dates.toISOString desired.timing.endInstant
      timeZone := desired.timing.timezone }
  transparency := desired.transparency
  visibility := desired.visibility
  attendees :=
    if desired.attendees.length > 0 then
      some (desired.attendees.map fun a => { email := a.email, optional := a.optional })
    else none
  privateProperties :=
    [("planipus_version", "1"),
      ("planipus_kind", desired.provenance.kind.text),
      ("planipus_rule", desired.provenance.ruleRef),
      ("planipus_planned_event", desired.provenance.plannedEventRef),
      ("planipus_occurrence", desired.provenance.occurrenceKey),
      ("planipus_generation", toString desired.provenance.generation),
      ("planipus_intent", toString desired.provenance.intentSequence)]

def serializeGoogleDesiredCopy (dates : Dates) (desired : DesiredCopy)
    (eventId : Option String := none) : Except String GoogleEventWrite :=
  if (truthy desired.conference).isSome then .error "unsupported_google_conference_copy"
  else
    let (start, finish) : GoogleTime × GoogleTime :=
      match desired.timing with
      | .timed startInstant endInstant startTzid endTzid =>
        ({ dateTime := dates.toISOString startInstant, timeZone := startTzid },
          { dateTime := dates.toISOString endInstant, timeZone := endTzid })
      | .allDay startDate endDate _ => ({ date := startDate }, { date := endDate })
    .ok
      { id := truthy eventId
        summary := desired.summary
        description := truthy desired.description
        location := truthy desired.location
        start
        finish
        transparency := desired.transparency
        visibility := desired.visibility
        colorId := truthy desired.color
        privateProperties :=
          [("planipus_version", "1"),
            ("planipus_policy", desired.provenance.policyRef),
            ("planipus_projection", desired.provenance.projectionRef),
            ("planipus_generation", toString desired.provenance.generation)] }

/-! ## Reading -/

/-- `Number(text)` of an optional text, where a positive safe integer is asked for. -/
def positiveMarker (event : GoogleEvent) (key : String) : Option Nat :=
  (event.marker key).bind positiveSafeInteger

def managedIdentity (event : GoogleEvent) : Option ManagedIdentity :=
  if event.marker "planipus_version" ≠ some "1" then none
  else
    match truthy (event.marker "planipus_policy"), truthy (event.marker "planipus_projection"),
        positiveMarker event "planipus_generation" with
    | some policyRef, some projectionRef, some generation =>
      some { policyRef, projectionRef, generation }
    | _, _, _ => none

def planningKind? : Option String → Option PlanningRuleKind
  | some "availability_boundary" => some .availabilityBoundary
  | some "smart_meeting" => some .smartMeeting
  | _ => none

def planningIdentity (event : GoogleEvent) : Option PlanningProvenance :=
  if event.marker "planipus_version" ≠ some "1" then none
  else
    match planningKind? (event.marker "planipus_kind"), truthy (event.marker "planipus_rule"),
        truthy (event.marker "planipus_planned_event"), truthy (event.marker "planipus_occurrence"),
        positiveMarker event "planipus_generation", positiveMarker event "planipus_intent" with
    | some kind, some ruleRef, some plannedEventRef, some occurrenceKey, some generation,
        some intentSequence =>
      some { kind, ruleRef, plannedEventRef, occurrenceKey, generation, intentSequence }
    | _, _, _, _, _, _ => none

/-- `new Date(text).toISOString()`, which throws on an invalid date. -/
def readInstant (dates : Dates) (text : String) : Except String Instant :=
  match dates.parse text with
  | some instant => .ok instant
  | none => .error "Invalid time value"

def normalizeTiming (dates : Dates) (event : GoogleEvent) (calendarTimezone : String) :
    Except String (Option EventTiming) :=
  let start := event.start.getD {}
  let finish := event.finish.getD {}
  match truthy start.date, truthy finish.date with
  | some startDate, some endDate =>
    .ok (some (.allDay startDate endDate
      ((start.timeZone.orElse fun _ => finish.timeZone).getD calendarTimezone)))
  | _, _ =>
    match truthy start.dateTime, truthy finish.dateTime with
    | some startTime, some endTime => do
      let startInstant ← readInstant dates startTime
      let endInstant ← readInstant dates endTime
      return some (.timed startInstant endInstant (start.timeZone.getD "UTC")
        ((finish.timeZone.orElse fun _ => start.timeZone).getD "UTC"))
    | _, _ => .ok none

def selfAttendee (event : GoogleEvent) : Option GoogleAttendee :=
  (event.attendees.getD []).find? fun attendee => attendee.self = some true

def normalizeResponse : Option GoogleAttendee → Response
  | none => .notApplicable
  | some attendee =>
    if attendee.responseStatus = some "accepted" then .accepted
    else if attendee.responseStatus = some "tentative" then .tentative
    else if attendee.responseStatus = some "declined" then .declined
    else .needsAction

/-- `none` for a resource without an ID. -/
def normalizeGoogleEvent (dates : Dates) (event : GoogleEvent) (calendarTimezone : String) :
    Except String (Option SourceObservation) :=
  match truthy event.id with
  | none => .ok none
  | some id => do
    let timing ← normalizeTiming dates event calendarTimezone
    let self := selfAttendee event
    return some
      { sourceEventRef := id
        sourceOccurrenceRef := (event.originalStartTime.bind fun original =>
          original.dateTime.orElse fun _ => original.date).getD ""
        remoteRevision := event.etag.getD ""
        lifecycle := if event.status = some "cancelled" then .cancelled else .confirmed
        origin := if (truthy (event.marker "planipus_version")).isSome then .planipusManaged
          else .providerOriginal
        timing
        availability := some (if event.transparency = some "transparent" then .free else .busy)
        relationship :=
          { role :=
              if event.organizer.any fun organizer => organizer.self = some true then .organizer
              else if self.isSome then .attendee
              else .none
            response := normalizeResponse self
            responseNote := truthy (self.bind (·.comment)) }
        destinationIdentityInvited := false
        content :=
          { summary := truthy event.summary
            description := truthy event.description
            location := truthy event.location
            conference := truthy event.hangoutLink }
        attendees := event.attendees.map fun attendees =>
          attendees.filterMap fun attendee => truthy attendee.email
        organizer := truthy (event.organizer.bind (·.email))
        sourceUrl := truthy event.htmlLink
        providerMetadata := some
          [("recurring_event_ref", event.recurringEventId),
            ("planipus_planning_kind", event.marker "planipus_kind"),
            ("planipus_rule_ref", event.marker "planipus_rule"),
            ("planipus_planned_event_ref", event.marker "planipus_planned_event")] }

/-! ## Lookups -/

/-- An answered request: the status and the resource in the body, where there is one. -/
structure HttpReply where
  status : Nat
  body : Option GoogleEvent
deriving DecidableEq

inductive LookupError
  | provider (error : ProviderError)
  | malformedResponse
deriving DecidableEq

/-- The read half of `request`, for an answered request. -/
def request (reply : HttpReply) : Except LookupError GoogleEvent :=
  if reply.status < 200 ∨ 300 ≤ reply.status then .error (.provider (httpError false reply.status))
  else
    match reply.body with
    | none => .error .malformedResponse
    | some event => .ok event

structure ProviderEventLookup where
  remoteEventId : String
  remoteRevision : String
  managedIdentity : Option ManagedIdentity
deriving DecidableEq

/-- `requireWriteResult`, with the identity that `getEvent` adds to it. -/
def lookupResult (event : GoogleEvent) : Except LookupError ProviderEventLookup :=
  match truthy event.id, truthy event.etag with
  | some remoteEventId, some remoteRevision =>
    .ok { remoteEventId, remoteRevision, managedIdentity := managedIdentity event }
  | _, _ => .error .malformedResponse

def getEvent (reply : HttpReply) : Except LookupError (Option ProviderEventLookup) :=
  match request reply with
  | .ok event => (lookupResult event).map some
  | .error (.provider error) =>
    if error.status = some 404 then .ok none else .error (.provider error)
  | .error .malformedResponse => .error .malformedResponse

end Planipus.Provider.Google

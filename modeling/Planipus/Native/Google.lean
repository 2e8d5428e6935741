import Planipus.Native.Domain
import Planipus.Provider.Google

/-!
# The Google adapter of the Mac edition

`macos/Sources/PlanipusGoogle/GoogleCalendarProvider.swift`: the body of a write, the resources that
are read, and what the adapter makes of the status of a reply. The resources are those of
`Provider.Google`, as the provider holds them; `GoogleEvent.decode` is the decoder, which asks for
an ID and for the address of every attendee.
-/

namespace Planipus.Native.Google

open CalendarSync
open Provider.Google (Properties)

/-- `ISO8601DateFormatter`, and `DateFormatter` with `yyyy-MM-dd` in UTC. -/
structure Formatters where
  dateTimeText : Instant → String
  readDateTime : String → Option Instant
  dateText : Instant → String
  readDate : String → Option Instant

/-! ## Times -/

structure GoogleEventTime where
  dateTime : Option String := none
  date : Option String := none
deriving DecidableEq

section Formats

variable (formatters : Formatters)

def GoogleEventTime.of (dateTime date : Option Instant) : GoogleEventTime :=
  match dateTime, date with
  | some dateTime, _ => { dateTime := some (formatters.dateTimeText dateTime) }
  | none, some date => { date := some (formatters.dateText date) }
  | none, none => {}

def GoogleEventTime.instant (time : GoogleEventTime) : Option Instant :=
  match time.dateTime with
  | some dateTime => formatters.readDateTime dateTime
  | none => time.date.bind formatters.readDate

end Formats

/-! ## Writing -/

/-- The body of a write. `reminders` is constant. -/
structure GoogleWriteEvent where
  id : String
  summary : String
  description : Option String
  location : Option String
  start : GoogleEventTime
  finish : GoogleEventTime
  visibility : Visibility
  transparency : Transparency
  privateValues : Properties
deriving DecidableEq

def GoogleWriteEvent.of (formatters : Formatters) (mutation : ProviderMutation) :
    Except ProviderError GoogleWriteEvent :=
  match mutation.desiredCopy with
  | none => .error .malformedResponse
  | some desired =>
    let time (date : Instant) : GoogleEventTime :=
      if desired.isAllDay then .of formatters none (some date) else .of formatters (some date) none
    .ok
      { id := mutation.destinationEventID
        summary := desired.summary
        description := desired.description
        location := desired.location
        start := time desired.start
        finish := time desired.finish
        visibility := desired.visibility
        transparency := desired.transparency
        privateValues :=
          [("planipus_managed", "1"),
            ("planipus_policy", mutation.policyID),
            ("planipus_projection", mutation.destinationEventID)] }

/-! ## Reading -/

structure GoogleAttendee where
  email : String
  responseStatus : Option String
  isSelf : Option Bool
deriving DecidableEq

structure GooglePerson where
  email : Option String
  isSelf : Option Bool
deriving DecidableEq

structure GoogleEvent where
  id : String
  etag : Option String
  status : Option String
  summary : Option String
  description : Option String
  location : Option String
  start : Option GoogleEventTime
  finish : Option GoogleEventTime
  transparency : Option String
  recurringEventId : Option String
  originalStartTime : Option GoogleEventTime
  privateValues : Option Properties
  attendees : Option (List GoogleAttendee)
  organizer : Option GooglePerson
  hangoutLink : Option String
deriving DecidableEq

def GoogleEventTime.decode (time : Provider.Google.GoogleTime) : GoogleEventTime :=
  ⟨time.dateTime, time.date⟩

def GoogleAttendee.decode (attendee : Provider.Google.GoogleAttendee) : Option GoogleAttendee :=
  attendee.email.map fun email => ⟨email, attendee.responseStatus, attendee.self⟩

def GoogleEvent.decode (event : Provider.Google.GoogleEvent) : Option GoogleEvent := do
  let id ← event.id
  let attendees ← match event.attendees with
    | none => some none
    | some attendees => (attendees.mapM GoogleAttendee.decode).map some
  return {
    id
    etag := event.etag
    status := event.status
    summary := event.summary
    description := event.description
    location := event.location
    start := event.start.map .decode
    finish := event.finish.map .decode
    transparency := event.transparency
    recurringEventId := event.recurringEventId
    originalStartTime := event.originalStartTime.map .decode
    privateValues := event.privateProperties
    attendees
    organizer := event.organizer.map fun person => ⟨person.email, person.self⟩
    hangoutLink := event.hangoutLink }

/-- `Date.distantPast`. -/
def distantPast : Instant := -62135769600000

section Read

variable (env : Platform) (formatters : Formatters)

def rsvpStatus (sourceAttendee : Option GoogleAttendee) (sourceIsOrganizer : Bool) : RSVPStatus :=
  match sourceAttendee with
  | some attendee =>
    match attendee.responseStatus with
    | some "accepted" => .accepted
    | some "tentative" => .tentative
    | some "declined" => .declined
    | some "needsAction" => .needsAction
    | _ => .notApplicable
  | none => if sourceIsOrganizer then .organizer else .notApplicable

/-- `privateValues?[key]`. -/
def GoogleEvent.privateValue (event : GoogleEvent) (key : String) : Option String :=
  event.privateValues.bind fun values => values.lookup key

def GoogleEvent.sourceEvent (event : GoogleEvent) (calendarID : String)
    (sourceIdentityEmail : Option String) : SourceEvent :=
  let isIdentity (email : String) : Bool := sourceIdentityEmail.any fun identity =>
    Policy.sameText env (env.toLowerCase email) (env.toLowerCase identity)
  let sourceAttendee := (event.attendees.getD []).find? fun attendee =>
    attendee.isSelf = some true || isIdentity attendee.email
  let sourceIsOrganizer := event.organizer.any fun organizer =>
    organizer.isSelf = some true || organizer.email.any isIdentity
  { id := event.id
    calendarID
    occurrenceID :=
      (event.originalStartTime.bind (·.dateTime)).orElse fun _ =>
        (event.originalStartTime.bind (·.date)).orElse fun _ => event.recurringEventId
    start := (event.start.bind (·.instant formatters)).getD distantPast
    finish := (event.finish.bind (·.instant formatters)).getD distantPast
    isAllDay := (event.start.bind (·.date)).isSome
    isFree := event.transparency.any (Policy.sameText env "transparent")
    title := event.summary.getD ""
    details := event.description
    location := event.location
    conferenceURL := event.hangoutLink
    rsvpStatus := rsvpStatus sourceAttendee sourceIsOrganizer
    attendeeEmails := (event.attendees.getD []).map (·.email)
    isManagedCopy := (event.privateValue "planipus_managed").any (Policy.sameText env "1")
    managedPolicyID := event.privateValue "planipus_policy"
    managedProjectionID := event.privateValue "planipus_projection"
    isDeleted := event.status.any (Policy.sameText env "cancelled")
    providerRevision := event.etag }

end Read

/-! ## Replies -/

/-- The status of a reply that is not one of success. -/
def validate (statusCode : Nat) : Except ProviderError Unit :=
  if 200 ≤ statusCode ∧ statusCode < 300 then .ok ()
  else if statusCode = 401 then .error .unauthorized
  else if statusCode = 403 then .error .forbidden
  else if statusCode = 404 then .error .notFound
  else if statusCode = 409 ∨ statusCode = 412 then .error .conflict
  else if statusCode = 410 then .error .cursorExpired
  else if statusCode = 429 then .error .quotaLimited
  else if 500 ≤ statusCode ∧ statusCode < 600 then .error .transient
  else .error .malformedResponse

/-- A reply to a lookup, with the resource that its body holds. -/
structure HTTPResponse where
  statusCode : Nat
  body : Option Provider.Google.GoogleEvent
deriving DecidableEq

/-- A body that does not decode is an error of the decoder, which the coordinator treats like
`malformedResponse`. -/
def readEvent (env : Platform) (formatters : Formatters) (identityEmail : Option String)
    (endpoint : CalendarEndpoint) (response : HTTPResponse) :
    Except ProviderError (Option SourceEvent) := do
  if response.statusCode = 404 then return none
  validate response.statusCode
  match response.body.bind GoogleEvent.decode with
  | none => .error .malformedResponse
  | some event =>
    return some (event.sourceEvent env formatters endpoint.calendarID identityEmail)

end Planipus.Native.Google

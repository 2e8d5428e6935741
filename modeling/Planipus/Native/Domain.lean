import Planipus.CalendarSync.LocalTime
import Planipus.Native.Policy

/-!
# The domain of the Mac edition

`macos/Sources/PlanipusCore/CalendarSyncDomain.swift` and `ProviderContracts.swift`, and the adapter
`PolicyEvaluator.swift` that puts an event and a policy of this domain before the evaluator of the
contract. Where an enumeration has the raw values of the contract, it is the one of the contract. A
`Date` is an instant; the texts that the adapter makes of one have whole seconds.
-/

namespace Planipus.Native

open CalendarSync

/-! ## Calendars and events -/

structure CalendarEndpoint where
  accountID : String
  calendarID : String
deriving DecidableEq

inductive RSVPStatus | notApplicable | accepted | tentative | declined | needsAction | organizer
deriving DecidableEq

structure SourceEvent where
  id : String
  calendarID : String
  occurrenceID : Option String := none
  start : Instant
  finish : Instant
  isAllDay : Bool := false
  isFree : Bool := false
  title : String
  details : Option String := none
  location : Option String := none
  conferenceURL : Option String := none
  rsvpStatus : RSVPStatus := .notApplicable
  responseNote : Option String := none
  attendeeEmails : List String := []
  destinationIdentityEmail : Option String := none
  isManagedCopy : Bool := false
  managedPolicyID : Option String := none
  managedProjectionID : Option String := none
  isDeleted : Bool := false
  providerRevision : Option String := none
deriving DecidableEq

/-- `remindersEnabled` is false throughout. -/
structure DesiredCopy where
  summary : String
  start : Instant
  finish : Instant
  isAllDay : Bool
  description : Option String
  location : Option String
  conferenceURL : Option String
  visibility : Visibility
  transparency : Transparency
  disclosure : List String
deriving DecidableEq

/-! ## Policies -/

structure WeeklyInterval where
  weekday : Nat
  startMinute : Nat
  endMinute : Nat
deriving DecidableEq

structure HoursProfile where
  id : String
  timezoneIdentifier : String
  intervals : List WeeklyInterval
deriving DecidableEq

structure PrivacyFields where
  title : Bool := false
  description : Bool := false
  location : Bool := false
  conference : Bool := false
deriving DecidableEq

inductive NeedsActionBehavior | includeFree | includeBusy | omit
deriving DecidableEq

structure SyncPolicy where
  id : String
  revision : Nat
  sourceEndpoint : CalendarEndpoint
  destinationEndpoint : CalendarEndpoint
  destinationIdentityEmail : Option String := none
  enabled : Bool := true
  timedEventsEnabled : Bool := true
  hoursMode : HoursMode
  hoursProfile : HoursProfile
  privacyPreset : PrivacyPreset
  privacyFields : PrivacyFields := {}
  genericLabel : String := "Personal commitment"
  allDayBehavior : AllDaySelection
  freeEventBehavior : FreeEvents
  needsActionBehavior : NeedsActionBehavior
  tentativeBehavior : ResponseSelection
  noSyncTokenEnabled : Bool := true
  sourceExclusionMarker : String := "#nosync"
  /-- A set; the evaluator asks only what is in it. -/
  manualExcludedSourceEventIDs : List String := []
  skipWhenDestinationInvited : Bool := true
  destinationEdits : Option DestinationEditPolicy := none
  horizonStart : Option Instant := none
  horizonEnd : Option Instant := none
deriving DecidableEq

def SyncPolicy.effectiveDestinationEdits (policy : SyncPolicy) : DestinationEditPolicy :=
  policy.destinationEdits.getD ⟨.restoreAndNotify, .restoreAndNotify⟩

inductive PolicyAction | copy | omit | delete
deriving DecidableEq

structure PolicyDecision where
  action : PolicyAction
  reasonCodes : List ReasonCode
  desiredCopy : Option DesiredCopy := none
deriving DecidableEq

/-! ## Mutations -/

inductive ProviderMutationOperation | create | update | delete
deriving DecidableEq

/-- The parts that the coordinator joins into the key of an intent. -/
structure IdempotencyKey where
  operation : ProviderMutationOperation
  destinationEndpoint : CalendarEndpoint
  destinationEventID : String
  policyRevision : Nat
  sourceRevision : String
  fingerprint : Digest DesiredCopy
deriving DecidableEq

structure ProviderMutation where
  idempotencyKey : IdempotencyKey
  operation : ProviderMutationOperation
  policyID : String
  sourceEventID : String
  sourceOccurrenceID : Option String
  destinationEndpoint : CalendarEndpoint
  destinationEventID : String
  expectedProviderRevision : Option String
  desiredCopy : Option DesiredCopy
deriving DecidableEq

/-- `pageLimitExceeded` and `unsupportedProvider` are thrown elsewhere. -/
inductive ProviderError
  | unauthorized
  | forbidden
  | quotaLimited
  | cursorExpired
  | conflict
  | notFound
  | malformedResponse
  | transient
  | ownershipMismatch
  | offline
  | ambiguous
deriving DecidableEq

/-! ## The input of the evaluator -/

/-- What an ISO 8601 text without fractions says. -/
def instantString (date : Instant) : Instant := date / 1000 * 1000

/-- `"%02d:%02d:00"`. -/
def localTime (minute : Nat) : String :=
  padded 2 (minute / 60) ++ ":" ++ padded 2 (minute % 60) ++ ":00"

def canonicalHoursProfile (profile : HoursProfile) : CalendarSync.HoursProfile where
  profileRef := profile.id
  revision := 1
  timezone := profile.timezoneIdentifier
  ambiguous := .earlierOffset
  nonexistent := .shiftForwardByGap
  weekly := profile.intervals.map fun interval =>
    { weekday := interval.weekday
      start := localTime interval.startMinute
      finish := localTime (interval.endMinute % 1440)
      endDayOffset :=
        if interval.endMinute = 1440 ∨ interval.endMinute ≤ interval.startMinute then 1 else 0 }
  exceptions := []

def canonicalRelationship (status : RSVPStatus) (responseNote : Option String) : Relationship :=
  match status with
  | .organizer => ⟨.organizer, .notApplicable, responseNote⟩
  | .notApplicable => ⟨.none, .notApplicable, responseNote⟩
  | .accepted => ⟨.attendee, .accepted, responseNote⟩
  | .tentative => ⟨.attendee, .tentative, responseNote⟩
  | .declined => ⟨.attendee, .declined, responseNote⟩
  | .needsAction => ⟨.attendee, .needsAction, responseNote⟩

/-- The provider, and both parts with their lengths. -/
def endpointReference (endpoint : CalendarEndpoint) : String :=
  "google:" ++ toString endpoint.accountID.utf8ByteSize ++ ":" ++ endpoint.accountID ++ ":" ++
    toString endpoint.calendarID.utf8ByteSize ++ ":" ++ endpoint.calendarID

def canonicalUnanswered : NeedsActionBehavior → ResponseSelection
  | .includeFree => .free
  | .includeBusy => .busy
  | .omit => .omit

section Evaluator

-- `localDateString` is a `DateFormatter` with `yyyy-MM-dd` in UTC.
variable (env : Platform) (localDateString : Instant → String)

def canonicalTiming (event : SourceEvent) : EventTiming :=
  if event.isAllDay then
    .allDay (localDateString event.start) (localDateString event.finish) "UTC"
  else .timed (instantString event.start) (instantString event.finish) "UTC" "UTC"

def destinationIdentityInvited (event : SourceEvent) (policy : SyncPolicy) : Bool :=
  match policy.destinationIdentityEmail.orElse fun _ => event.destinationIdentityEmail with
  | none => false
  | some destination => event.attendeeEmails.any fun email =>
      Policy.sameText env (env.toLowerCase email) (env.toLowerCase destination)

def canonicalSource (event : SourceEvent) (policy : SyncPolicy) : SourceObservation where
  sourceEventRef := event.id
  sourceOccurrenceRef := event.occurrenceID.getD event.id
  remoteRevision := event.providerRevision.getD ""
  lifecycle := if event.isDeleted then .deleted else .confirmed
  origin := if event.isManagedCopy then .planipusManaged else .providerOriginal
  timing := if event.isDeleted then none else some (canonicalTiming localDateString event)
  availability := some (if event.isFree then .free else .busy)
  relationship := canonicalRelationship event.rsvpStatus event.responseNote
  destinationIdentityInvited := destinationIdentityInvited env event policy
  content :=
    { summary := some event.title
      description := event.details
      location := event.location
      conference := event.conferenceURL }
  attendees := some event.attendeeEmails

def canonicalPolicy (policy : SyncPolicy) : CalendarSync.SyncPolicy where
  policyRef := policy.id
  revision := policy.revision
  state := if policy.enabled then .active else .disabled
  sourceCalendarRef := endpointReference policy.sourceEndpoint
  destinationCalendarRef := endpointReference policy.destinationEndpoint
  hours := ⟨policy.hoursMode, some policy.hoursProfile.id⟩
  privacy :=
    { preset := policy.privacyPreset
      genericSummary := if policy.privacyPreset = .busyOnly then "Busy" else policy.genericLabel
      copySummary := policy.privacyFields.title
      copyDescription := policy.privacyFields.description
      copyLocation := policy.privacyFields.location
      copyConference := policy.privacyFields.conference
      copyAttendees := false
      copyOrganizer := false }
  selection :=
    { timed := if policy.timedEventsEnabled then .include else .skip
      allDay := policy.allDayBehavior
      freeEvents := policy.freeEventBehavior
      tentative := policy.tentativeBehavior
      unanswered := canonicalUnanswered policy.needsActionBehavior
      skipWhenDestinationIdentityInvited := policy.skipWhenDestinationInvited
      sourceExclusionMarker := if policy.noSyncTokenEnabled then policy.sourceExclusionMarker else ""
      manualExclusions := policy.manualExcludedSourceEventIDs }
  -- Not part of the input: the evaluator does not read it.
  destinationEdits := policy.effectiveDestinationEdits

def canonicalInput (event : SourceEvent) (policy : SyncPolicy) (hasExistingProjection : Bool) :
    PolicyEvaluationInput :=
  let projectionRef := policy.id ++ "/" ++ event.id ++ "/" ++ event.occurrenceID.getD "root"
  { now := instantString event.start
    horizon :=
      ⟨instantString (policy.horizonStart.getD (event.start - 86400000)),
        instantString (policy.horizonEnd.getD (event.finish + 86400000))⟩
    candidateProjectionRef := projectionRef
    policy := canonicalPolicy policy
    hoursProfile := some (canonicalHoursProfile policy.hoursProfile)
    source := canonicalSource env localDateString event policy
    projection :=
      { ownership := if hasExistingProjection then .attached else .none
        projectionRef := some projectionRef
        generation := some 1
        destinationExists := some hasExistingProjection }
    destinationCapabilities := ⟨true, true, true, true⟩ }

/-! ## The decision -/

def decision (output : PolicyEvaluationResult) (event : SourceEvent) : PolicyDecision :=
  if output.operation = .delete then { action := .delete, reasonCodes := output.reasonCodes }
  else
    match output.selection, output.desiredCopy with
    | .included, some desired =>
      { action := .copy
        reasonCodes := output.reasonCodes
        desiredCopy := some
          { summary := desired.summary
            start := event.start
            finish := event.finish
            isAllDay := event.isAllDay
            description := desired.description
            location := desired.location
            conferenceURL := desired.conference
            visibility := desired.visibility
            transparency := desired.transparency
            disclosure :=
              (output.disclosureManifest.map (·.sourceFieldsDisclosed)).getD [] } }
    | _, _ => { action := .omit, reasonCodes := output.reasonCodes }

/-- `PolicyEvaluator.evaluate`. -/
def evaluate (services : Policy.Services) (event : SourceEvent) (policy : SyncPolicy)
    (hasExistingProjection : Bool) : PolicyDecision :=
  decision
    (Policy.evaluate env services (canonicalInput env localDateString event policy
      hasExistingProjection)) event

end Evaluator

end Planipus.Native

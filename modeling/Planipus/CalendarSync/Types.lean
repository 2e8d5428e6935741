import Mathlib.Tactic.Common

/-!
# Values of the calendar-sync contract

The records that the policy evaluator, the reconciler and the outbox exchange
(`packages/calendar-sync/src/types.ts`). Instants are epoch milliseconds: every instant text that
the provider adapters produce is `toISOString()`, which is exact in milliseconds. Optional members
are `Option`. Text is taken up to NFC, the normal form under which canonical JSON compares it.
-/

namespace Planipus.CalendarSync

/-- Epoch milliseconds. -/
abbrev Instant := Int

structure InstantInterval where
  start : Instant
  finish : Instant
deriving DecidableEq

/-! ## Hours profiles -/

/-- A wall-clock interval; `endDayOffset` is 0 or 1. -/
structure LocalInterval where
  start : String
  finish : String
  endDayOffset : Nat
deriving DecidableEq

structure WeeklyInterval extends LocalInterval where
  weekday : Nat
deriving DecidableEq

inductive HoursException
  | closed (date : String)
  | replace (date : String) (intervals : List LocalInterval)
  | add (date : String) (intervals : List LocalInterval)
  | remove (date : String) (intervals : List LocalInterval)
deriving DecidableEq

inductive AmbiguousResolution | earlierOffset | laterOffset
deriving DecidableEq

inductive NonexistentResolution | reject | shiftForwardByGap
deriving DecidableEq

structure HoursProfile where
  profileRef : String
  revision : Nat
  timezone : String
  ambiguous : AmbiguousResolution
  nonexistent : NonexistentResolution
  weekly : List WeeklyInterval
  exceptions : List HoursException
deriving DecidableEq

inductive HoursMode | allTimes | overlapsProfile | containedInProfile
deriving DecidableEq

/-! ## Reason codes -/

inductive ReasonCode
  | policyDisabled | policyPaused | policyReviewRequired
  | invalidSameCalendar | invalidUnwritableDestination | invalidHoursProfile | invalidSourceEvent
  | invalidPrivacyTransform | unsupportedDestinationCapability
  | outsideHorizon | sourceDeleted | sourceCancelled | managedCopy | manualExclusion | nosync
  | alreadyInvited | timedEventDisabled | timedEventIncluded
  | allDay | allDayFree | allDayBusyIncluded | allDayIncluded
  | free | freePreserved | freeForcedBusy
  | rsvpDeclined | rsvpAccepted | rsvpTentativeBusy | rsvpTentativeFree
  | rsvpUnansweredBusy | rsvpUnansweredFree | organizerAssumedAccepted
  | rsvpUnansweredOmitted | rsvpTentativeOmitted
  | allTimes | overlapsHours | containedInHours | outsideHours | notContainedInHours
  | dstAmbiguousEarlier | dstAmbiguousLater | dstNonexistentShifted | dstResolutionRejected
  | privacyBusyOnly | privacyCommitment | privacyPrivateDetails | privacySharedDetails
  | createMissingCopy | updateSourceChange | restoreDestinationMissing | restoreDestinationDrift
  | deleteSourceRemoved | deletePolicyExclusion | noChange | detachedNoAction | ambiguousOwnership
deriving DecidableEq

structure HoursEvaluationInput where
  mode : HoursMode
  event : InstantInterval
  profile : Option HoursProfile
deriving DecidableEq

structure HoursEvaluationResult where
  included : Bool
  reasonCode : ReasonCode
  concreteIntervals : List InstantInterval
  matchedIntervals : List InstantInterval
  diagnostics : List ReasonCode
deriving DecidableEq

/-! ## Source events -/

inductive EventTiming
  | timed (startInstant endInstant : Instant) (startTzid endTzid : String)
  | allDay (startDate endDate : String) (timezone : String)
deriving DecidableEq

inductive Lifecycle | confirmed | cancelled | deleted
deriving DecidableEq

inductive Origin | providerOriginal | planipusManaged
deriving DecidableEq

inductive Availability | busy | free
deriving DecidableEq

inductive Role | organizer | attendee | none
deriving DecidableEq

inductive Response | accepted | tentative | declined | needsAction | notApplicable
deriving DecidableEq

structure Relationship where
  role : Role
  response : Response
  responseNote : Option String := none
deriving DecidableEq

structure EventContent where
  summary : Option String := none
  description : Option String := none
  location : Option String := none
  conference : Option String := none
deriving DecidableEq

/-- A materialized occurrence of a series. -/
structure Recurrence where
  seriesRef : String
  originalStart : String
deriving DecidableEq

structure SourceObservation where
  sourceEventRef : String
  sourceOccurrenceRef : String
  remoteRevision : String
  lifecycle : Lifecycle
  origin : Origin
  timing : Option EventTiming
  recurrence : Option Recurrence := none
  availability : Option Availability
  relationship : Relationship
  destinationIdentityInvited : Bool
  content : EventContent
  attendees : Option (List String) := none
  organizer : Option String := none
  attachments : Option (List String) := none
  sourceUrl : Option String := none
  providerMetadata : Option (List (String × Option String)) := none
deriving DecidableEq

/-! ## Policies -/

inductive PrivacyPreset | busyOnly | commitment | privateDetails | sharedDetails
deriving DecidableEq

structure PrivacyPolicy where
  preset : PrivacyPreset
  genericSummary : String
  copySummary : Bool
  copyDescription : Bool
  copyLocation : Bool
  copyConference : Bool
  copyAttendees : Bool
  copyOrganizer : Bool
deriving DecidableEq

inductive TimedSelection | include | skip
deriving DecidableEq

inductive AllDaySelection | skip | busyOnly | all
deriving DecidableEq

inductive FreeEvents | skipWhenRedacted | preserveFree | forceBusy
deriving DecidableEq

inductive ResponseSelection | busy | free | omit
deriving DecidableEq

structure SelectionPolicy where
  timed : TimedSelection
  allDay : AllDaySelection
  freeEvents : FreeEvents
  tentative : ResponseSelection
  unanswered : ResponseSelection
  skipWhenDestinationIdentityInvited : Bool
  sourceExclusionMarker : String
  manualExclusions : List String
deriving DecidableEq

inductive PolicyState | active | paused | disabled | reviewRequired
deriving DecidableEq

structure PolicyHours where
  mode : HoursMode
  profileRef : Option String := none
deriving DecidableEq

inductive DestinationEditMode | restore | restoreAndNotify | holdForReview
deriving DecidableEq

structure DestinationEditPolicy where
  onEdit : DestinationEditMode
  onDelete : DestinationEditMode
deriving DecidableEq

structure SyncPolicy where
  policyRef : String
  revision : Nat
  state : PolicyState
  sourceCalendarRef : String
  destinationCalendarRef : String
  hours : PolicyHours
  privacy : PrivacyPolicy
  selection : SelectionPolicy
  color : Option String := none
  destinationEdits : DestinationEditPolicy
deriving DecidableEq

structure DestinationCapabilities where
  writable : Bool
  privateVisibility : Bool
  conferenceCopy : Bool
  color : Bool
deriving DecidableEq

/-! ## Desired copies -/

inductive Transparency | opaque_ | transparent
deriving DecidableEq

inductive Visibility | private_ | default_
deriving DecidableEq

structure Provenance where
  policyRef : String
  projectionRef : String
  generation : Nat
deriving DecidableEq

/-- What the destination should hold. `reminders` and `write_controls` are constants of the type in
the source and are left out. -/
structure DesiredCopy where
  timing : EventTiming
  summary : String
  description : Option String := none
  location : Option String := none
  conference : Option String := none
  transparency : Transparency
  visibility : Visibility
  color : Option String := none
  provenance : Provenance
deriving DecidableEq

/-- The copy under another generation, everything else unchanged. -/
def DesiredCopy.withGeneration (d : DesiredCopy) (generation : Nat) : DesiredCopy :=
  { d with provenance := { d.provenance with generation } }

/-! ## Hashes -/

/-- The SHA-256 of a value's canonical JSON, kept as the value: hashes are compared only for
equality, and SHA-256 is taken as free of collisions. -/
structure Digest (α : Type) where
  preimage : α
deriving DecidableEq

def sha256Canonical {α : Type} (value : α) : Digest α := ⟨value⟩

@[simp] theorem sha256Canonical_inj {α : Type} {a b : α} :
    sha256Canonical a = sha256Canonical b ↔ a = b := by
  simp [sha256Canonical]

/-! ## Evaluation -/

inductive ProjectionOwnership | none | attached | detached | ambiguous
deriving DecidableEq

structure ProjectionInput where
  ownership : ProjectionOwnership
  projectionRef : Option String := none
  generation : Option Nat := none
  destinationEventRef : Option String := none
  destinationExists : Option Bool := none
  desiredFingerprint : Option (Digest DesiredCopy) := none
  observedCopy : Option DesiredCopy := none
deriving DecidableEq

structure PolicyEvaluationInput where
  now : Instant
  horizon : InstantInterval
  candidateProjectionRef : String
  policy : SyncPolicy
  hoursProfile : Option HoursProfile
  source : SourceObservation
  projection : ProjectionInput
  destinationCapabilities : DestinationCapabilities
deriving DecidableEq

inductive EvaluationSelection | included | excluded | held | invalid
deriving DecidableEq

inductive EvaluationOperation | create | update | delete | none
deriving DecidableEq

structure DisclosureManifest where
  preset : PrivacyPreset
  sourceFieldsRead : List String
  sourceFieldsDisclosed : List String
  destinationFieldsWritten : List String
  sourceFieldsOmitted : List String
deriving DecidableEq

structure PolicyEvaluationResult where
  selection : EvaluationSelection
  operation : EvaluationOperation
  primaryReasonCode : ReasonCode
  reasonCodes : List ReasonCode
  warnings : List ReasonCode
  desiredCopy : Option DesiredCopy := none
  desiredFingerprint : Option (Digest DesiredCopy) := none
  disclosureManifest : Option DisclosureManifest := none
deriving DecidableEq

end Planipus.CalendarSync

import Planipus.Native.Google

/-!
# The coordinator of the Mac edition

`reconcile` of `macos/Sources/PlanipusSync/SyncCoordinator.swift` and what it calls: one source event
against one policy. It reads the stored projection, asks the provider for the copy where there is
one, and writes to the repository; its result is the list of these writes, in their order, or the
error that ends the pass. Times of writing and the IDs of notices are left out.
-/

namespace Planipus.Native

open CalendarSync

/-! ## The repository -/

structure ProjectionKey where
  policyID : String
  sourceEventID : String
  sourceOccurrenceID : Option String
deriving DecidableEq

inductive DestinationEditHold | edit | delete
deriving DecidableEq

structure StoredProjection where
  key : ProjectionKey
  destinationEndpoint : CalendarEndpoint
  destinationEventID : String
  desiredFingerprint : Digest DesiredCopy
  providerRevision : Option String := none
  hold : Option DestinationEditHold := none
  detached : Bool := false
deriving DecidableEq

inductive SyncNoticeKind | copyEditReverted | copyDeleteRestored | copyEditHeld | copyDeleteHeld
deriving DecidableEq

structure SyncNotice where
  projectionKey : ProjectionKey
  kind : SyncNoticeKind
  copySummary : String
  copyStart : Instant
  copyEnd : Instant
  copyIsAllDay : Bool
deriving DecidableEq

inductive RepositoryWrite
  | saveProjection (projection : StoredProjection)
  | deleteProjection (key : ProjectionKey)
  | recordNotice (notice : SyncNotice)
  | enqueue (projectionKey : ProjectionKey) (mutation : ProviderMutation)
deriving DecidableEq

/-! ## The writes -/

/-- The copy is encoded with times of whole seconds. -/
def fingerprint (desired : DesiredCopy) : Digest DesiredCopy :=
  sha256Canonical
    { desired with
      start := instantString desired.start
      finish := instantString desired.finish }

def recordNotice (kind : SyncNoticeKind) (key : ProjectionKey) (desired : DesiredCopy) :
    RepositoryWrite :=
  .recordNotice
    { projectionKey := key
      kind
      copySummary := desired.summary
      copyStart := desired.start
      copyEnd := desired.finish
      copyIsAllDay := desired.isAllDay }

def holdForDecision (projection : StoredProjection) (hold : DestinationEditHold)
    (noticeKind : SyncNoticeKind) (desired : DesiredCopy) : List RepositoryWrite :=
  [.saveProjection { projection with hold := some hold },
    recordNotice noticeKind projection.key desired]

def enqueue (operation : ProviderMutationOperation) (sourceRevision : Option String)
    (policy : SyncPolicy) (key : ProjectionKey) (destinationEndpoint : CalendarEndpoint)
    (destinationEventID : String) (expectedProviderRevision : Option String)
    (desiredCopy : Option DesiredCopy) (fingerprint : Digest DesiredCopy) : RepositoryWrite :=
  .enqueue key
    { idempotencyKey :=
        { operation
          destinationEndpoint
          destinationEventID
          policyRevision := policy.revision
          sourceRevision := sourceRevision.getD "unversioned"
          fingerprint }
      operation
      policyID := policy.id
      sourceEventID := key.sourceEventID
      sourceOccurrenceID := key.sourceOccurrenceID
      destinationEndpoint
      destinationEventID
      expectedProviderRevision
      desiredCopy }

/-! ## Reconciliation -/

/-- What the coordinator is built with. -/
structure Runtime where
  env : Platform
  formatters : Google.Formatters
  services : Policy.Services
  /-- `GoogleEventID.deterministic` of this installation. -/
  eventID : (policyID sourceCalendarID sourceEventID : String) → Option String → String
  /-- `identityEmail` of the account. -/
  identityEmail : CalendarEndpoint → Option String

section Reconcile

variable (runtime : Runtime)

def isOwned (event : SourceEvent) (policyID projectionID : String) : Bool :=
  event.isManagedCopy && event.managedPolicyID.any (Policy.sameText runtime.env policyID) &&
    event.managedProjectionID.any (Policy.sameText runtime.env projectionID)

/-- The lookup of the copy; `reply` is what the provider answers. -/
def verifiedDestination (projection : StoredProjection) (policyID : String)
    (reply : Google.HTTPResponse) : Except ProviderError (Option SourceEvent) :=
  match Google.readEvent runtime.env runtime.formatters
      (runtime.identityEmail projection.destinationEndpoint) projection.destinationEndpoint
      reply with
  | .error error => .error error
  | .ok none => .ok none
  | .ok (some observed) =>
    if isOwned runtime observed policyID projection.destinationEventID then .ok (some observed)
    else .error .ownershipMismatch

def enqueueOwnedDeletion (event : SourceEvent) (policy : SyncPolicy) (key : ProjectionKey)
    (projection : StoredProjection) (reply : Google.HTTPResponse) :
    Except ProviderError (List RepositoryWrite) := do
  match ← verifiedDestination runtime projection policy.id reply with
  | none => return [.deleteProjection key]
  | some observed =>
    return [enqueue .delete event.providerRevision policy key projection.destinationEndpoint
      projection.destinationEventID observed.providerRevision none projection.desiredFingerprint]

/-- `!=` on endpoints. -/
def otherEndpoint (left right : CalendarEndpoint) : Bool :=
  !(Policy.sameText runtime.env left.accountID right.accountID &&
    Policy.sameText runtime.env left.calendarID right.calendarID)

/-- `!=` on optional revisions. -/
def otherRevision (recorded observed : Option String) : Bool :=
  match recorded, observed with
  | some recorded, some observed => !Policy.sameText runtime.env recorded observed
  | none, none => false
  | _, _ => true

/-- The writes before the intent and its operation and expected revision, or only the writes where
nothing is enqueued. -/
inductive CopyPlan
  | stop (writes : List RepositoryWrite)
  | write (writes : List RepositoryWrite) (operation : ProviderMutationOperation)
      (expectedRevision : Option String)
deriving DecidableEq

/-- The copy is gone from the destination. -/
def planMissing (policy : SyncPolicy) (key : ProjectionKey) (projection : StoredProjection)
    (desired : DesiredCopy) : CopyPlan :=
  match policy.effectiveDestinationEdits.onDelete with
  | .holdForReview => .stop (holdForDecision projection .delete .copyDeleteHeld desired)
  | .restoreAndNotify => .write [recordNotice .copyDeleteRestored key desired] .create none
  | .restore => .write [] .create none

/-- The copy is there, as `observed`. -/
def planObserved (policy : SyncPolicy) (key : ProjectionKey) (projection : StoredProjection)
    (desired : DesiredCopy) (observed : SourceEvent) : CopyPlan :=
  let editedDirectly := projection.providerRevision.isSome &&
    otherRevision runtime projection.providerRevision observed.providerRevision
  if editedDirectly then
    match policy.effectiveDestinationEdits.onEdit with
    | .holdForReview => .stop (holdForDecision projection .edit .copyEditHeld desired)
    | .restoreAndNotify =>
      .write [recordNotice .copyEditReverted key desired] .update observed.providerRevision
    | .restore => .write [] .update observed.providerRevision
  else if projection.desiredFingerprint = fingerprint desired then .stop []
  else .write [] .update observed.providerRevision

/-- The branch of `reconcile` for a copy. -/
def reconcileCopy (event : SourceEvent) (policy : SyncPolicy) (key : ProjectionKey)
    (projection : Option StoredProjection) (desired : DesiredCopy) (reply : Google.HTTPResponse) :
    Except ProviderError (List RepositoryWrite) := do
  let plan : CopyPlan ← match projection with
    | none => .ok (.write [] .create none)
    | some projection => do
      match ← verifiedDestination runtime projection policy.id reply with
      | some observed => .ok (planObserved runtime policy key projection desired observed)
      | none => .ok (planMissing policy key projection desired)
  match plan with
  | .stop writes => return writes
  | .write writes operation expectedRevision =>
    let destinationID := match projection with
      | some projection => projection.destinationEventID
      | none => runtime.eventID policy.id policy.sourceEndpoint.calendarID event.id event.occurrenceID
    return writes ++ [enqueue operation event.providerRevision policy key policy.destinationEndpoint
      destinationID expectedRevision (some desired) (fingerprint desired)]

def reconcile (event : SourceEvent) (policy : SyncPolicy) (stored : Option StoredProjection)
    (reply : Google.HTTPResponse) : Except ProviderError (List RepositoryWrite) :=
  let key : ProjectionKey := ⟨policy.id, event.id, event.occurrenceID⟩
  if stored.any fun projection => projection.detached || projection.hold.isSome then .ok []
  else
    match stored.filter fun projection =>
        otherEndpoint runtime projection.destinationEndpoint policy.destinationEndpoint with
    | some projection => enqueueOwnedDeletion runtime event policy key projection reply
    | none =>
      let decision := evaluate runtime.env runtime.formatters.dateText runtime.services event policy
        stored.isSome
      match decision.action with
      | .omit => .ok []
      | .copy =>
        match decision.desiredCopy with
        | none => .ok []
        | some desired => reconcileCopy runtime event policy key stored desired reply
      | .delete =>
        match stored with
        | none => .ok []
        | some projection => enqueueOwnedDeletion runtime event policy key projection reply

end Reconcile

end Planipus.Native

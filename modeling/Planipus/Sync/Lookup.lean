import Planipus.Provider.Google
import Planipus.Sync.Verification

/-!
# Verification, reply by reply

What the verifier (`server/src/sync/verification.ts`) makes of the replies that the provider gives
to the lookup of a copy. `Sync.Verification` classifies the events of a `Calendar`, where revisions
are numbers and a deleted event is not found; `classifyLookup_remote` says that the classification
here is that one on what the adapter reads of such an event.
-/

namespace Planipus.Sync

open CalendarSync Provider
open Provider.Google (HttpReply ProviderEventLookup)

/-- What a classification reads of a target. -/
structure LookupTarget where
  policyId : String
  projectionId : String
  generation : Nat
  destinationRevision : Option String
deriving DecidableEq

inductive LookupDecision
  | current (observedRevision : String)
  | missing
  | drifted (observedRevision : String)
  | ownershipMismatch (observedRevision : String)
deriving DecidableEq

/-- `classifyDestinationVerification`. -/
def classifyLookup (target : LookupTarget) (observed : Option ProviderEventLookup) :
    LookupDecision :=
  match observed with
  | none => .missing
  | some event =>
    if event.managedIdentity ≠ some ⟨target.policyId, target.projectionId, target.generation⟩ then
      .ownershipMismatch event.remoteRevision
    else if some event.remoteRevision = target.destinationRevision then .current event.remoteRevision
    else .drifted event.remoteRevision

/-- One target of `verifyBatch`, up to its transaction. -/
inductive Verified
  | current
  /-- The event belongs to something else. -/
  | ownershipHeld
  /-- The copy was edited or deleted, and the policy says what is done about it. -/
  | handled (observed : ObservedEdit) (response : DestinationEditResponse)
  /-- The lookup failed and is made again later. -/
  | deferred
deriving DecidableEq

def verify (destinationEdits : DestinationEditPolicy) (target : LookupTarget) (reply : HttpReply) :
    Verified :=
  match Google.getEvent reply with
  | .error _ => .deferred
  | .ok observed =>
    match classifyLookup target observed with
    | .current _ => .current
    | .ownershipMismatch _ => .ownershipHeld
    | .missing => .handled .missing (planDestinationEditResponse destinationEdits .missing)
    | .drifted _ => .handled .drifted (planDestinationEditResponse destinationEdits .drifted)

/-! ## The events of a calendar -/

section Calendar

variable (etag : Revision → String)

/-- What the adapter reads of an event, where `etag` is the text of a revision. -/
def remoteLookup (id : EventId) (event : RemoteEvent) : ProviderEventLookup :=
  ⟨id, etag event.revision, event.body.managedIdentity⟩

def lookupTarget (setup : Setup) (target : VerificationTarget) : LookupTarget :=
  ⟨setup.policyId, setup.projectionId, target.generation, target.destinationRevision.map etag⟩

def lookupDecision : DestinationVerificationDecision → LookupDecision
  | .current revision => .current (etag revision)
  | .missing => .missing
  | .drifted revision => .drifted (etag revision)
  | .ownershipMismatch revision => .ownershipMismatch (etag revision)

variable {etag}

theorem classifyLookup_remote (hetag : Function.Injective etag) (setup : Setup)
    (target : VerificationTarget) (observed : Option RemoteEvent) :
    classifyLookup (lookupTarget etag setup target)
        (observed.map (remoteLookup etag target.destinationEventId)) =
      lookupDecision etag (classifyDestinationVerification setup target observed) := by
  cases observed with
  | none => rfl
  | some event =>
    have hrevision : some (etag event.revision) = target.destinationRevision.map etag ↔
        some event.revision = target.destinationRevision := by
      cases target.destinationRevision with
      | none => simp
      | some revision => simp [hetag.eq_iff]
    simp only [Option.map_some, classifyLookup, remoteLookup, lookupTarget, hrevision,
      classifyDestinationVerification, eventBelongsToProjection, Bool.not_eq_true',
      decide_eq_false_iff_not]
    split
    · rfl
    · split <;> rfl

end Calendar

/-! ## Replies -/

section Replies

variable {destinationEdits : DestinationEditPolicy} {target : LookupTarget} {reply : HttpReply}

theorem getEvent_notFound (h : reply.status = 404) : Google.getEvent reply = .ok none := by
  simp [Google.getEvent, Google.request, h, httpError]

theorem getEvent_failed (h : reply.status < 200 ∨ 300 ≤ reply.status) (hne : reply.status ≠ 404) :
    Google.getEvent reply = .error (.provider (httpError false reply.status)) := by
  simp [Google.getEvent, Google.request, h, httpError, hne]

/-- A lookup that is answered with a resource never says that the event is missing. -/
theorem getEvent_ne_missing (h : ¬ (reply.status < 200 ∨ 300 ≤ reply.status)) :
    Google.getEvent reply ≠ .ok none := by
  unfold Google.getEvent Google.request
  rw [if_neg h]
  cases reply.body with
  | none => simp
  | some event =>
    simp only
    cases Google.lookupResult event with
    | error error => simp [Except.map]
    | ok lookup => simp [Except.map]

theorem classifyLookup_ne_missing {event : ProviderEventLookup} :
    classifyLookup target (some event) ≠ .missing := by
  unfold classifyLookup
  simp only
  split
  · simp
  · split <;> simp

/-- **The verifier handles a copy as deleted on the status 404 alone.** -/
theorem verify_missing_iff :
    verify destinationEdits target reply =
        .handled .missing (planDestinationEditResponse destinationEdits .missing) ↔
      reply.status = 404 := by
  constructor
  · intro h
    by_contra hne
    by_cases hfailed : reply.status < 200 ∨ 300 ≤ reply.status
    · rw [verify, getEvent_failed hfailed hne] at h
      cases h
    · unfold verify at h
      cases hevent : Google.getEvent reply with
      | error error =>
        rw [hevent] at h
        cases h
      | ok observed =>
        cases observed with
        | none => exact getEvent_ne_missing hfailed hevent
        | some event =>
          rw [hevent] at h
          simp only at h
          cases hdecision : classifyLookup target (some event) with
          | missing => exact classifyLookup_ne_missing hdecision
          | current | ownershipMismatch | drifted =>
            rw [hdecision] at h
            cases h
  · intro h
    rw [verify, getEvent_notFound h]
    rfl

end Replies

end Planipus.Sync

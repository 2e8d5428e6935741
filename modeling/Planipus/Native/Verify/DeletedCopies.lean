import Planipus.Native.Coordinator
import Planipus.Native.Verify.LoopFreedom
import Planipus.Sync.Lookup

/-!
# Deleted copies in both editions

For the copy that somebody has deleted, the provider may answer a lookup with 404, with 410, or with
200 and a resource whose status is `cancelled`. Both editions take the first for a deleted copy.
They put off the second, the Mac edition with an error that is meant for expired cursors, and they
take the third for an edited copy, or for one of somebody else where it lacks the markers.
-/

namespace Planipus.Native.DeletedCopies

open CalendarSync Sync
open Provider.Google (HttpReply)

/-- The reply as the Mac edition gets it. -/
def native (reply : HttpReply) : Google.HTTPResponse := ⟨reply.status, reply.body⟩

/-- What `onDelete` asks of the Mac edition. -/
def onDeleteWrites (event : SourceEvent) (policy : Native.SyncPolicy)
    (projection : StoredProjection) (desired : Native.DesiredCopy) : List RepositoryWrite :=
  let key : ProjectionKey := ⟨policy.id, event.id, event.occurrenceID⟩
  let create := enqueue .create event.providerRevision policy key policy.destinationEndpoint
    projection.destinationEventID none (some desired) (Native.fingerprint desired)
  match policy.effectiveDestinationEdits.onDelete with
  | .holdForReview =>
    [.saveProjection { projection with hold := some .delete },
      recordNotice .copyDeleteHeld projection.key desired]
  | .restoreAndNotify => [recordNotice .copyDeleteRestored key desired, create]
  | .restore => [create]

/-! ## The Mac edition -/

section Mac

variable {runtime : Runtime} {event : SourceEvent} {policy : Native.SyncPolicy}
  {projection : StoredProjection} {desired : Native.DesiredCopy} {response : Google.HTTPResponse}

theorem validate_failed {statusCode : Nat} (h : ¬ (200 ≤ statusCode ∧ statusCode < 300)) :
    ∃ error, Google.validate statusCode = .error error := by
  unfold Google.validate
  rw [if_neg h]
  repeat' split
  all_goals exact ⟨_, rfl⟩

/-- A reply with another status than 404 is an error, or shows an event. -/
theorem readEvent_none_iff {env : Platform} {formatters : Google.Formatters}
    {identityEmail : Option String} {endpoint : CalendarEndpoint} {response : Google.HTTPResponse} :
    Google.readEvent env formatters identityEmail endpoint response = .ok none ↔
      response.statusCode = 404 := by
  unfold Google.readEvent
  by_cases hmissing : response.statusCode = 404
  · simp [hmissing, pure, Except.pure]
  · rw [if_neg hmissing]
    refine iff_of_false ?_ hmissing
    by_cases hok : 200 ≤ response.statusCode ∧ response.statusCode < 300
    · have hvalidate : Google.validate response.statusCode = .ok () := if_pos hok
      rw [hvalidate]
      cases response.body.bind Google.GoogleEvent.decode with
      | none => simp [bind, Except.bind]
      | some decoded => simp [bind, Except.bind, pure, Except.pure]
    · obtain ⟨error, herror⟩ := validate_failed hok
      rw [herror]
      simp [bind, Except.bind]

theorem verifiedDestination_none_iff {policyID : String} :
    verifiedDestination runtime projection policyID response = .ok none ↔
      response.statusCode = 404 := by
  constructor
  · intro h
    unfold verifiedDestination at h
    split at h
    · cases h
    · rename_i hread
      exact readEvent_none_iff.1 hread
    · split at h <;> cases h
  · intro h
    unfold verifiedDestination
    rw [readEvent_none_iff.2 h]

/-- A copy that is there is not held as a deleted one. -/
theorem planObserved_stop {key : ProjectionKey} {observed : SourceEvent}
    {writes : List RepositoryWrite}
    (h : planObserved runtime policy key projection desired observed = .stop writes) :
    writes ≠ onDeleteWrites event policy projection desired := by
  unfold planObserved at h
  simp only at h
  split at h
  · split at h
    · cases h
      unfold onDeleteWrites holdForDecision recordNotice enqueue
      simp only
      split <;> simp
    · cases h
    · cases h
  · split at h
    · cases h
      unfold onDeleteWrites
      simp only
      split <;> simp
    · cases h

/-- A copy that is there is not created again. -/
theorem planObserved_write {key : ProjectionKey} {observed : SourceEvent}
    {writes : List RepositoryWrite} {operation : ProviderMutationOperation}
    {expectedRevision : Option String}
    (h : planObserved runtime policy key projection desired observed =
      .write writes operation expectedRevision) : operation = .update := by
  unfold planObserved at h
  simp only at h
  split at h
  · split at h
    · cases h
    · cases h
      rfl
    · cases h
      rfl
  · split at h
    · cases h
    · cases h
      rfl

theorem onDeleteWrites_ne {writes : List RepositoryWrite} {key : ProjectionKey}
    {mutation : ProviderMutation} (hupdate : mutation.operation = .update) :
    writes ++ [.enqueue key mutation] ≠ onDeleteWrites event policy projection desired := by
  intro h
  have hlast := congrArg List.getLast? h
  rw [List.getLast?_concat] at hlast
  unfold onDeleteWrites recordNotice enqueue at hlast
  simp only at hlast
  split at hlast
  · cases hlast
  · cases hlast
    cases hupdate
  · cases hlast
    cases hupdate

theorem reconcileCopy_iff :
    reconcileCopy runtime event policy ⟨policy.id, event.id, event.occurrenceID⟩ (some projection)
        desired response = .ok (onDeleteWrites event policy projection desired) ↔
      response.statusCode = 404 := by
  rw [← verifiedDestination_none_iff]
  unfold reconcileCopy
  cases hread : verifiedDestination runtime projection policy.id response with
  | error error => simp [bind, Except.bind, hread]
  | ok observed =>
    simp only [bind, Except.bind, hread]
    cases observed with
    | none =>
      simp only [planMissing, iff_true]
      unfold onDeleteWrites
      cases policy.effectiveDestinationEdits.onDelete <;> rfl
    | some observed =>
      refine iff_of_false ?_ (by simp)
      simp only
      cases hplan : planObserved runtime policy ⟨policy.id, event.id, event.occurrenceID⟩ projection
        desired observed with
      | stop writes =>
        intro h
        cases h
        exact planObserved_stop hplan rfl
      | write writes operation expectedRevision =>
        intro h
        injection h with h
        refine onDeleteWrites_ne ?_ h
        exact planObserved_write hplan

end Mac

/-! ## Both editions -/

/-- The projection is attached and open at the destination of the policy, and the policy desires a
copy: `reconcile` looks at the copy. -/
structure LooksAtCopy (runtime : Runtime) (event : SourceEvent) (policy : Native.SyncPolicy)
    (projection : StoredProjection) (desired : Native.DesiredCopy) : Prop where
  attached : projection.detached = false
  open_ : projection.hold = none
  endpoint : otherEndpoint runtime projection.destinationEndpoint policy.destinationEndpoint = false
  action : (evaluate runtime.env runtime.formatters.dateText runtime.services event policy
    true).action = .copy
  desired : (evaluate runtime.env runtime.formatters.dateText runtime.services event policy
    true).desiredCopy = some desired

/-- **A lookup makes either edition handle a copy as deleted on the status 404 alone.** -/
theorem handledAsDeleted_iff {runtime : Runtime} {event : SourceEvent} {policy : Native.SyncPolicy}
    {projection : StoredProjection} {desired : Native.DesiredCopy}
    (h : LooksAtCopy runtime event policy projection desired)
    (destinationEdits : DestinationEditPolicy) (target : LookupTarget) (reply : HttpReply) :
    (verify destinationEdits target reply =
          .handled .missing (planDestinationEditResponse destinationEdits .missing) ↔
        reply.status = 404) ∧
      (reconcile runtime event policy (some projection) (native reply) =
          .ok (onDeleteWrites event policy projection desired) ↔
        reply.status = 404) := by
  have hstays : (some projection).filter (fun projection =>
      otherEndpoint runtime projection.destinationEndpoint policy.destinationEndpoint) = none := by
    simp [Option.filter, h.endpoint]
  have hreconcile : reconcile runtime event policy (some projection) (native reply) =
      reconcileCopy runtime event policy ⟨policy.id, event.id, event.occurrenceID⟩ (some projection)
        desired (native reply) := by
    simp [reconcile, h.attached, h.open_, hstays, h.action, h.desired]
  rw [hreconcile]
  exact ⟨verify_missing_iff, reconcileCopy_iff⟩

section Example

open Native.Policy (asciiPlatform asciiServices)
open LoopFreedom

def exampleRuntime : Runtime where
  env := asciiPlatform
  formatters := firstDayFormatters
  services := asciiServices
  eventID _ _ _ _ := "pcopy11"
  identityEmail _ := none

/-- The meeting that is copied. -/
def meetingEvent : SourceEvent where
  id := "event"
  calendarID := "primary"
  start := 3600000
  finish := 7200000
  title := "meeting"
  providerRevision := some "s1"

/-- Deletions are held and edits are restored. -/
def heldPolicy : Native.SyncPolicy :=
  { allTimesPolicy with destinationEdits := some ⟨.restore, .holdForReview⟩ }

def busyCopy : Native.DesiredCopy :=
  { meetingCopy with summary := "Busy", disclosure := ["/timing"] }

def meetingProjection : StoredProjection where
  key := ⟨"policy", "event", none⟩
  destinationEndpoint := ⟨"work", "primary"⟩
  destinationEventID := "pcopy11"
  desiredFingerprint := Native.fingerprint busyCopy
  providerRevision := some "r1"

theorem looksAtCopy_meeting :
    LooksAtCopy exampleRuntime meetingEvent heldPolicy meetingProjection busyCopy := by
  constructor <;> decide +kernel

/-- The copy of the server's policy, written under the revision `r1`. -/
def exampleTarget : LookupTarget := ⟨"policy", "copy-1", 1, some "r1"⟩

/-- A deleted copy as the provider may still show it. -/
def cancelledCopy (properties : Provider.Google.Properties) : Provider.Google.GoogleEvent where
  id := some "pcopy11"
  etag := some "r2"
  status := some "cancelled"
  privateProperties := some properties

theorem handledAsDeleted_notFound :
    verify ⟨.restore, .holdForReview⟩ exampleTarget ⟨404, none⟩ =
        .handled .missing (.hold .copyDeleteHeld .destinationDeleteHeld) ∧
      reconcile exampleRuntime meetingEvent heldPolicy (some meetingProjection)
        (native ⟨404, none⟩) =
          .ok (onDeleteWrites meetingEvent heldPolicy meetingProjection busyCopy) := by
  obtain ⟨hserver, hmac⟩ := handledAsDeleted_iff looksAtCopy_meeting ⟨.restore, .holdForReview⟩
    exampleTarget ⟨404, none⟩
  exact ⟨hserver.2 rfl, hmac.2 rfl⟩

/-- A lookup that is answered with 410 is put off, and a cancelled copy is taken for an edited one,
which the policy restores although it holds deletions. -/
theorem not_handledAsDeleted :
    verify ⟨.restore, .holdForReview⟩ exampleTarget ⟨410, none⟩ = .deferred ∧
    reconcile exampleRuntime meetingEvent heldPolicy (some meetingProjection)
      (native ⟨410, none⟩) = .error .cursorExpired ∧
    verify ⟨.restore, .holdForReview⟩ exampleTarget ⟨200, some (cancelledCopy
      [("planipus_version", "1"), ("planipus_policy", "policy"), ("planipus_projection", "copy-1"),
        ("planipus_generation", "1")])⟩ = .handled .drifted (.repair none .destinationDrift) ∧
    reconcile exampleRuntime meetingEvent heldPolicy (some meetingProjection)
      (native ⟨200, some (cancelledCopy [("planipus_managed", "1"), ("planipus_policy", "policy"),
        ("planipus_projection", "pcopy11")])⟩) =
      .ok [enqueue .update (some "s1") heldPolicy ⟨"policy", "event", none⟩ ⟨"work", "primary"⟩
        "pcopy11" (some "r2") (some busyCopy) (Native.fingerprint busyCopy)] := by
  decide +kernel

end Example

end Planipus.Native.DeletedCopies

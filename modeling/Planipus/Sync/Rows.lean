import Planipus.CalendarSync.Evaluate
import Planipus.Provider.Session

/-!
# The tables of one projection

The rows that the reconciler, the outbox and the verifier share (`server/src/database/types.ts`,
migrations `0001`, `0003` and `0006`), for one policy and one source event: at most one projection,
its outbox effects and its notices. The policy, the IDs and the horizon are fixed (`Setup`); no
operation of the server changes a policy's revision.

Hashes are digests (`CalendarSync.Digest`), IDs of effects and notices are numbers chosen by the
step that inserts them, and an idempotency key is the record that the source hashes, without the
policy and projection references, which are the same in every key.
-/

namespace Planipus.Sync

open CalendarSync Provider

/-- `PolicyDraft["horizon"]` in days. -/
structure Horizon where
  pastDays : Nat
  futureDays : Nat
deriving DecidableEq

/-- What stays fixed in every run: the runtime, the compiled policy and the projection's ID. -/
structure Setup where
  platform : Platform
  policy : SyncPolicy
  projectionId : String
  configuredHorizon : Option Horizon := none
  active : policy.state = .active

def Setup.policyId (setup : Setup) : String := setup.policy.policyRef

/-! ## Source observations -/

/-- A version of the stored source event. Both writers of the table, the page upsert and the
tombstoning of a full scan, keep the hash and the tombstone in step with the event. -/
structure ObservationRow where
  normalizedEvent : SourceObservation
  observationHash : Digest SourceObservation
  tombstone : Bool
  hash_eq : observationHash = sha256Canonical normalizedEvent
  tombstone_eq : tombstone = decide (normalizedEvent.lifecycle ≠ .confirmed)
deriving DecidableEq

def ObservationRow.ofEvent (event : SourceObservation) : ObservationRow :=
  ⟨event, sha256Canonical event, decide (event.lifecycle ≠ .confirmed), rfl, rfl⟩

/-- What `sourceObservationBasisHash` hashes. -/
structure SourceBasis where
  observationHash : Digest SourceObservation
  tombstone : Bool
deriving DecidableEq

def sourceObservationBasisHash (observationHash : Digest SourceObservation) (tombstone : Bool) :
    Digest SourceBasis :=
  sha256Canonical ⟨observationHash, tombstone⟩

def ObservationRow.basis (o : ObservationRow) : Digest SourceBasis :=
  sourceObservationBasisHash o.observationHash o.tombstone

/-- The basis names the version of the source event. -/
theorem ObservationRow.basis_inj {o o' : ObservationRow} (h : o.basis = o'.basis) : o = o' := by
  obtain ⟨event, hash, tombstone, hhash, htomb⟩ := o
  obtain ⟨event', hash', tombstone', hhash', htomb'⟩ := o'
  simp only [basis, sourceObservationBasisHash, sha256Canonical_inj, SourceBasis.mk.injEq] at h
  obtain ⟨rfl, rfl⟩ := h
  have hevent : event = event' := sha256Canonical_inj.1 (hhash.symm.trans hhash')
  subst hevent
  rfl

/-! ## Codes -/

/-- The texts that `safe_error_code` takes in projections and effects. -/
inductive SafeErrorCode
  | error (code : ErrorCode)
  | reason (code : ReasonCode)
  | policyPaused | policyRevisionChanged | policyDeleted
  | destinationMissingNewerIntent | destinationMissingGenerationAdvanced
  | recoveryBasisChanged | policyRevisionSuperseded
  | destinationMissing | destinationDrift | destinationEditHeld | destinationDeleteHeld
  | effectRecoveryRequired
deriving DecidableEq

/-- The operation of an outbox effect. -/
inductive Operation | create | update | delete
deriving DecidableEq

/-- The effect operation of an evaluation, absent when it asks for none. -/
def Operation.ofEvaluation : EvaluationOperation → Option Operation
  | .create => some create
  | .update => some update
  | .delete => some delete
  | .none => none

/-! ## Projections -/

inductive ProjectionStatus | pending | retrying | converged | held | failed | deleted
deriving DecidableEq

inductive Ownership | attached | detached | ambiguous
deriving DecidableEq

structure ProjectionRow where
  policyRevision : Nat
  sourceBasisHash : Option (Digest SourceBasis)
  recoveryOperation : Option Operation
  destinationEventId : Option EventId
  destinationEtag : Option Revision
  generation : Nat
  intentSequence : Nat
  desiredHash : Option (Digest DesiredCopy)
  desiredState : Option DesiredCopy
  status : ProjectionStatus
  ownership : Ownership
  safeErrorCode : Option SafeErrorCode
deriving DecidableEq

def destinationEditHoldCodes : List SafeErrorCode := [.destinationEditHeld, .destinationDeleteHeld]

def isDestinationEditHold (p : ProjectionRow) : Bool :=
  p.status = .held && p.ownership = .attached &&
    p.safeErrorCode.any fun code => code ∈ destinationEditHoldCodes

/-! ## Outbox effects -/

inductive EffectState | pending | leased | retry | succeeded | dead
deriving DecidableEq

abbrev EffectId := Nat
abbrev Owner := String

/-- The `kind` of an idempotency key; reconciliation writes none. -/
inductive IntentKind
  | reconciliation | destinationMissingGenerationRepair | destinationVerificationRepair
  | destinationEditHoldRestore | userRequestedAmbiguousRecovery
deriving DecidableEq

structure IdempotencyKey where
  kind : IntentKind
  policyRevision : Nat
  generation : Nat
  intentSequence : Nat
  operation : Operation
  desiredFingerprint : Option (Digest DesiredCopy)
deriving DecidableEq

structure EffectRow where
  id : EffectId
  createdAt : Instant
  policyRevision : Nat
  sourceBasisHash : Option (Digest SourceBasis)
  operation : Operation
  idempotencyKey : IdempotencyKey
  desiredState : Option DesiredCopy
  state : EffectState := .pending
  attemptCount : Nat := 0
  runAfter : Instant
  leaseOwner : Option Owner := none
  leaseExpiresAt : Option Instant := none
  ambiguous : Bool := false
  safeErrorCode : Option SafeErrorCode := none
deriving DecidableEq

namespace EffectRow

/-- `state in ('pending', 'leased', 'retry')`. -/
def unfinished (e : EffectRow) : Bool :=
  e.state = .pending || e.state = .leased || e.state = .retry

def dead (e : EffectRow) : Bool := e.state = .dead

/-- The order `created_at, id` of the outbox. -/
def precedes (e e' : EffectRow) : Bool :=
  e.createdAt < e'.createdAt || (e.createdAt = e'.createdAt && e.id < e'.id)

end EffectRow

/-- `orderBy created_at, id` and the first row. -/
def firstEffect : List EffectRow → Option EffectRow
  | [] => none
  | e :: es =>
    match firstEffect es with
    | none => some e
    | some e' => if e'.precedes e then some e' else some e

theorem firstEffect_mem {effects : List EffectRow} {e : EffectRow}
    (h : firstEffect effects = some e) : e ∈ effects := by
  induction effects generalizing e with
  | nil => cases h
  | cons x xs ih =>
    simp only [firstEffect] at h
    split at h
    · cases h
      exact List.mem_cons_self
    · rename_i e' he'
      split at h
      · cases h
        exact List.mem_cons_of_mem _ (ih he')
      · cases h
        exact List.mem_cons_self

theorem firstEffect_eq_none {effects : List EffectRow} (h : firstEffect effects = none) :
    effects = [] := by
  cases effects with
  | nil => rfl
  | cons x xs =>
    simp only [firstEffect] at h
    split at h
    · cases h
    · split at h <;> cases h

/-- The dead effect that blocks the queue. -/
def blockingDeadEffect (effects : List EffectRow) : Option EffectRow :=
  firstEffect (effects.filter EffectRow.dead)

theorem blockingDeadEffect_mem {effects : List EffectRow} {e : EffectRow}
    (h : blockingDeadEffect effects = some e) : e ∈ effects ∧ e.state = .dead := by
  have hmem := List.mem_filter.1 (firstEffect_mem h)
  exact ⟨hmem.1, by simpa [EffectRow.dead] using hmem.2⟩

theorem blockingDeadEffect_eq_none {effects : List EffectRow}
    (h : blockingDeadEffect effects = none) : ∀ e ∈ effects, e.state ≠ .dead := by
  intro e he hdead
  have hnil := firstEffect_eq_none h
  exact (List.filter_eq_nil_iff.1 hnil e he) (by simp [EffectRow.dead, hdead])

/-! ## Notices and jobs -/

inductive NoticeKind | copyEditReverted | copyDeleteRestored | copyEditHeld | copyDeleteHeld
deriving DecidableEq

def heldNoticeKinds : List NoticeKind := [.copyEditHeld, .copyDeleteHeld]

inductive NoticeStatus | unread | acknowledged | resolved
deriving DecidableEq

inductive Resolution | restore | keepAndDetach
deriving DecidableEq

/-- What verification observed of an owned copy. -/
inductive ObservedEdit | drifted | missing
deriving DecidableEq

structure NoticeDetail where
  observed : ObservedEdit
  copySummary : String
  copyTiming : EventTiming
deriving DecidableEq

abbrev NoticeId := Nat

structure NoticeRow where
  id : NoticeId
  kind : NoticeKind
  status : NoticeStatus := .unread
  resolution : Option Resolution := none
  detail : NoticeDetail
deriving DecidableEq

def noticeDetailForDesiredCopy (observed : ObservedEdit) (desired : DesiredCopy) : NoticeDetail :=
  ⟨observed, desired.summary, desired.timing⟩

/-- The dedupe keys of the `reconcile_policy` jobs that the modelled operations enqueue. -/
inductive JobKey
  | revision | recoveryBasisOfEffect (effect : EffectId) | recovery (effect : EffectId)
  | recoveryBasis | recoveryPayload | noticeBasis (notice : NoticeId)
deriving DecidableEq

/-! ## Endpoints and the policy row -/

inductive ConnectionStatus | active | actionRequired | revoked
deriving DecidableEq

inductive ConnectionRole | availability | source | destination | both
deriving DecidableEq

/-- A calendar endpoint with its connection; `capable` is `readable` of the source and `writable`
of the destination. -/
structure Endpoint where
  capable : Bool
  connectionStatus : ConnectionStatus
  intendedRole : ConnectionRole
deriving DecidableEq

def Endpoint.usable (e : Endpoint) (role : ConnectionRole) : Bool :=
  e.capable && e.connectionStatus = .active && (e.intendedRole = role || e.intendedRole = .both)

inductive PolicyStatus | active | paused | deleted
deriving DecidableEq

/-! ## Deterministic event IDs and markers -/

/-- `p${projectionId without dashes, in lower case}${generation}`. Projection IDs are ASCII. -/
def managedEventId (projectionId : String) (generation : Nat) : EventId :=
  "p" ++ String.ofList ((projectionId.toList.filter (· ≠ '-')).map Char.toLower) ++
    toString generation

theorem managedEventId_inj {projectionId : String} {g g' : Nat}
    (h : managedEventId projectionId g = managedEventId projectionId g') : g = g' := by
  unfold managedEventId at h
  have hlist := congrArg String.toList h
  simp only [String.toList_append] at hlist
  have hdigits := List.append_cancel_left hlist
  have hvalue := congrArg (fun ds => Nat.ofDigitChars 10 ds 0) hdigits
  simpa [Nat.toString_eq_ofList_toDigits] using hvalue

def eventBelongsToProjection (event : RemoteEvent) (policyId projectionId : String)
    (generation : Nat) : Bool :=
  event.body.managedIdentity = some ⟨policyId, projectionId, generation⟩

end Planipus.Sync

import Mathlib.Algebra.Group.Int.Defs
import Planipus.Library.Rows
import Planipus.Sync.State

/-!
# The outbox executor

`server/src/sync/effects.ts`: leasing an effect, and executing a leased one under the locks of its
policy, effect, projection and source event. The execution is cut at the provider: `gate` is what
happens before it, `runProvider` the conversation, and `record` the rows written afterwards. The
locks are held throughout, so the rows do not change in between; the destination calendar does.

What the conversation can come to, with the reason each write had to be sent, is described in
`Sync.Verify.Conversation`.
-/

namespace Planipus.Sync

open CalendarSync Provider Library

/-! ## Leasing -/

/-- An expired lease may have crossed the network boundary. -/
def reap (now : Instant) (e : EffectRow) : EffectRow :=
  if e.state = .leased ∧ e.leaseExpiresAt.any (fun expiry => expiry < now) then
    { e with state := .retry, leaseOwner := none, leaseExpiresAt := none, ambiguous := true,
             runAfter := now }
  else e

/-- Due, and the first effect of the projection that has not succeeded. -/
def eligible (now : Instant) (effects : List EffectRow) (e : EffectRow) : Bool :=
  (e.state = .pending || e.state = .retry) && e.runAfter ≤ now &&
    effects.all fun prior => prior.state = .succeeded || !prior.precedes e

structure LeaseInput where
  owner : Owner
  now : Instant
  leaseSeconds : Nat
  /-- The batch has room for the projection's effect and its row is not locked. -/
  take : Bool := true
deriving DecidableEq

def leaseRow (input : LeaseInput) (e : EffectRow) : EffectRow :=
  { e with state := .leased, leaseOwner := some input.owner,
           leaseExpiresAt := some (input.now + input.leaseSeconds * 1000),
           attemptCount := e.attemptCount + 1 }

def lease (input : LeaseInput) (s : State) : State :=
  let reaped := s.effects.map (reap input.now)
  { s with
    effects := reaped.map fun e =>
      if input.take && eligible input.now reaped e then leaseRow input e else e }

/-! ## Before the provider -/

inductive EffectPolicyExecutionDisposition
  | execute | deferPaused | deferRevision | supersedeDeleted
deriving DecidableEq

def effectPolicyExecutionDisposition (status : PolicyStatus) (currentRevision effectRevision : Nat) :
    EffectPolicyExecutionDisposition :=
  match status with
  | .deleted => .supersedeDeleted
  | .paused => .deferPaused
  | .active => if currentRevision = effectRevision then .execute else .deferRevision

/-- How an execution ends, before its rows are written. -/
inductive Outcome
  | deferred (reason : SafeErrorCode)
  | superseded (reason : SafeErrorCode)
  | basisChanged
  | replaced (desired : DesiredCopy)
  | succeeded (remote : Option (EventId × Revision))
  | heldAmbiguous (error : ProviderError)
  | failed (error : ProviderError)

def connectionRoleChanged : ProviderError := { code := .connectionRoleChanged, retryable := false }

def targetUnavailable : ProviderError := { code := .targetUnavailable, retryable := false }

def invalidDesiredState : ProviderError := { code := .invalidDesiredState, retryable := false }

def ownershipMismatch : ProviderError := { code := .ownershipMismatch, retryable := false }

def staleMissingRepair : ProviderError := { code := .staleMissingRepair, retryable := false }

/-- The effect's basis is the projection's and the stored source event's. -/
def basisCurrent (s : State) (p : ProjectionRow) (e : EffectRow) : Bool :=
  e.sourceBasisHash.isSome && p.sourceBasisHash.isSome &&
    e.sourceBasisHash = p.sourceBasisHash && e.sourceBasisHash = some s.observation.basis

/-- The checks before the provider is asked: the projection to write for, or how it ends. -/
def gate (setup : Setup) (s : State) (e : EffectRow) : Except Outcome ProjectionRow :=
  match effectPolicyExecutionDisposition s.policyStatus setup.policy.revision e.policyRevision with
  | .deferPaused => .error (.deferred .policyPaused)
  | .deferRevision => .error (.deferred .policyRevisionChanged)
  | .supersedeDeleted => .error (.superseded .policyDeleted)
  | .execute =>
    if !s.source.usable .source then .error (.failed connectionRoleChanged)
    else
      match s.projection with
      | none => .error (.failed targetUnavailable)
      | some p =>
        if !s.destination.usable .destination then .error (.failed targetUnavailable)
        else if !basisCurrent s p e then .error .basisChanged
        else .ok p

/-! ## The conversation with the provider -/

/-- How the conversation ends. -/
inductive ProviderOutcome
  | succeeded (remote : Option (EventId × Revision))
  | mismatch
  | missing
  | raised (error : ProviderError)

/-- What the token broker answers. -/
inductive TokenReply | granted | denied | unavailable
deriving DecidableEq

section Conversation

variable (setup : Setup) (p : ProjectionRow) (e : EffectRow)

/-- The event carries this projection's policy ID, projection ID and generation. -/
def belongs (event : RemoteEvent) : Bool :=
  eventBelongsToProjection event setup.policyId setup.projectionId p.generation

/-- The event ID of the execution. -/
def executionEventId : EventId :=
  p.destinationEventId.getD (managedEventId setup.projectionId p.generation)

/-- The result of a write that gives the event `id` a new revision. -/
def writeOutcome (id : EventId) :
    Session × Except ProviderError Revision → Session × ProviderOutcome
  | (session, .ok revision) => (session, .succeeded (some (id, revision)))
  | (session, .error error) => (session, .raised error)

/-- Write the desired content over an event that was just read. -/
def rewriteFound (session : Session) (id : EventId) (found : RemoteEvent) (desired : DesiredCopy) :
    Session × ProviderOutcome :=
  if belongs setup p found then
    writeOutcome id (session.updateEvent id (some found.revision) desired)
  else (session, .mismatch)

def runCreate (session : Session) (desired : DesiredCopy) : Session × ProviderOutcome :=
  let id := executionEventId setup p
  match session.getEvent id with
  | (session, .error error) => (session, .raised error)
  | (session, .ok (some found)) => rewriteFound setup p session id found desired
  | (session, .ok none) =>
    if e.ambiguous then (session, .missing)
    else writeOutcome id (session.createEvent id desired)

/-- The second look after an update found no event. -/
def lookAgain (session : Session) (id : EventId) (desired : DesiredCopy) :
    Session × ProviderOutcome :=
  match session.getEvent id with
  | (session, .error error) => (session, .raised error)
  | (session, .ok none) => (session, .missing)
  | (session, .ok (some found)) => rewriteFound setup p session id found desired

def runConditionalUpdate (session : Session) (id : EventId) (expected : Option Revision)
    (desired : DesiredCopy) : Session × ProviderOutcome :=
  match session.updateEvent id expected desired with
  | (session, .ok revision) => (session, .succeeded (some (id, revision)))
  | (session, .error error) =>
    if error.status ≠ some 404 then (session, .raised error)
    else lookAgain setup p session id desired

def runUpdate (session : Session) (desired : DesiredCopy) : Session × ProviderOutcome :=
  match p.destinationEventId with
  | none =>
    let id := executionEventId setup p
    writeOutcome id (session.createEvent id desired)
  | some id =>
    if e.ambiguous then
      match session.getEvent id with
      | (session, .error error) => (session, .raised error)
      | (session, .ok none) => (session, .missing)
      | (session, .ok (some found)) =>
        if belongs setup p found then
          runConditionalUpdate setup p session id (some found.revision) desired
        else (session, .mismatch)
    else runConditionalUpdate setup p session id p.destinationEtag desired

/-- The end of a delete request. -/
def deleteOutcome : Session × Except ProviderError Unit → Session × ProviderOutcome
  | (session, .ok ()) => (session, .succeeded none)
  | (session, .error error) => (session, .raised error)

/-- The event a delete is for. -/
def deleteEventId : Option EventId :=
  p.destinationEventId <|> if e.ambiguous then some (executionEventId setup p) else none

def runDelete (session : Session) : Session × ProviderOutcome :=
  match deleteEventId setup p e with
  | none => (session, .succeeded none)
  | some id =>
    if e.ambiguous then
      match session.getEvent id with
      | (session, .error error) => (session, .raised error)
      | (session, .ok none) => (session, .succeeded none)
      | (session, .ok (some found)) =>
        if belongs setup p found then deleteOutcome (session.deleteEvent id (some found.revision))
        else (session, .mismatch)
    else deleteOutcome (session.deleteEvent id p.destinationEtag)

def runOperation (session : Session) : Session × ProviderOutcome :=
  match e.operation, e.desiredState with
  | .delete, _ => runDelete setup p e session
  | _, none => (session, .raised invalidDesiredState)
  | .create, some desired => runCreate setup p e session desired
  | .update, some desired => runUpdate setup p e session desired

def runProvider (token : TokenReply) (session : Session) : Session × ProviderOutcome :=
  match token with
  | .granted => runOperation setup p e session
  | .denied => (session, .raised { code := .providerAuth, retryable := false, status := some 401 })
  | .unavailable => (session, .raised { code := .connectionUnavailable, retryable := true })

end Conversation

/-! ## After the provider -/

/-- The new desired copy of a replacement, when the effect and the projection still agree. -/
def replacementDesired (setup : Setup) (p : ProjectionRow) (e : EffectRow) :
    Except ProviderError DesiredCopy :=
  match p.desiredState, e.desiredState with
  | none, _ => .error invalidDesiredState
  | _, none => .error invalidDesiredState
  | some desired, some effectDesired =>
    if p.policyRevision = e.policyRevision ∧
        desired.provenance = ⟨setup.policyId, setup.projectionId, p.generation⟩ ∧
        p.desiredHash = some (sha256Canonical desired) ∧
        p.desiredHash = some (sha256Canonical effectDesired) then
      .ok (desired.withGeneration (p.generation + 1))
    else .error staleMissingRepair

/-- The `catch` of the execution. -/
def caught (error : ProviderError) : Outcome :=
  if error.code = .preconditionFailed then .heldAmbiguous error else .failed error

/-- What an ended conversation means for the rows. -/
def conclude (setup : Setup) (s : State) (p : ProjectionRow) (e : EffectRow) :
    ProviderOutcome → Outcome
  | .succeeded remote => .succeeded remote
  | .mismatch => .heldAmbiguous ownershipMismatch
  | .raised error => caught error
  | .missing =>
    if s.effects.any fun e' => e'.id ≠ e.id && e'.unfinished then
      .superseded .destinationMissingNewerIntent
    else
      match replacementDesired setup p e with
      | .ok desired => .replaced desired
      | .error error => caught error

/-! ## The rows written -/

structure ExecuteInput where
  owner : Owner
  effect : EffectId
  now : Instant
  token : TokenReply := .granted
  script : List Exchange := []
  /-- The row of a replacement effect. -/
  replacement : Insertion
  /-- The worker is gone before the outcome is committed. -/
  crash : Bool := false

def closeEffect (state : EffectState) (code : Option SafeErrorCode) (ambiguous : Bool)
    (e : EffectRow) : EffectRow :=
  { e with state, leaseOwner := none, leaseExpiresAt := none, ambiguous, safeErrorCode := code }

/-- `supersede`, and what `succeed` does to the effect. -/
def finishEffect (code : Option SafeErrorCode) : EffectRow → EffectRow :=
  closeEffect .succeeded code false

def deferEffect (now : Instant) (reason : SafeErrorCode) (e : EffectRow) : EffectRow :=
  { closeEffect .retry (some reason) false e with
    attemptCount := e.attemptCount - 1
    runAfter := now + 24 * 60 * 60000 }

def isDeadAfter (error : ProviderError) (e : EffectRow) : Bool :=
  !error.retryable || 10 ≤ e.attemptCount

def failEffect (now : Instant) (error : ProviderError) (e : EffectRow) : EffectRow :=
  { closeEffect (if isDeadAfter error e then .dead else .retry) (some (.error error.code))
      (e.ambiguous || error.ambiguous) e with
    runAfter := now + min 3600 (2 ^ min e.attemptCount 10) * 1000 }

/-- `succeed` on the projection. -/
def succeedProjection (operation : Operation) (remote : Option (EventId × Revision))
    (p : ProjectionRow) : ProjectionRow :=
  match operation with
  | .delete =>
    { p with recoveryOperation := none, destinationEventId := none, destinationEtag := none,
             generation := p.generation + 1, status := .deleted, safeErrorCode := none }
  | _ =>
    { p with recoveryOperation := none, destinationEventId := remote.map Prod.fst,
             destinationEtag := remote.map Prod.snd, status := .converged,
             ownership := .attached, safeErrorCode := none }

def failProjection (error : ProviderError) (e : EffectRow) (p : ProjectionRow) : ProjectionRow :=
  { p with status := if isDeadAfter error e then .failed else .retrying,
           safeErrorCode := some (.error error.code) }

def holdProjection (error : ProviderError) (p : ProjectionRow) : ProjectionRow :=
  { p with ownership := .ambiguous, status := .held, safeErrorCode := some (.error error.code) }

def replaceProjection (desired : DesiredCopy) (p : ProjectionRow) : ProjectionRow :=
  { p with
    intentSequence := p.intentSequence + 1
    generation := p.generation + 1
    recoveryOperation := none
    destinationEventId := none
    destinationEtag := none
    desiredHash := some (sha256Canonical desired)
    desiredState := some desired
    status := .pending
    safeErrorCode := some .destinationMissing }

/-- The effect of a replacement, for the projection after `replaceProjection`. -/
def replacementEffect (input : ExecuteInput) (e : EffectRow) (desired : DesiredCopy)
    (p : ProjectionRow) : EffectRow :=
  { id := input.replacement.id
    createdAt := input.replacement.createdAt
    policyRevision := e.policyRevision
    sourceBasisHash := e.sourceBasisHash
    operation := .create
    idempotencyKey :=
      { kind := .destinationMissingGenerationRepair
        policyRevision := e.policyRevision
        generation := p.generation
        intentSequence := p.intentSequence
        operation := .create
        desiredFingerprint := some (sha256Canonical desired) }
    desiredState := some desired
    runAfter := input.now }

/-- Rewrite the leased row. -/
def State.mapEffect (s : State) (id : EffectId) (f : EffectRow → EffectRow) : State :=
  { s with effects := updateRow EffectRow.id id f s.effects }

def State.mapProjection (s : State) (f : ProjectionRow → ProjectionRow) : State :=
  { s with projection := s.projection.map f }

/-- A refused authorization marks the destination's connection. -/
def noteAuth (error : ProviderError) (s : State) : State :=
  if error.code = .providerAuth then
    { s with destination := { s.destination with connectionStatus := .actionRequired } }
  else s

/-- The rows of an outcome; `none` when the transaction fails on an outbox insert. -/
def record (input : ExecuteInput) (e : EffectRow) (s : State) : Outcome → Option State
  | .deferred reason => some (s.mapEffect e.id (deferEffect input.now reason))
  | .superseded reason => some (s.mapEffect e.id (finishEffect (some reason)))
  | .basisChanged =>
    some (((s.mapEffect e.id (finishEffect (some .recoveryBasisChanged))).mapProjection
      fun p => { p with status := .failed, safeErrorCode := some .recoveryBasisChanged }).enqueue
        (.recoveryBasisOfEffect e.id))
  | .succeeded remote =>
    some ((s.mapEffect e.id (finishEffect none)).mapProjection
      (succeedProjection e.operation remote))
  | .heldAmbiguous error =>
    some ((s.mapEffect e.id (closeEffect .dead (some (.error error.code)) true)).mapProjection
      (holdProjection error))
  | .failed error =>
    some (noteAuth error ((s.mapEffect e.id (failEffect input.now error)).mapProjection
      (failProjection error e)))
  | .replaced desired =>
    match s.projection with
    | none => none
    | some p =>
      let p' := replaceProjection desired p
      ((s.mapEffect e.id (finishEffect (some .destinationMissingGenerationAdvanced))).insertEffect
        (replacementEffect input e desired p')).map fun s' => { s' with projection := some p' }

/-! ## The execution -/

/-- The leased effect that an execution is for. -/
def leasedEffect (input : ExecuteInput) (s : State) : Option EffectRow :=
  if input.owner ∈ s.crashed then none
  else s.effects.find? fun e =>
    e.id = input.effect && e.state = .leased && e.leaseOwner = some input.owner

/-- The conversation of an execution and its outcome. -/
def executeSession (setup : Setup) (input : ExecuteInput) (s : State) (e : EffectRow) :
    Session × Outcome :=
  match gate setup s e with
  | .error outcome => (⟨s.calendar, input.script, []⟩, outcome)
  | .ok p =>
    let (session, ended) := runProvider setup p e input.token ⟨s.calendar, input.script, []⟩
    (session, conclude setup s p e ended)

/-- A worker that dies, or whose transaction fails, leaves the calendar as the conversation made it
and the rows as they were. -/
def abandon (input : ExecuteInput) (s : State) : State :=
  { s with crashed := input.owner :: s.crashed }

def executeOne (setup : Setup) (input : ExecuteInput) (s : State) : State :=
  match leasedEffect input s with
  | none => s
  | some e =>
    let (session, outcome) := executeSession setup input s e
    let s' := { s with calendar := session.calendar }
    if input.crash then abandon input s'
    else (record input e s' outcome).getD (abandon input s')

/-- The write requests that an execution sends. -/
def issuedCalls (setup : Setup) (input : ExecuteInput) (s : State) : List ProviderCall :=
  match leasedEffect input s with
  | none => []
  | some e => (executeSession setup input s e).1.calls

end Planipus.Sync

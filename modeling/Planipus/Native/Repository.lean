import Planipus.Library.Rows
import Planipus.Native.Coordinator

/-!
# The repository of the Mac edition

`PlanipusRepository.swift` and the operations that the coordinator calls, as
`ProductionStoreGate.swift` has them: the source events and the cursor of every calendar, the
projections, the notices and the outbox. `UUID()` is the next number, so that the ID of an intent
also tells when it was enqueued. Times of writing other than those of the outbox and the texts of
errors are left out: the coordinator does not read them.
-/

namespace Planipus.Native

open CalendarSync Library

/-! ## Source events -/

inductive ChangeBatchMode
  | incremental
  | full (start finish : Instant)
deriving DecidableEq

/-- A commit under way: the stored events and `removedByKey`. -/
structure Commit where
  stored : List SourceEvent
  removed : List SourceEvent

section Commit

-- When an event is in the row of another, and when it has the other's key in `removedByKey`.
variable (sameRow sameKey : SourceEvent → SourceEvent → Bool)

/-- `removedByKey[key] = tombstone`. -/
def Commit.bury (tombstone : SourceEvent) (commit : Commit) : Commit :=
  { commit with
    removed := commit.removed.filter (fun other => !sameKey tombstone other) ++
      [{ tombstone with isDeleted := true }] }

/-- The window of a full traversal is emptied. -/
def Commit.clear (inWindow : SourceEvent → Bool) (stored : List SourceEvent) : Commit :=
  (stored.filter inWindow).foldl (fun commit event => commit.bury sameKey event)
    ⟨stored.filter fun event => !inWindow event, []⟩

/-- One staged event. -/
def Commit.stage (commit : Commit) (event : SourceEvent) : Commit :=
  let others := commit.stored.filter fun other => !sameRow event other
  if event.isDeleted then
    let existing := (commit.stored.find? (sameRow event)).getD event
    { commit with stored := others }.bury sameKey
      { existing with
        providerRevision := event.providerRevision.orElse fun _ => existing.providerRevision }
  else
    { stored := others ++ [event]
      removed := commit.removed.filter fun other => !sameKey event other }

/-- The commit of staged events. -/
def Commit.run (inWindow : Option (SourceEvent → Bool)) (staged stored : List SourceEvent) : Commit :=
  staged.foldl (Commit.stage sameRow sameKey)
    (match inWindow with
    | none => ⟨stored, []⟩
    | some inWindow => Commit.clear sameKey inWindow stored)

end Commit

/-- Tells `nil` from every text. -/
def occurrenceKey : Option String → String
  | none => "0"
  | some occurrenceID => "1" ++ occurrenceID

def observationKey (event : SourceEvent) : String :=
  event.id ++ "\u001f" ++ occurrenceKey event.occurrenceID

/-- The primary key of a row within a calendar. -/
def sameObservation (left right : SourceEvent) : Bool :=
  left.id = right.id && left.occurrenceID = right.occurrenceID

/-- The window of a full traversal, in a query. -/
def ChangeBatchMode.window : ChangeBatchMode → Option (SourceEvent → Bool)
  | .incremental => none
  | .full start finish => some fun event => event.finish > start && event.start < finish

/-- `<` on strings. -/
def textBefore (env : Platform) (left right : String) : Bool :=
  env.normalizeNFC left < env.normalizeNFC right

/-- `ORDER BY event_id, occurrence_key`. -/
def rowOrder (left right : SourceEvent) : Bool :=
  left.id < right.id ||
    left.id = right.id && !(occurrenceKey right.occurrenceID < occurrenceKey left.occurrenceID : Bool)

/-! ## The outbox -/

inductive OutboxState | pending | applying | ambiguous | quarantined | succeeded
deriving DecidableEq

structure OutboxEffect where
  id : Nat
  idempotencyKey : IdempotencyKey
  projectionKey : ProjectionKey
  mutation : ProviderMutation
  state : OutboxState := .pending
  attemptCount : Nat := 0
  nextAttemptAt : Instant
  createdAt : Instant
deriving DecidableEq

/-- The states of the effects that a drain fetches. -/
def OutboxEffect.unfinished (effect : OutboxEffect) : Bool :=
  effect.state = .pending || effect.state = .applying || effect.state = .ambiguous

def OutboxEffect.due (now : Instant) (effect : OutboxEffect) : Bool :=
  effect.unfinished && effect.nextAttemptAt ≤ now

/-- `ORDER BY next_attempt_at, created_at`. -/
def dueOrder (left right : OutboxEffect) : Prop :=
  left.nextAttemptAt < right.nextAttemptAt ∨
    left.nextAttemptAt = right.nextAttemptAt ∧ left.createdAt ≤ right.createdAt

instance (left right : OutboxEffect) : Decidable (dueOrder left right) :=
  inferInstanceAs (Decidable (_ ∨ _ ∧ _))

/-! ## Notices -/

/-- Held kinds carry a decision. -/
def SyncNoticeKind.carriesDecision : SyncNoticeKind → Bool
  | .copyEditHeld | .copyDeleteHeld => true
  | _ => false

inductive SyncNoticeStatus | unread | acknowledged | resolved
deriving DecidableEq

inductive SyncNoticeResolution | restore | keepAndDetach
deriving DecidableEq

structure StoredNotice where
  id : Nat
  notice : SyncNotice
  status : SyncNoticeStatus := .unread
  resolution : Option SyncNoticeResolution := none
deriving DecidableEq

/-! ## The repository -/

structure Repository where
  syncToken : CalendarEndpoint → Option String := fun _ => none
  stored : CalendarEndpoint → List SourceEvent := fun _ => []
  projections : List StoredProjection := []
  notices : List StoredNotice := []
  outbox : List OutboxEffect := []
  nextID : Nat := 0

namespace Repository

def observations (repository : Repository) (endpoint : CalendarEndpoint) : List SourceEvent :=
  (repository.stored endpoint).mergeSort rowOrder

/-- The commit of a batch, and the tombstones that it returns. -/
def commit (env : Platform) (endpoint : CalendarEndpoint) (mode : ChangeBatchMode)
    (staged : List SourceEvent) (nextSyncToken : Option String) (repository : Repository) :
    Repository × List SourceEvent :=
  let sameKey (left right : SourceEvent) : Bool :=
    Policy.sameText env (observationKey left) (observationKey right)
  let result := Commit.run sameObservation sameKey mode.window staged (repository.stored endpoint)
  ({ repository with
      stored := Function.update repository.stored endpoint result.stored
      syncToken := match nextSyncToken with
        | some token => Function.update repository.syncToken endpoint (some token)
        | none => repository.syncToken },
    result.removed.mergeSort fun left right =>
      !textBefore env (observationKey right) (observationKey left))

def clearSyncToken (endpoint : CalendarEndpoint) (repository : Repository) : Repository :=
  { repository with syncToken := Function.update repository.syncToken endpoint none }

def projection (repository : Repository) (key : ProjectionKey) : Option StoredProjection :=
  repository.projections.find? fun projection => projection.key = key

def saveProjection (projection : StoredProjection) (repository : Repository) : Repository :=
  { repository with
    projections := upsertRow StoredProjection.key projection repository.projections }

def deleteProjection (key : ProjectionKey) (repository : Repository) : Repository :=
  { repository with
    projections := repository.projections.filter fun projection => projection.key ≠ key }

def recordNotice (notice : SyncNotice) (repository : Repository) : Repository :=
  { repository with
    notices := repository.notices ++ [{ id := repository.nextID, notice }]
    nextID := repository.nextID + 1 }

def updateNotice (notice : StoredNotice) (repository : Repository) : Repository :=
  { repository with
    notices := updateRow StoredNotice.id notice.id (fun _ => notice) repository.notices }

/-- The effect of an intent that is enqueued now. -/
def newEffect (now : Instant) (key : ProjectionKey) (mutation : ProviderMutation)
    (repository : Repository) : OutboxEffect where
  id := repository.nextID
  idempotencyKey := mutation.idempotencyKey
  projectionKey := key
  mutation
  nextAttemptAt := now
  createdAt := now

/-- An intent is not enqueued again before it has succeeded. -/
def refused (mutation : ProviderMutation) (repository : Repository) : Bool :=
  repository.outbox.any fun effect =>
    effect.idempotencyKey = mutation.idempotencyKey && effect.state ≠ .succeeded

def enqueue (now : Instant) (key : ProjectionKey) (mutation : ProviderMutation)
    (repository : Repository) : Repository :=
  if repository.refused mutation then repository
  else
    { repository with
      outbox :=
        repository.outbox.filter (fun effect => effect.idempotencyKey ≠ mutation.idempotencyKey) ++
          [repository.newEffect now key mutation]
      nextID := repository.nextID + 1 }

def updateEffect (id : Nat) (body : OutboxEffect → OutboxEffect) (repository : Repository) :
    Repository :=
  { repository with outbox := updateRow OutboxEffect.id id body repository.outbox }

def markApplying (id : Nat) : Repository → Repository :=
  updateEffect id fun effect =>
    { effect with state := .applying, attemptCount := effect.attemptCount + 1 }

def markSucceeded (id : Nat) : Repository → Repository :=
  updateEffect id fun effect => { effect with state := .succeeded }

def markAmbiguous (id : Nat) : Repository → Repository :=
  updateEffect id fun effect => { effect with state := .ambiguous }

def markQuarantined (id : Nat) : Repository → Repository :=
  updateEffect id fun effect => { effect with state := .quarantined }

def scheduleRetry (id : Nat) (date : Instant) : Repository → Repository :=
  updateEffect id fun effect => { effect with state := .pending, nextAttemptAt := date }

def reviseEffect (id : Nat) (mutation : ProviderMutation) (date : Instant) :
    Repository → Repository :=
  updateEffect id fun effect =>
    { effect with mutation, state := .pending, nextAttemptAt := date }

/-- `dueEffects`: the order of effects with equal times is open. -/
def DueEffects (repository : Repository) (now : Instant) (due : List OutboxEffect) : Prop :=
  due.Perm (repository.outbox.filter (·.due now)) ∧ due.Pairwise dueOrder

instance (repository : Repository) (now : Instant) (due : List OutboxEffect) :
    Decidable (repository.DueEffects now due) :=
  inferInstanceAs (Decidable (_ ∧ _))

/-- One write of the coordinator. -/
def write (now : Instant) : RepositoryWrite → Repository → Repository
  | .saveProjection projection => saveProjection projection
  | .deleteProjection key => deleteProjection key
  | .recordNotice notice => recordNotice notice
  | .enqueue key mutation => enqueue now key mutation

end Repository

end Planipus.Native

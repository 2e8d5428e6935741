import Planipus.Native.Repository

/-!
# The two repositories of the Mac edition

`InMemoryPlanipusRepository.swift`, on which the coordinator is tested, and the encrypted repository
of `ProductionStoreGate.swift`, which users run. A dictionary of the one is the list of its values,
or a function of canonical keys: its keys are compared as strings are in Swift, by canonical
equivalence. A table of the other is the list of its rows, with keys that are compared byte by byte;
a write throws its changes away when it throws. What is stored as JSON is kept as it is, and columns
that only repeat it are left out. `UUID()` is the next number. Notices and the configuration are left
out.
-/

namespace Planipus.Native.Stores

open CalendarSync

/-! ## Operations -/

structure ChangeBatchHandle where
  id : Nat
  endpoint : CalendarEndpoint
  mode : ChangeBatchMode
deriving DecidableEq

structure StoredProjection extends Native.StoredProjection where
  updatedAt : Instant
deriving DecidableEq

structure OutboxEffect where
  id : Nat
  idempotencyKey : String
  projectionKey : ProjectionKey
  mutation : ProviderMutation
  state : OutboxState := .pending
  attemptCount : Int := 0
  nextAttemptAt : Instant
  lastError : Option String := none
  createdAt : Instant
deriving DecidableEq

/-- `RepositoryError`, `EncryptedStoreError.corruptRecord`, and a constraint of the database. -/
inductive StoreError
  | unknownBatch | mismatchedCalendar | unknownEffect | corruptRecord | constraint
deriving DecidableEq

inductive Operation
  | syncToken (endpoint : CalendarEndpoint)
  | clearSyncToken (endpoint : CalendarEndpoint)
  | beginChangeBatch (endpoint : CalendarEndpoint) (mode : ChangeBatchMode)
  | stage (events : List SourceEvent) (batch : ChangeBatchHandle)
  | commit (batch : ChangeBatchHandle) (nextSyncToken : Option String)
  | abandon (batch : ChangeBatchHandle)
  | observations (endpoint : CalendarEndpoint)
  | projection (key : ProjectionKey)
  | saveProjection (projection : StoredProjection)
  | deleteProjection (key : ProjectionKey)
  | enqueue (effect : OutboxEffect)
  | dueEffects (date : Instant) (limit : Int)
  | markApplying (id : Nat)
  | markSucceeded (id : Nat)
  | markAmbiguous (id : Nat) (error : String)
  | markQuarantined (id : Nat) (error : String)
  | scheduleRetry (id : Nat) (date : Instant) (error : String)
  | reviseEffect (id : Nat) (mutation : ProviderMutation) (date : Instant) (error : String)

/-- What an operation returns. -/
inductive Reply
  | done
  | token (token : Option String)
  | batch (batch : ChangeBatchHandle)
  | events (events : List SourceEvent)
  | projection (projection : Option StoredProjection)
  | enqueued (isNew : Bool)
  | effects (effects : List OutboxEffect)
deriving DecidableEq

/-! ## Texts -/

section Texts

variable (env : Platform)

/-- The key of an endpoint in a dictionary. -/
def canonical (endpoint : CalendarEndpoint) : CalendarEndpoint :=
  ⟨env.normalizeNFC endpoint.accountID, env.normalizeNFC endpoint.calendarID⟩

/-- `==` on endpoints. -/
def sameEndpoint (left right : CalendarEndpoint) : Bool :=
  Policy.sameText env left.accountID right.accountID &&
    Policy.sameText env left.calendarID right.calendarID

/-- `==` on projection keys. -/
def sameProjection (left right : ProjectionKey) : Bool :=
  Policy.sameText env left.policyID right.policyID &&
    Policy.sameText env left.sourceEventID right.sourceEventID &&
    match left.sourceOccurrenceID, right.sourceOccurrenceID with
    | some left, some right => Policy.sameText env left right
    | none, none => true
    | _, _ => false

/-- `sorted` by a text. -/
def sortedBy (key : SourceEvent → String) (events : List SourceEvent) : List SourceEvent :=
  events.mergeSort fun left right => !textBefore env (key right) (key left)

end Texts

/-! ## In memory -/

structure StagedBatch where
  id : Nat
  endpoint : CalendarEndpoint
  mode : ChangeBatchMode
  events : List SourceEvent

/-- The batch is that of the handle. -/
def StagedBatch.isOf (env : Platform) (batch : ChangeBatchHandle) (staged : StagedBatch) : Bool :=
  sameEndpoint env staged.endpoint batch.endpoint && staged.mode = batch.mode

/-- The states of the effects that are still to be applied. -/
def isUnfinished (state : OutboxState) : Bool :=
  state = .pending || state = .applying || state = .ambiguous

def OutboxEffect.due (date : Instant) (effect : OutboxEffect) : Bool :=
  isUnfinished effect.state && effect.nextAttemptAt ≤ date

/-- By the next attempt, then by the creation. -/
def OutboxEffect.precedes (left right : OutboxEffect) : Prop :=
  left.nextAttemptAt < right.nextAttemptAt ∨
    left.nextAttemptAt = right.nextAttemptAt ∧ left.createdAt ≤ right.createdAt

structure InMemory where
  tokens : CalendarEndpoint → Option String := fun _ => none
  storedEvents : CalendarEndpoint → List SourceEvent := fun _ => []
  batches : List StagedBatch := []
  projections : List StoredProjection := []
  effects : List OutboxEffect := []
  effectIDByIdempotencyKey : List (String × Nat) := []
  nextID : Nat := 0

namespace InMemory

def observationKey (event : SourceEvent) : String :=
  event.id ++ "\u001f" ++ event.occurrenceID.getD ""

section Operations

variable (env : Platform)

def syncToken (endpoint : CalendarEndpoint) (store : InMemory) : Option String :=
  store.tokens (canonical env endpoint)

def clearSyncToken (endpoint : CalendarEndpoint) (store : InMemory) : InMemory :=
  { store with tokens := Function.update store.tokens (canonical env endpoint) none }

def beginChangeBatch (endpoint : CalendarEndpoint) (mode : ChangeBatchMode) (store : InMemory) :
    InMemory × ChangeBatchHandle :=
  ({ store with
      batches := store.batches ++ [⟨store.nextID, endpoint, mode, []⟩]
      nextID := store.nextID + 1 },
    ⟨store.nextID, endpoint, mode⟩)

def stage (events : List SourceEvent) (batch : ChangeBatchHandle) (store : InMemory) :
    InMemory × Except StoreError Unit :=
  match store.batches.find? fun staged => staged.id = batch.id with
  | none => (store, .error .unknownBatch)
  | some staged =>
    if !staged.isOf env batch then (store, .error .mismatchedCalendar)
    else if !events.all fun event =>
        Policy.sameText env event.calendarID batch.endpoint.calendarID then
      (store, .error .mismatchedCalendar)
    else
      ({ store with
          batches := Library.updateRow StagedBatch.id batch.id
            (fun staged => { staged with events := staged.events ++ events }) store.batches },
        .ok ())

def commit (batch : ChangeBatchHandle) (nextSyncToken : Option String) (store : InMemory) :
    InMemory × Except StoreError (List SourceEvent) :=
  match store.batches.find? fun staged => staged.id = batch.id with
  | none => (store, .error .unknownBatch)
  | some staged =>
    let store := { store with batches := store.batches.filter fun other => other.id ≠ batch.id }
    if !staged.isOf env batch then (store, .error .mismatchedCalendar)
    else
      let key := canonical env batch.endpoint
      let sameKey (left right : SourceEvent) : Bool :=
        Policy.sameText env (observationKey left) (observationKey right)
      let result := Commit.run sameKey sameKey staged.mode.window staged.events
        (store.storedEvents key)
      ({ store with
          storedEvents := Function.update store.storedEvents key result.stored
          tokens := match nextSyncToken with
            | some token => Function.update store.tokens key (some token)
            | none => store.tokens },
        .ok (sortedBy env observationKey result.removed))

def abandon (batch : ChangeBatchHandle) (store : InMemory) : InMemory :=
  { store with batches := store.batches.filter fun staged => staged.id ≠ batch.id }

def observations (endpoint : CalendarEndpoint) (store : InMemory) : List SourceEvent :=
  sortedBy env observationKey (store.storedEvents (canonical env endpoint))

def projection (key : ProjectionKey) (store : InMemory) : Option StoredProjection :=
  store.projections.find? fun projection => sameProjection env projection.key key

def deleteProjection (key : ProjectionKey) (store : InMemory) : InMemory :=
  { store with
    projections := store.projections.filter fun projection =>
      !sameProjection env projection.key key }

def saveProjection (projection : StoredProjection) (store : InMemory) : InMemory :=
  let others := store.deleteProjection env projection.key
  { others with projections := others.projections ++ [projection] }

/-- The effect under an idempotency key. -/
def existing (idempotencyKey : String) (store : InMemory) : Option OutboxEffect := do
  let (_, id) ← store.effectIDByIdempotencyKey.find? fun entry =>
    Policy.sameText env entry.1 idempotencyKey
  store.effects.find? fun effect => effect.id = id

/-- `effects[effect.id] = effect`, and its entry. -/
def insert (effect : OutboxEffect) (store : InMemory) : InMemory :=
  { store with
    effects := store.effects.filter (fun other => other.id ≠ effect.id) ++ [effect]
    effectIDByIdempotencyKey :=
      store.effectIDByIdempotencyKey.filter (fun entry =>
        !Policy.sameText env entry.1 effect.idempotencyKey) ++
          [(effect.idempotencyKey, effect.id)] }

def enqueue (effect : OutboxEffect) (store : InMemory) : InMemory × Bool :=
  match store.existing env effect.idempotencyKey with
  | none => (store.insert env effect, true)
  | some existing =>
    if existing.state ≠ .succeeded then (store, false)
    else
      ({ store with effects := store.effects.filter fun other => other.id ≠ existing.id }.insert env
        effect, true)

end Operations

/-- A result of `dueEffects`: the order of effects with equal times is open. -/
def DueEffects (store : InMemory) (date : Instant) (limit : Int) (result : List OutboxEffect) :
    Prop :=
  ∃ effects : List OutboxEffect, effects.Perm (store.effects.filter (·.due date)) ∧
    effects.Pairwise OutboxEffect.precedes ∧ result = effects.take limit.toNat

def updateEffect (id : Nat) (body : OutboxEffect → OutboxEffect) (store : InMemory) :
    InMemory × Except StoreError Unit :=
  if store.effects.any fun effect => effect.id = id then
    ({ store with effects := Library.updateRow OutboxEffect.id id body store.effects }, .ok ())
  else (store, .error .unknownEffect)

def markApplying (id : Nat) : InMemory → InMemory × Except StoreError Unit :=
  updateEffect id fun effect =>
    { effect with state := .applying, attemptCount := effect.attemptCount + 1 }

def markSucceeded (id : Nat) : InMemory → InMemory × Except StoreError Unit :=
  updateEffect id fun effect => { effect with state := .succeeded }

def markAmbiguous (id : Nat) (error : String) : InMemory → InMemory × Except StoreError Unit :=
  updateEffect id fun effect => { effect with state := .ambiguous, lastError := some error }

def markQuarantined (id : Nat) (error : String) : InMemory → InMemory × Except StoreError Unit :=
  updateEffect id fun effect => { effect with state := .quarantined, lastError := some error }

def scheduleRetry (id : Nat) (date : Instant) (error : String) :
    InMemory → InMemory × Except StoreError Unit :=
  updateEffect id fun effect =>
    { effect with state := .pending, nextAttemptAt := date, lastError := some error }

def reviseEffect (id : Nat) (mutation : ProviderMutation) (date : Instant) (error : String) :
    InMemory → InMemory × Except StoreError Unit :=
  updateEffect id fun effect =>
    { effect with mutation, state := .pending, nextAttemptAt := date, lastError := some error }

/-- The state after an operation. -/
def step (env : Platform) (store : InMemory) : Operation → InMemory
  | .syncToken _ | .observations _ | .projection _ | .dueEffects _ _ => store
  | .clearSyncToken endpoint => store.clearSyncToken env endpoint
  | .beginChangeBatch endpoint mode => (store.beginChangeBatch endpoint mode).1
  | .stage events batch => (store.stage env events batch).1
  | .commit batch nextSyncToken => (store.commit env batch nextSyncToken).1
  | .abandon batch => store.abandon batch
  | .saveProjection projection => store.saveProjection env projection
  | .deleteProjection key => store.deleteProjection env key
  | .enqueue effect => (store.enqueue env effect).1
  | .markApplying id => (store.markApplying id).1
  | .markSucceeded id => (store.markSucceeded id).1
  | .markAmbiguous id error => (store.markAmbiguous id error).1
  | .markQuarantined id error => (store.markQuarantined id error).1
  | .scheduleRetry id date error => (store.scheduleRetry id date error).1
  | .reviseEffect id mutation date error => (store.reviseEffect id mutation date error).1

/-- What an operation may return or throw. -/
def Returns (env : Platform) (store : InMemory) : Operation → Except StoreError Reply → Prop
  | .syncToken endpoint, reply => reply = .ok (.token (store.syncToken env endpoint))
  | .beginChangeBatch endpoint mode, reply =>
    reply = .ok (.batch (store.beginChangeBatch endpoint mode).2)
  | .stage events batch, reply => reply = (store.stage env events batch).2.map fun _ => .done
  | .commit batch nextSyncToken, reply =>
    reply = (store.commit env batch nextSyncToken).2.map .events
  | .observations endpoint, reply => reply = .ok (.events (store.observations env endpoint))
  | .projection key, reply => reply = .ok (.projection (store.projection env key))
  | .enqueue effect, reply => reply = .ok (.enqueued (store.enqueue env effect).2)
  | .dueEffects date limit, reply =>
    ∃ effects, store.DueEffects date limit effects ∧ reply = .ok (.effects effects)
  | .markApplying id, reply => reply = (store.markApplying id).2.map fun _ => .done
  | .markSucceeded id, reply => reply = (store.markSucceeded id).2.map fun _ => .done
  | .markAmbiguous id error, reply => reply = (store.markAmbiguous id error).2.map fun _ => .done
  | .markQuarantined id error, reply =>
    reply = (store.markQuarantined id error).2.map fun _ => .done
  | .scheduleRetry id date error, reply =>
    reply = (store.scheduleRetry id date error).2.map fun _ => .done
  | .reviseEffect id mutation date error, reply =>
    reply = (store.reviseEffect id mutation date error).2.map fun _ => .done
  | .clearSyncToken _, reply | .abandon _, reply | .saveProjection _, reply
  | .deleteProjection _, reply => reply = .ok .done

end InMemory

/-! ## Encrypted -/

/-- What the standard library makes of the values that are stored. Of dates and REAL values only the
order is used. -/
structure Encoding where
  /-- `timeIntervalSince1970`, the value of a REAL column. -/
  seconds : Instant → Int
  /-- `Date(timeIntervalSince1970:)`. -/
  date : Int → Instant
  seconds_mono : ∀ {left right}, left ≤ right → seconds left ≤ seconds right
  /-- The scalar is part of the `Character` of a digit before it. -/
  joins : Char → Bool

inductive PersistedMode
  | incremental
  | full (start finish : Int)
deriving DecidableEq

/-- A row of `change_batches`, with its rows of `staged_observations` in their sequence. -/
structure BatchRow where
  id : Nat
  endpoint : CalendarEndpoint
  mode : PersistedMode
  staged : List SourceEvent

structure ProjectionRow where
  policyID : String
  sourceEventID : String
  sourceOccurrenceKey : String
  destinationEndpoint : CalendarEndpoint
  destinationEventID : String
  desiredFingerprint : Digest DesiredCopy
  providerRevision : Option String
  hold : Option DestinationEditHold
  detached : Bool
  updatedAt : Int

structure EffectRow where
  id : Nat
  idempotencyKey : String
  policyID : String
  sourceEventID : String
  sourceOccurrenceKey : String
  mutation : ProviderMutation
  state : OutboxState
  attemptCount : Int
  nextAttemptAt : Int
  lastError : Option String
  createdAt : Int

structure Encrypted where
  cursors : List (CalendarEndpoint × String) := []
  /-- `observations`, with the calendar of every row. -/
  rows : List (CalendarEndpoint × SourceEvent) := []
  changeBatches : List BatchRow := []
  projections : List ProjectionRow := []
  outboxEffects : List EffectRow := []
  nextID : Nat := 0

section Encoding

variable (encoding : Encoding)

/-- `occurrenceID(from:)`: the first `Character` tells whether there is an ID. -/
def occurrenceID (occurrenceKey : String) : Except StoreError (Option String) :=
  if occurrenceKey = "0" then .ok none
  else
    match occurrenceKey.toList with
    | '1' :: rest =>
      if rest.head?.any encoding.joins then .error .corruptRecord
      else .ok (some (String.ofList rest))
    | _ => .error .corruptRecord

/-- `endpoint(provider:accountID:calendarID:)`. -/
def decodedEndpoint (endpoint : CalendarEndpoint) : Except StoreError CalendarEndpoint :=
  if endpoint.accountID.isEmpty || endpoint.calendarID.isEmpty then .error .corruptRecord
  else .ok endpoint

def persistedMode : ChangeBatchMode → PersistedMode
  | .incremental => .incremental
  | .full start finish => .full (encoding.seconds start) (encoding.seconds finish)

def decodedMode : PersistedMode → ChangeBatchMode
  | .incremental => .incremental
  | .full start finish => .full (encoding.date start) (encoding.date finish)

/-- The window of a full traversal, in a query on the REAL columns. -/
def storedWindow : ChangeBatchMode → Option (SourceEvent → Bool)
  | .incremental => none
  | .full start finish => some fun event =>
    encoding.seconds event.finish > encoding.seconds start &&
      encoding.seconds event.start < encoding.seconds finish

def ProjectionRow.of (projection : StoredProjection) : ProjectionRow where
  policyID := projection.key.policyID
  sourceEventID := projection.key.sourceEventID
  sourceOccurrenceKey := occurrenceKey projection.key.sourceOccurrenceID
  destinationEndpoint := projection.destinationEndpoint
  destinationEventID := projection.destinationEventID
  desiredFingerprint := projection.desiredFingerprint
  providerRevision := projection.providerRevision
  hold := projection.hold
  detached := projection.detached
  updatedAt := encoding.seconds projection.updatedAt

/-- `projection(from:)`. -/
def ProjectionRow.decode (row : ProjectionRow) : Except StoreError StoredProjection := do
  let sourceOccurrenceID ← occurrenceID encoding row.sourceOccurrenceKey
  let destinationEndpoint ← decodedEndpoint row.destinationEndpoint
  return {
    key := ⟨row.policyID, row.sourceEventID, sourceOccurrenceID⟩
    destinationEndpoint
    destinationEventID := row.destinationEventID
    desiredFingerprint := row.desiredFingerprint
    providerRevision := row.providerRevision
    hold := row.hold
    detached := row.detached
    updatedAt := encoding.date row.updatedAt }

def EffectRow.of (effect : OutboxEffect) : EffectRow where
  id := effect.id
  idempotencyKey := effect.idempotencyKey
  policyID := effect.projectionKey.policyID
  sourceEventID := effect.projectionKey.sourceEventID
  sourceOccurrenceKey := occurrenceKey effect.projectionKey.sourceOccurrenceID
  mutation := effect.mutation
  state := effect.state
  attemptCount := effect.attemptCount
  nextAttemptAt := encoding.seconds effect.nextAttemptAt
  lastError := effect.lastError
  createdAt := encoding.seconds effect.createdAt

/-- `effect(from:)`. -/
def EffectRow.decode (row : EffectRow) : Except StoreError OutboxEffect := do
  let sourceOccurrenceID ← occurrenceID encoding row.sourceOccurrenceKey
  return {
    id := row.id
    idempotencyKey := row.idempotencyKey
    projectionKey := ⟨row.policyID, row.sourceEventID, sourceOccurrenceID⟩
    mutation := row.mutation
    state := row.state
    attemptCount := row.attemptCount
    nextAttemptAt := encoding.date row.nextAttemptAt
    lastError := row.lastError
    createdAt := encoding.date row.createdAt }

end Encoding

/-- The primary key of `projections`. -/
def ProjectionRow.isOf (key : ProjectionKey) (row : ProjectionRow) : Bool :=
  row.policyID = key.policyID && row.sourceEventID = key.sourceEventID &&
    row.sourceOccurrenceKey = occurrenceKey key.sourceOccurrenceID

def EffectRow.due (encoding : Encoding) (date : Instant) (row : EffectRow) : Bool :=
  isUnfinished row.state && row.nextAttemptAt ≤ encoding.seconds date

/-- `ORDER BY next_attempt_at, created_at`. -/
def EffectRow.precedes (left right : EffectRow) : Prop :=
  left.nextAttemptAt < right.nextAttemptAt ∨
    left.nextAttemptAt = right.nextAttemptAt ∧ left.createdAt ≤ right.createdAt

namespace Encrypted

section Operations

variable (env : Platform) (encoding : Encoding)

def syncToken (endpoint : CalendarEndpoint) (store : Encrypted) : Option String :=
  (store.cursors.find? fun row => row.1 = endpoint).map (·.2)

def clearSyncToken (endpoint : CalendarEndpoint) (store : Encrypted) : Encrypted :=
  { store with cursors := store.cursors.filter fun row => row.1 ≠ endpoint }

def beginChangeBatch (endpoint : CalendarEndpoint) (mode : ChangeBatchMode) (store : Encrypted) :
    Encrypted × ChangeBatchHandle :=
  ({ store with
      changeBatches := store.changeBatches ++
        [⟨store.nextID, endpoint, persistedMode encoding mode, []⟩]
      nextID := store.nextID + 1 },
    ⟨store.nextID, endpoint, mode⟩)

def validate (batch : ChangeBatchHandle) (store : Encrypted) : Except StoreError BatchRow :=
  match store.changeBatches.find? fun row => row.id = batch.id with
  | none => .error .unknownBatch
  | some row => do
    let endpoint ← decodedEndpoint row.endpoint
    if sameEndpoint env endpoint batch.endpoint && decodedMode encoding row.mode = batch.mode then
      return row
    else throw .mismatchedCalendar

def stage (events : List SourceEvent) (batch : ChangeBatchHandle) (store : Encrypted) :
    Encrypted × Except StoreError Unit :=
  if !events.all fun event => Policy.sameText env event.calendarID batch.endpoint.calendarID then
    (store, .error .mismatchedCalendar)
  else
    match store.validate env encoding batch with
    | .error error => (store, .error error)
    | .ok _ =>
      ({ store with
          changeBatches := Library.updateRow BatchRow.id batch.id
            (fun row => { row with staged := row.staged ++ events }) store.changeBatches },
        .ok ())

/-- The rows of a calendar. -/
def stored (endpoint : CalendarEndpoint) (store : Encrypted) : List SourceEvent :=
  (store.rows.filter fun row => row.1 = endpoint).map (·.2)

def commit (batch : ChangeBatchHandle) (nextSyncToken : Option String) (store : Encrypted) :
    Encrypted × Except StoreError (List SourceEvent) :=
  match store.validate env encoding batch with
  | .error error => (store, .error error)
  | .ok row =>
    let sameKey (left right : SourceEvent) : Bool :=
      Policy.sameText env (observationKey left) (observationKey right)
    let result := Commit.run sameObservation sameKey (storedWindow encoding batch.mode) row.staged
      (store.stored batch.endpoint)
    ({ store with
        rows := store.rows.filter (fun row => row.1 ≠ batch.endpoint) ++
          result.stored.map fun event => (batch.endpoint, event)
        cursors := match nextSyncToken with
          | some token =>
            store.cursors.filter (fun row => row.1 ≠ batch.endpoint) ++ [(batch.endpoint, token)]
          | none => store.cursors
        changeBatches := store.changeBatches.filter fun row => row.id ≠ batch.id },
      .ok (sortedBy env observationKey result.removed))

def abandon (batch : ChangeBatchHandle) (store : Encrypted) : Encrypted :=
  { store with changeBatches := store.changeBatches.filter fun row => row.id ≠ batch.id }

def observations (endpoint : CalendarEndpoint) (store : Encrypted) : List SourceEvent :=
  (store.stored endpoint).mergeSort rowOrder

def projection (key : ProjectionKey) (store : Encrypted) :
    Except StoreError (Option StoredProjection) :=
  match store.projections.find? (·.isOf key) with
  | none => .ok none
  | some row => (row.decode encoding).map some

def deleteProjection (key : ProjectionKey) (store : Encrypted) : Encrypted :=
  { store with projections := store.projections.filter fun row => !row.isOf key }

def saveProjection (projection : StoredProjection) (store : Encrypted) : Encrypted :=
  let others := store.deleteProjection projection.key
  { others with projections := others.projections ++ [ProjectionRow.of encoding projection] }

/-- `INSERT INTO outbox_effects`; the rows that were there are kept where it throws. -/
def insert (effect : OutboxEffect) (others : List EffectRow) (store : Encrypted) :
    Encrypted × Except StoreError Bool :=
  if others.any (fun row => row.id = effect.id) || effect.attemptCount < 0 then
    (store, .error .constraint)
  else ({ store with outboxEffects := others ++ [EffectRow.of encoding effect] }, .ok true)

def enqueue (effect : OutboxEffect) (store : Encrypted) : Encrypted × Except StoreError Bool :=
  match store.outboxEffects.find? fun row => row.idempotencyKey = effect.idempotencyKey with
  | none => store.insert encoding effect store.outboxEffects
  | some existing =>
    if existing.state ≠ .succeeded then (store, .ok false)
    else store.insert encoding effect (store.outboxEffects.filter fun row => row.id ≠ existing.id)

/-- A result of `dueEffects`: the order of effects with equal times is open. -/
def DueEffects (store : Encrypted) (date : Instant) (limit : Int)
    (result : Except StoreError (List OutboxEffect)) : Prop :=
  if limit ≤ 0 then result = .ok []
  else
    ∃ rows : List EffectRow, rows.Perm (store.outboxEffects.filter (·.due encoding date)) ∧
      rows.Pairwise EffectRow.precedes ∧
      result = (rows.take limit.toNat).mapM (EffectRow.decode encoding)

end Operations

def updateEffect (id : Nat) (body : EffectRow → EffectRow) (store : Encrypted) :
    Encrypted × Except StoreError Unit :=
  if store.outboxEffects.any fun row => row.id = id then
    ({ store with outboxEffects := Library.updateRow EffectRow.id id body store.outboxEffects },
      .ok ())
  else (store, .error .unknownEffect)

def markApplying (id : Nat) : Encrypted → Encrypted × Except StoreError Unit :=
  updateEffect id fun row => { row with state := .applying, attemptCount := row.attemptCount + 1 }

def markSucceeded (id : Nat) : Encrypted → Encrypted × Except StoreError Unit :=
  updateEffect id fun row => { row with state := .succeeded }

def markAmbiguous (id : Nat) (error : String) : Encrypted → Encrypted × Except StoreError Unit :=
  updateEffect id fun row => { row with state := .ambiguous, lastError := some error }

def markQuarantined (id : Nat) (error : String) : Encrypted → Encrypted × Except StoreError Unit :=
  updateEffect id fun row => { row with state := .quarantined, lastError := some error }

def scheduleRetry (encoding : Encoding) (id : Nat) (date : Instant) (error : String) :
    Encrypted → Encrypted × Except StoreError Unit :=
  updateEffect id fun row =>
    { row with
      state := .pending
      nextAttemptAt := encoding.seconds date
      lastError := some error }

def reviseEffect (encoding : Encoding) (id : Nat) (mutation : ProviderMutation) (date : Instant)
    (error : String) : Encrypted → Encrypted × Except StoreError Unit :=
  updateEffect id fun row =>
    { row with
      mutation
      state := .pending
      nextAttemptAt := encoding.seconds date
      lastError := some error }

section Operations

variable (env : Platform) (encoding : Encoding) (store : Encrypted)

/-- The state after an operation. -/
def step : Operation → Encrypted
  | .syncToken _ | .observations _ | .projection _ | .dueEffects _ _ => store
  | .clearSyncToken endpoint => store.clearSyncToken endpoint
  | .beginChangeBatch endpoint mode => (store.beginChangeBatch encoding endpoint mode).1
  | .stage events batch => (store.stage env encoding events batch).1
  | .commit batch nextSyncToken => (store.commit env encoding batch nextSyncToken).1
  | .abandon batch => store.abandon batch
  | .saveProjection projection => store.saveProjection encoding projection
  | .deleteProjection key => store.deleteProjection key
  | .enqueue effect => (store.enqueue encoding effect).1
  | .markApplying id => (store.markApplying id).1
  | .markSucceeded id => (store.markSucceeded id).1
  | .markAmbiguous id error => (store.markAmbiguous id error).1
  | .markQuarantined id error => (store.markQuarantined id error).1
  | .scheduleRetry id date error => (store.scheduleRetry encoding id date error).1
  | .reviseEffect id mutation date error => (store.reviseEffect encoding id mutation date error).1

/-- What an operation may return or throw. -/
def Returns : Operation → Except StoreError Reply → Prop
  | .syncToken endpoint, reply => reply = .ok (.token (store.syncToken endpoint))
  | .beginChangeBatch endpoint mode, reply =>
    reply = .ok (.batch (store.beginChangeBatch encoding endpoint mode).2)
  | .stage events batch, reply =>
    reply = (store.stage env encoding events batch).2.map fun _ => .done
  | .commit batch nextSyncToken, reply =>
    reply = (store.commit env encoding batch nextSyncToken).2.map .events
  | .observations endpoint, reply => reply = .ok (.events (store.observations endpoint))
  | .projection key, reply => reply = (store.projection encoding key).map .projection
  | .enqueue effect, reply => reply = (store.enqueue encoding effect).2.map .enqueued
  | .dueEffects date limit, reply =>
    ∃ effects, store.DueEffects encoding date limit effects ∧ reply = effects.map .effects
  | .markApplying id, reply => reply = (store.markApplying id).2.map fun _ => .done
  | .markSucceeded id, reply => reply = (store.markSucceeded id).2.map fun _ => .done
  | .markAmbiguous id error, reply => reply = (store.markAmbiguous id error).2.map fun _ => .done
  | .markQuarantined id error, reply =>
    reply = (store.markQuarantined id error).2.map fun _ => .done
  | .scheduleRetry id date error, reply =>
    reply = (store.scheduleRetry encoding id date error).2.map fun _ => .done
  | .reviseEffect id mutation date error, reply =>
    reply = (store.reviseEffect encoding id mutation date error).2.map fun _ => .done
  | .clearSyncToken _, reply | .abandon _, reply | .saveProjection _, reply
  | .deleteProjection _, reply => reply = .ok .done

end Operations

end Encrypted

end Planipus.Native.Stores

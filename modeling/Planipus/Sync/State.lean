import Planipus.Sync.Rows

/-!
# The state of the sync service around one projection

Everything the server's operations on one projection read and write: the committed rows, the
destination calendar, and what work in progress holds outside the database: the versions of the
source event that reconcile passes have read, the verification targets and lookups of the verifier,
and the owners of leases whose worker is gone.

An owner stands for one `runBatch` of a worker. A worker has one batch in hand at a time, so a lease
under an owner is held by that batch or, once the batch has crashed, by nobody.
-/

namespace Planipus.Sync

open CalendarSync Provider

/-- What `loadTarget` returns, without the calendar's address. -/
structure VerificationTarget where
  policyRevision : Nat
  sourceBasisHash : Option (Digest SourceBasis)
  generation : Nat
  intentSequence : Nat
  destinationEventId : EventId
  destinationRevision : Option Revision
  desiredHash : Digest DesiredCopy
  desiredState : DesiredCopy
deriving DecidableEq

/-- A verification target with what `getEvent` returned for it. -/
structure Lookup where
  target : VerificationTarget
  observed : Option RemoteEvent
deriving DecidableEq

structure State where
  policyStatus : PolicyStatus
  source : Endpoint
  destination : Endpoint
  observation : ObservationRow
  projection : Option ProjectionRow
  effects : List EffectRow
  notices : List NoticeRow
  jobs : List JobKey
  calendar : Calendar
  passOpen : Bool
  reads : List ObservationRow
  targets : List VerificationTarget
  lookups : List Lookup
  crashed : List Owner

namespace State

/-- No outbox row has the ID. -/
def freshEffect (s : State) (id : EffectId) : Bool := s.effects.all fun e => e.id ≠ id

/-- An outbox insert: `none` when the idempotency key is taken. -/
def insertEffect (s : State) (row : EffectRow) : Option State :=
  if s.effects.any fun e => e.idempotencyKey = row.idempotencyKey then none
  else some { s with effects := s.effects ++ [row] }

/-- The enqueue of a job, which does nothing when one with its key is waiting. -/
def enqueue (s : State) (key : JobKey) : State :=
  if key ∈ s.jobs then s else { s with jobs := s.jobs ++ [key] }

def hasUnfinished (s : State) : Bool := s.effects.any EffectRow.unfinished

def hasDead (s : State) : Bool := s.effects.any EffectRow.dead

theorem insertEffect_some {s s' : State} {row : EffectRow} (h : s.insertEffect row = some s') :
    s' = { s with effects := s.effects ++ [row] } := by
  unfold insertEffect at h
  split at h
  · cases h
  · cases h
    rfl

theorem enqueue_eq (s : State) (key : JobKey) : ∃ jobs, s.enqueue key = { s with jobs } := by
  unfold enqueue
  split
  · exact ⟨s.jobs, rfl⟩
  · exact ⟨_, rfl⟩

end State

/-- The ID and creation time of an inserted outbox row. The time is the start of the inserting
transaction, which need not be the latest. -/
structure Insertion where
  id : EffectId
  createdAt : Instant
deriving DecidableEq

end Planipus.Sync

import Mathlib.Algebra.Group.Nat.Defs
import Mathlib.Data.List.Sort
import Planipus.CalendarSync.Types
import Planipus.Library.Machine
import Planipus.Library.Rows

/-!
# The job queue

`PostgresJobQueue` (`server/src/jobs/queue.ts`) over the table `scheduled_jobs` and its partial
unique index. A job is active while it is pending, leased or in retry, and the index allows one
active job for a key: `enqueue` inserts `on conflict do nothing`.

An enqueue is a statement of a transaction, mostly of the one that also makes the change the job is
for (`setPaused`, `activate`), so a transaction stays open between its statements and its commit. A
call without an executor is a transaction of its own around the one statement. The other operations
are transactions without a wait, each one event.

Some members are no columns and no variables of the source, and no operation decides by them: the
log of the leases (`started`), the changes that jobs are for, and which of them an enqueue was
called for.
-/

namespace Planipus.Jobs

open CalendarSync Library

/-! ## Rows -/

/-- The columns of `scheduled_jobs_active_dedupe_idx`. -/
structure JobKey where
  organizationId : String
  kind : String
  dedupeKey : String
deriving DecidableEq

inductive JobState | pending | leased | retry | succeeded | dead
deriving DecidableEq

/-- The condition of the partial index. -/
def JobState.active : JobState → Bool
  | .pending | .leased | .retry => true
  | .succeeded | .dead => false

/-- The states from which a lease takes a job. -/
def JobState.waiting : JobState → Bool
  | .pending | .retry => true
  | .leased | .succeeded | .dead => false

/-- A JSON value, as far as `assertJobPayload` tells values apart. -/
inductive Payload
  | object (text : String)
  | array (text : String)
  | scalar (text : String)
deriving DecidableEq

/-- `false`: it throws a `TypeError`. -/
def assertJobPayload : Payload → Bool
  | .object _ | .array _ => true
  | .scalar _ => false

structure ScheduledJob where
  id : Nat
  key : JobKey
  payload : Payload
  state : JobState
  attemptCount : Nat
  runAfter : Instant
  leaseOwner : Option String
  leaseExpiresAt : Option Instant
  safeErrorCode : Option String
  updatedAt : Instant
deriving DecidableEq

/-- A committed change. `since` is the number of leases of the key before the commit. -/
structure Change where
  key : JobKey
  since : Nat
deriving DecidableEq

/-- An open transaction with the rows it has inserted. `locked` are the advisory locks that
`enqueueOnce` has taken, and `absent` the keys for which it has found no job. -/
structure Transaction where
  id : Nat
  inserted : List ScheduledJob
  locked : List JobKey
  absent : List JobKey
  /-- The keys whose subject the transaction changes. -/
  changed : List JobKey
  /-- The keys for which it has called `enqueue`. -/
  called : List JobKey
  /-- The changes that were committed when it called `enqueue` for their key. -/
  answers : List Change
deriving DecidableEq

structure State where
  now : Instant
  nextId : Nat
  jobs : List ScheduledJob
  transactions : List Transaction
  /-- The key of every job that was leased, the last one first. -/
  started : List JobKey
  changes : List Change
  /-- The committed changes for which `enqueue` was called, and the call is committed. -/
  called : List Change

namespace State

def transaction? (s : State) (t : Nat) : Option Transaction := s.transactions.find? (·.id = t)

/-- The number of executions of the key that have started. -/
def starts (s : State) (key : JobKey) : Nat := s.started.count key

end State

/-! ## Enqueue -/

/-- The row that `enqueue` inserts. -/
def newJob (s : State) (key : JobKey) (payload : Payload) (runAfter : Instant) : ScheduledJob :=
  { id := s.nextId, key, payload, state := .pending, attemptCount := 0, runAfter, leaseOwner := none
    leaseExpiresAt := none, safeErrorCode := none, updatedAt := s.now }

/-- The unique index has an active row of the key, committed or of the transaction itself. -/
def conflict (s : State) (tx : Transaction) (key : JobKey) : Bool :=
  (s.jobs ++ tx.inserted).any fun job => job.key = key && job.state.active

/-- The insertion waits for another transaction that has inserted the key. -/
def insertionWaits (s : State) (t : Nat) (key : JobKey) : Bool :=
  s.transactions.any fun tx => tx.id ≠ t && tx.inserted.any (·.key = key)

/-- The transaction after an `enqueue` that has not waited. -/
def Transaction.enqueue (s : State) (tx : Transaction) (key : JobKey) (payload : Payload)
    (runAfter : Instant) : Transaction :=
  { tx with
    inserted :=
      if conflict s tx key then tx.inserted else tx.inserted ++ [newJob s key payload runAfter]
    called := key :: tx.called
    answers := tx.answers ++ s.changes.filter (·.key = key) }

/-- The call is made by an open transaction, does not throw and does not wait. -/
def enqueues (s : State) (t : Nat) (key : JobKey) (payload : Payload) : Bool :=
  (s.transaction? t).isSome && assertJobPayload payload && !insertionWaits s t key

/-- What the call returns: the id of the new job, or `null` when an active job has absorbed it. -/
def enqueueResult (s : State) (t : Nat) (key : JobKey) : Option Nat :=
  (s.transaction? t).bind fun tx => if conflict s tx key then none else some s.nextId

def enqueue (t : Nat) (key : JobKey) (payload : Payload) (runAfter : Instant) (s : State) : State :=
  if enqueues s t key payload then
    { s with
      nextId := s.nextId + 1
      transactions :=
        updateRow Transaction.id t (fun tx => tx.enqueue s key payload runAfter) s.transactions }
  else s

/-- The advisory lock of the key is held by another transaction. -/
def lockWaits (s : State) (t : Nat) (key : JobKey) : Bool :=
  s.transactions.any fun tx => tx.id ≠ t && decide (key ∈ tx.locked)

/-- The lookup sees the committed rows in every state, and those of the transaction. -/
def Transaction.lookup (s : State) (tx : Transaction) (key : JobKey) : Transaction :=
  { tx with
    locked := key :: tx.locked
    absent :=
      if (s.jobs ++ tx.inserted).any (·.key = key) then tx.absent.filter (· ≠ key)
      else key :: tx.absent }

/-- The lock and the lookup of `enqueueOnce`. -/
def lookupOnce (t : Nat) (key : JobKey) (s : State) : State :=
  if lockWaits s t key then s
  else { s with transactions := updateRow Transaction.id t (fun tx => tx.lookup s key) s.transactions }

def absent (s : State) (t : Nat) (key : JobKey) : Bool :=
  (s.transaction? t).any fun tx => decide (key ∈ tx.absent)

/-- The rest of `enqueueOnce`, which returns `null` when the lookup has found a job. -/
def enqueueOnce (t : Nat) (key : JobKey) (payload : Payload) (runAfter : Instant) (s : State) :
    State :=
  if absent s t key then enqueue t key payload runAfter s else s

/-! ## Transactions -/

def beginTransaction (t : Nat) (s : State) : State :=
  if (s.transaction? t).isSome then s
  else { s with transactions := s.transactions ++ [⟨t, [], [], [], [], [], []⟩] }

/-- The transaction changes what the jobs of the key are for. -/
def change (t : Nat) (key : JobKey) (s : State) : State :=
  { s with
    transactions :=
      updateRow Transaction.id t (fun tx => { tx with changed := key :: tx.changed }) s.transactions }

/-- The changes of the transaction, if it commits now. -/
def Transaction.changes (s : State) (tx : Transaction) : List Change :=
  tx.changed.map fun key => ⟨key, s.starts key⟩

def commit (t : Nat) (s : State) : State :=
  match s.transaction? t with
  | none => s
  | some tx =>
    { s with
      jobs := s.jobs ++ tx.inserted
      transactions := s.transactions.filter (·.id ≠ t)
      changes := s.changes ++ tx.changes s
      called := s.called ++ tx.answers ++ (tx.changes s).filter fun c => decide (c.key ∈ tx.called) }

def rollback (t : Nat) (s : State) : State :=
  { s with transactions := s.transactions.filter (·.id ≠ t) }

/-! ## Lease -/

structure LeaseInput where
  owner : String
  limit : Nat
  leaseSeconds : Int
  /-- The rows that `skip locked` passes over. -/
  locked : List Nat

/-- An expired lease becomes a retry. -/
def expire (now : Instant) (job : ScheduledJob) : ScheduledJob :=
  if job.state = .leased && job.leaseExpiresAt.any (· < now) then
    { job with state := .retry, leaseOwner := none, leaseExpiresAt := none }
  else job

/-- The order of the selection. -/
def dueBefore (a b : ScheduledJob) : Prop :=
  a.runAfter < b.runAfter ∨ (a.runAfter = b.runAfter ∧ a.id ≤ b.id)

instance : DecidableRel dueBefore := fun a b =>
  inferInstanceAs (Decidable (a.runAfter < b.runAfter ∨ (a.runAfter = b.runAfter ∧ a.id ≤ b.id)))

/-- The rows that the lease selects for update. -/
def dueJobs (input : LeaseInput) (now : Instant) (jobs : List ScheduledJob) : List ScheduledJob :=
  ((jobs.filter fun job =>
    job.state.waiting && decide (job.runAfter ≤ now) && decide (job.id ∉ input.locked)).insertionSort
      dueBefore).take input.limit

def claim (input : LeaseInput) (now : Instant) (job : ScheduledJob) : ScheduledJob :=
  { job with
    state := .leased
    leaseOwner := some input.owner
    leaseExpiresAt := some (now + input.leaseSeconds * 1000)
    attemptCount := job.attemptCount + 1
    updatedAt := now }

/-- What a worker gets of a job. -/
structure LeasedJob where
  id : Nat
  organizationId : String
  kind : String
  payload : Payload
  attemptCount : Nat
deriving DecidableEq

def leasedJobs (input : LeaseInput) (s : State) : List LeasedJob :=
  (dueJobs input s.now (s.jobs.map (expire s.now))).map fun job =>
    ⟨job.id, job.key.organizationId, job.key.kind, job.payload, job.attemptCount + 1⟩

/-- The lease takes the job. -/
def claims (input : LeaseInput) (s : State) (job : ScheduledJob) : Bool :=
  decide (job.id ∈ (leasedJobs input s).map LeasedJob.id)

def lease (input : LeaseInput) (s : State) : State :=
  let jobs := s.jobs.map (expire s.now)
  { s with
    jobs := jobs.map fun job => if claims input s job then claim input s.now job else job
    started := (jobs.filter (claims input s)).map ScheduledJob.key ++ s.started }

/-! ## Transitions of a leased job -/

/-- The condition of `renew` and of `transition`. -/
def ownedBy (id : Nat) (owner : String) (job : ScheduledJob) : Bool :=
  decide (job.id = id) && job.state = .leased && job.leaseOwner = some owner

/-- Update the row while the worker still owns it. Without such a row `transition` throws a
`JobLeaseLostError` and `renew` returns `false`, and no row is changed. -/
def updateOwned (id : Nat) (owner : String) (f : ScheduledJob → ScheduledJob) (s : State) : State :=
  { s with jobs := s.jobs.map fun job => if ownedBy id owner job then f job else job }

def renew (id : Nat) (owner : String) (leaseSeconds : Int) (s : State) : State :=
  updateOwned id owner (fun job =>
    { job with leaseExpiresAt := some (s.now + leaseSeconds * 1000), updatedAt := s.now }) s

def succeed (id : Nat) (owner : String) (s : State) : State :=
  updateOwned id owner (fun job =>
    { job with
      state := .succeeded, leaseOwner := none, leaseExpiresAt := none, safeErrorCode := none
      updatedAt := s.now }) s

/-- An error as `fail` sees it: its field `retryable` and its safe code. -/
structure JobError where
  retryable : Option Bool
  safeErrorCode : String
deriving DecidableEq

/-- The delay in milliseconds. `jitter` is `Math.random()` in milliseconds. -/
def retryDelay (attemptCount jitter : Nat) : Nat :=
  min (3600 * 1000) (2 ^ min attemptCount 10 * 1000 + jitter)

def fail (id : Nat) (owner : String) (error : JobError) (attemptCount jitter : Nat) (s : State) :
    State :=
  let dead : Bool := error.retryable = some false || decide (10 ≤ attemptCount)
  updateOwned id owner (fun job =>
    { job with
      state := if dead then .dead else .retry
      leaseOwner := none
      leaseExpiresAt := none
      runAfter := s.now + retryDelay attemptCount jitter
      safeErrorCode := some error.safeErrorCode
      updatedAt := s.now }) s

/-- The scheduler deletes old terminal rows. -/
def cleanup (s : State) : State :=
  { s with
    jobs := s.jobs.filter fun job =>
      job.state.active || decide (s.now - 7 * 86400000 ≤ job.updatedAt) }

/-! ## The machine -/

inductive Event
  | beginTransaction (t : Nat)
  | change (t : Nat) (key : JobKey)
  | enqueue (t : Nat) (key : JobKey) (payload : Payload) (runAfter : Instant)
  | lookupOnce (t : Nat) (key : JobKey)
  | enqueueOnce (t : Nat) (key : JobKey) (payload : Payload) (runAfter : Instant)
  | commit (t : Nat)
  | rollback (t : Nat)
  | lease (input : LeaseInput)
  | renew (id : Nat) (owner : String) (leaseSeconds : Int)
  | succeed (id : Nat) (owner : String)
  | fail (id : Nat) (owner : String) (error : JobError) (attemptCount jitter : Nat)
  | cleanup
  | tick (elapsed : Nat)

def step (s : State) : Event → State
  | .beginTransaction t => beginTransaction t s
  | .change t key => change t key s
  | .enqueue t key payload runAfter => enqueue t key payload runAfter s
  | .lookupOnce t key => lookupOnce t key s
  | .enqueueOnce t key payload runAfter => enqueueOnce t key payload runAfter s
  | .commit t => commit t s
  | .rollback t => rollback t s
  | .lease input => lease input s
  | .renew id owner leaseSeconds => renew id owner leaseSeconds s
  | .succeed id owner => succeed id owner s
  | .fail id owner error attemptCount jitter => fail id owner error attemptCount jitter s
  | .cleanup => cleanup s
  | .tick elapsed => { s with now := s.now + elapsed }

/-- An empty table. -/
def State.start (now : Instant) : State := ⟨now, 0, [], [], [], [], []⟩

def queue : Machine State Event where
  Init s := ∃ now, s = .start now
  step := step

end Planipus.Jobs

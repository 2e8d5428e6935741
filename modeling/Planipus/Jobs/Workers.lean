import Mathlib.Logic.Function.Basic
import Planipus.Jobs.Queue

/-!
# The workers over the queue

The loop of `commands/worker.ts` and `processLeasedJob` (`server/src/jobs/leased-job.ts`), for any
number of processes over one table. A worker leases at most one job, runs it, and leases the next
one only after `processLeasedJob` has returned. Every statement to the database is an event of its
own, so the statements of all workers interleave freely, and each worker has its own clock.

A statement may fail. Then the worker gets no reply, and the database may have executed the
statement nevertheless. A heartbeat ignores this; every other failure leaves the loop and ends the
process. The owner name has a random part that is drawn once, so a name is never used again.

The logs are no columns and no variables of the source, and no operation decides by them: the
leases that were granted, what `processLeasedJob` has returned, and the transitions that have been
written. A lease is numbered by the leases before it.
-/

namespace Planipus.Jobs

open CalendarSync Library

/-- How a dispatch ends. `jitter` is `Math.random()` in milliseconds. -/
inductive Outcome
  | done
  | threw (error : JobError) (jitter : Nat)
deriving DecidableEq

inductive LeasedJobResult | succeeded | failed | leaseLost
deriving DecidableEq

/-- A call of `processLeasedJob`. `ownershipLost` is the variable of its heartbeat, and `term` the
number of its lease. -/
structure Call where
  job : LeasedJob
  term : Nat
  ownershipLost : Bool
deriving DecidableEq

/-- Where a worker is. It is `confirming` from the end of the dispatch to the reply of the last
renewal. -/
inductive Phase
  | idle
  | dispatching (call : Call)
  | confirming (call : Call) (outcome : Outcome)
  | transitioning (call : Call) (outcome : Outcome)
  | crashed
deriving DecidableEq

def Phase.call? : Phase → Option Call
  | .idle | .crashed => none
  | .dispatching call | .confirming call _ | .transitioning call _ => some call

/-- The call with what a heartbeat has found. -/
def Phase.withOwnershipLost (ownershipLost : Bool) : Phase → Phase
  | .dispatching call => .dispatching { call with ownershipLost }
  | .confirming call outcome => .confirming { call with ownershipLost } outcome
  | phase => phase

/-- What becomes of a statement: its reply arrives, or the worker sees an error. -/
inductive Reply
  | answered
  | lost (executed : Bool)
deriving DecidableEq

def Reply.executed : Reply → Bool
  | .answered => true
  | .lost executed => executed

structure Grant where
  term : Nat
  job : Nat
  owner : String
deriving DecidableEq

structure Report where
  owner : String
  term : Nat
  result : LeasedJobResult
deriving DecidableEq

/-- A transition that was written: the state it has left the job in. -/
structure Transition where
  term : Nat
  job : Nat
  owner : String
  state : JobState
deriving DecidableEq

structure System where
  queue : State
  workers : String → Phase
  /-- The last one first. -/
  grants : List Grant
  reports : List Report
  transitions : List Transition

/-! ## Statements -/

/-- `numUpdatedRows` of `renew` and of `transition` is one: the id is the primary key. -/
def updates (id : Nat) (owner : String) (q : State) : Bool := q.jobs.any (ownedBy id owner)

/-- The statement by which the outcome is recorded. -/
def Outcome.record (id : Nat) (owner : String) (attemptCount : Nat) : Outcome → State → State
  | .done => succeed id owner
  | .threw error jitter => fail id owner error attemptCount jitter

/-- The state that the statement writes. -/
def Outcome.state (attemptCount : Nat) : Outcome → JobState
  | .done => .succeeded
  | .threw error _ =>
    if error.retryable = some false || decide (10 ≤ attemptCount) then .dead else .retry

def Outcome.result : Outcome → LeasedJobResult
  | .done => .succeeded
  | .threw _ _ => .failed

/-! ## The worker -/

namespace System

def setPhase (owner : String) (phase : Phase) (s : System) : System :=
  { s with workers := Function.update s.workers owner phase }

/-- `processLeasedJob` returns. -/
def report (owner : String) (call : Call) (result : LeasedJobResult) (s : System) : System :=
  { s with
    workers := Function.update s.workers owner .idle
    reports := ⟨owner, call.term, result⟩ :: s.reports }

/-- The database leases one job to the worker, if one is due. -/
def grant (input : LeaseInput) (s : System) : System :=
  { s with
    queue := Jobs.lease input s.queue
    grants := ((leasedJobs input s.queue).map fun job => ⟨s.grants.length, job.id, input.owner⟩) ++
      s.grants }

/-- A turn of the loop: `jobs.lease(owner, 1, leaseSeconds)` and the call for `leased[0]`. -/
def lease (leaseSeconds : Int) (owner : String) (locked : List Nat) (reply : Reply) (s : System) :
    System :=
  match s.workers owner with
  | .idle =>
    let input : LeaseInput := ⟨owner, 1, leaseSeconds, locked⟩
    let s' := if reply.executed then s.grant input else s
    match reply with
    | .lost _ => s'.setPhase owner .crashed
    | .answered =>
      match (leasedJobs input s.queue).head? with
      | none => s'
      | some job => s'.setPhase owner (.dispatching ⟨job, s.grants.length, false⟩)
  | _ => s

/-- A renewal by the timer of the call. One that was sent before the dispatch has ended may be
answered after it. -/
def heartbeat (leaseSeconds : Int) (owner : String) (reply : Reply) (s : System) : System :=
  match s.workers owner with
  | .dispatching call | .confirming call _ =>
    if call.ownershipLost then s
    else
      let s' :=
        if reply.executed then { s with queue := renew call.job.id owner leaseSeconds s.queue }
        else s
      match reply with
      | .lost _ => s'
      | .answered =>
        s'.setPhase owner
          (Phase.withOwnershipLost (!updates call.job.id owner s.queue) (s.workers owner))
  | _ => s

/-- The dispatch returns or throws. -/
def finish (owner : String) (outcome : Outcome) (s : System) : System :=
  match s.workers owner with
  | .dispatching call => s.setPhase owner (.confirming call outcome)
  | _ => s

/-- `stopAndConfirmOwnership`, after the heartbeat has stopped. -/
def confirm (leaseSeconds : Int) (owner : String) (reply : Reply) (s : System) : System :=
  match s.workers owner with
  | .confirming call outcome =>
    if call.ownershipLost then s.report owner call .leaseLost
    else
      let s' :=
        if reply.executed then { s with queue := renew call.job.id owner leaseSeconds s.queue }
        else s
      match reply with
      | .lost _ => s'.setPhase owner .crashed
      | .answered =>
        if updates call.job.id owner s.queue then
          s'.setPhase owner (.transitioning call outcome)
        else s'.report owner call .leaseLost
  | _ => s

/-- The database executes the statement by which the outcome is recorded. -/
def record (owner : String) (call : Call) (outcome : Outcome) (s : System) : System :=
  { s with
    queue := outcome.record call.job.id owner call.job.attemptCount s.queue
    transitions :=
      if updates call.job.id owner s.queue then
        ⟨call.term, call.job.id, owner, outcome.state call.job.attemptCount⟩ :: s.transitions
      else s.transitions }

/-- `succeed` or `fail`, and what `processLeasedJob` makes of a `JobLeaseLostError`. -/
def transition (owner : String) (reply : Reply) (s : System) : System :=
  match s.workers owner with
  | .transitioning call outcome =>
    let s' := if reply.executed then s.record owner call outcome else s
    match reply with
    | .lost _ => s'.setPhase owner .crashed
    | .answered =>
      s'.report owner call
        (if updates call.job.id owner s.queue then outcome.result else .leaseLost)
  | _ => s

end System

/-! ## The machine -/

/-- The connection of a calendar loses its read access, and the jobs of these ids that wait are
ended (`prepareEventReadRemoval`). -/
def retire (ids : List Nat) (q : State) : State :=
  { q with
    jobs := q.jobs.map fun job =>
      if decide (job.id ∈ ids) && job.state.waiting then
        { job with
          state := .succeeded, leaseOwner := none, leaseExpiresAt := none
          safeErrorCode := some "connection_role_changed", updatedAt := q.now }
      else job }

/-- The operations of the queue that only workers call. -/
def Event.ofWorker : Event → Bool
  | .lease _ | .renew _ _ _ | .succeed _ _ | .fail _ _ _ _ _ => true
  | _ => false

inductive WorkerEvent
  /-- Another operation on the queue, by a dispatch or by another process. -/
  | queue (e : Event)
  | retire (ids : List Nat)
  /-- The clock of the process whose statement comes next. -/
  | clock (now : Instant)
  | lease (owner : String) (locked : List Nat) (reply : Reply)
  | heartbeat (owner : String) (reply : Reply)
  | finish (owner : String) (outcome : Outcome)
  | confirm (owner : String) (reply : Reply)
  | transition (owner : String) (reply : Reply)
  /-- The process ends. -/
  | crash (owner : String)

def System.step (leaseSeconds : Int) (s : System) : WorkerEvent → System
  | .queue e => if e.ofWorker then s else { s with queue := Jobs.step s.queue e }
  | .retire ids => { s with queue := Jobs.retire ids s.queue }
  | .clock now => { s with queue := { s.queue with now } }
  | .lease owner locked reply => s.lease leaseSeconds owner locked reply
  | .heartbeat owner reply => s.heartbeat leaseSeconds owner reply
  | .finish owner outcome => s.finish owner outcome
  | .confirm owner reply => s.confirm leaseSeconds owner reply
  | .transition owner reply => s.transition owner reply
  | .crash owner => s.setPhase owner .crashed

/-- An empty table, and no process has done anything. -/
def System.start (now : Instant) : System := ⟨.start now, fun _ => .idle, [], [], []⟩

def workers (leaseSeconds : Int) : Machine System WorkerEvent where
  Init s := ∃ now, s = .start now
  step := System.step leaseSeconds

end Planipus.Jobs

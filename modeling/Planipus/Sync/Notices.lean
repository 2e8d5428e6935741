import Planipus.Jobs.Queue
import Planipus.Sync.System

/-!
# A decision as one transaction

`NoticeService.resolve` (`server/src/sync/notices.ts`) over the rows of a projection and the job
queue. The statements of the transaction are run in their order, and a statement that throws leaves
what was written before it to the rollback. `resolve_rows` shows that on the rows this is the
`resolve` of `Sync.Recovery`, which has no messages and no jobs.
-/

namespace Planipus.Sync.Notices

open CalendarSync Provider Library

/-- The tables that a decision reads and writes. -/
structure Database where
  rows : State
  queue : Jobs.State

/-- Why a call throws. -/
inductive Rejection
  | input (code : PolicyInputError) (message : String)
  /-- The outbox has the idempotency key. -/
  | uniqueViolation
deriving DecidableEq

def sourceChanged : Rejection :=
  .input .holdStale "the source event changed; a fresh reconciliation was scheduled"

def evidenceInconsistent : Rejection :=
  .input .holdStale "the held copy's recovery evidence is inconsistent"

section Resolve

variable (organizationId : String) (setup : Setup)

/-- The payload `policy_id` of a reconciliation. -/
def policyPayload (policyId : String) : Jobs.Payload :=
  .object ("\x7b\"policy_id\":\"" ++ policyId ++ "\"\x7d")

def noticeBasisKey (noticeId : NoticeId) : Jobs.JobKey :=
  ⟨organizationId, "reconcile_policy",
    s!"policy:{setup.policyId}:revision:{setup.policy.revision}:notice-basis:{noticeId}"⟩

/-- The action `restore` in the transaction `t`, once the hold is found. -/
def restore (t : Nat) (input : RecoveryInput) (noticeId : NoticeId) (projection : ProjectionRow)
    (db : Database) : Database × Option Rejection :=
  match projection.recoveryOperation with
  | none => (db, some (.input .holdStale "the held copy changed while the decision was pending"))
  | some operation =>
    if projection.policyRevision ≠ setup.policy.revision then
      (db, some (.input .holdStale "the held copy changed while the decision was pending"))
    else if !basisMatches db.rows projection then
      ({ db with
          queue := Jobs.enqueue t (noticeBasisKey organizationId setup noticeId)
            (policyPayload setup.policyId) input.now db.queue },
        some sourceChanged)
    else if !recoveryEvidence setup projection operation then (db, some evidenceInconsistent)
    else
      match queueRecovery setup .destinationEditHoldRestore input operation projection db.rows with
      | none => (db, some .uniqueViolation)
      | some rows => ({ db with rows := finishNotice noticeId .restore rows }, none)

/-- The statements of the transaction `t`, up to the one that throws. -/
def statements (t : Nat) (input : RecoveryInput) (noticeId : NoticeId) (action : Resolution)
    (db : Database) : Database × Option Rejection :=
  match db.rows.notices.find? fun n => n.id = noticeId with
  | none => (db, some (.input .notFound "sync notice was not found"))
  | some notice =>
    if notice.kind ∉ heldNoticeKinds ∨ notice.status = .resolved then
      (db, some (.input .noticeNotResolvable "this notice does not carry an open decision"))
    else if db.rows.policyStatus = .deleted then
      (db, some (.input .notFound "sync policy was not found"))
    else
      match db.rows.projection with
      | none =>
        (db, some (.input .holdStale "the held copy has already been resolved or superseded"))
      | some projection =>
        if !isDestinationEditHold projection then
          (db, some (.input .holdStale "the held copy has already been resolved or superseded"))
        else
          match action with
          | .keepAndDetach =>
            ({ db with
                rows := finishNotice noticeId .keepAndDetach
                  { db.rows with projection := some (detachProjection projection) } }, none)
          | .restore => restore organizationId setup t input noticeId projection db

/-- An ID that no open transaction has. -/
def freshTransaction (queue : Jobs.State) : Nat :=
  (queue.transactions.map Jobs.Transaction.id).foldr max 0 + 1

/-- A transaction: what its statements have written is kept only if none of them throws. -/
def transaction (body : Nat → Database → Database × Option Rejection) (db : Database) :
    Database × Option Rejection :=
  let t := freshTransaction db.queue
  match body t { db with queue := Jobs.beginTransaction t db.queue } with
  | (written, none) => ({ written with queue := Jobs.commit t written.queue }, none)
  | (written, some rejection) => (⟨db.rows, Jobs.rollback t written.queue⟩, some rejection)

def resolve (input : RecoveryInput) (noticeId : NoticeId) (action : Resolution) (db : Database) :
    Database × Option Rejection :=
  transaction (fun t => statements organizationId setup t input noticeId action) db

/-! ## The machine -/

/-- The operations of `Sync.System` other than decisions, those of the job queue, and decisions.
The jobs that the other operations enqueue are events of the queue. -/
inductive Event
  | sync (event : Sync.Event)
  | queue (event : Jobs.Event)
  | resolve (noticeId : NoticeId) (action : Resolution) (input : RecoveryInput)

def Event.decision : Sync.Event → Bool
  | .resolve .. => true
  | _ => false

def step (db : Database) : Event → Database
  | .sync event =>
    if Event.decision event then db else { db with rows := Sync.step setup db.rows event }
  | .queue event => { db with queue := Jobs.step db.queue event }
  | .resolve noticeId action input =>
    if db.rows.freshEffect input.insertion.id then
      (resolve organizationId setup input noticeId action db).1
    else db

def service : Machine Database Event where
  Init db := Initial setup db.rows ∧ Jobs.queue.Init db.queue
  step := step organizationId setup

/-! ## Its rows -/

/-- What is left of the rows. -/
def kept (rows : State) (outcome : Database × Option Rejection) : State :=
  if outcome.2.isSome then rows else outcome.1.rows

theorem restore_kept (t : Nat) (input : RecoveryInput) (noticeId : NoticeId)
    (projection : ProjectionRow) (db : Database) :
    kept db.rows (restore organizationId setup t input noticeId projection db) =
      commit db.rows
        ((restoreHeld setup input projection db.rows).map (finishNotice noticeId .restore)) := by
  unfold restore restoreHeld
  cases projection.recoveryOperation with
  | none => rfl
  | some operation =>
    dsimp only
    by_cases hrevision : projection.policyRevision ≠ setup.policy.revision
    · rw [if_pos hrevision, if_pos hrevision]
      rfl
    rw [if_neg hrevision, if_neg hrevision]
    cases basisMatches db.rows projection with
    | false => rfl
    | true =>
      cases recoveryEvidence setup projection operation with
      | false => rfl
      | true =>
        cases queueRecovery setup .destinationEditHoldRestore input operation projection db.rows with
        | none => rfl
        | some rows => rfl

theorem statements_kept (t : Nat) (input : RecoveryInput) (noticeId : NoticeId)
    (action : Resolution) (db : Database) :
    kept db.rows (statements organizationId setup t input noticeId action db) =
      commit db.rows (Sync.resolve setup input noticeId action db.rows) := by
  unfold statements Sync.resolve
  cases db.rows.notices.find? fun n => n.id = noticeId with
  | none => rfl
  | some notice =>
    dsimp only
    by_cases hclosed : notice.kind ∉ heldNoticeKinds ∨ notice.status = .resolved
    · rw [if_pos hclosed, if_pos hclosed]
      rfl
    rw [if_neg hclosed, if_neg hclosed]
    by_cases hdeleted : db.rows.policyStatus = .deleted
    · rw [if_pos hdeleted, if_pos hdeleted]
      rfl
    rw [if_neg hdeleted, if_neg hdeleted]
    cases db.rows.projection with
    | none => rfl
    | some projection =>
      dsimp only
      cases isDestinationEditHold projection with
      | false => rfl
      | true =>
        cases action with
        | keepAndDetach => rfl
        | restore => exact restore_kept organizationId setup t input noticeId projection db

/-- **The rows after a decision** are those of the model without messages and jobs. -/
theorem resolve_rows (input : RecoveryInput) (noticeId : NoticeId) (action : Resolution)
    (db : Database) :
    (resolve organizationId setup input noticeId action db).1.rows =
      commit db.rows (Sync.resolve setup input noticeId action db.rows) := by
  let opened : Database :=
    { db with queue := Jobs.beginTransaction (freshTransaction db.queue) db.queue }
  have hkept := statements_kept organizationId setup (freshTransaction db.queue) input noticeId
    action opened
  rw [← show opened.rows = db.rows from rfl, ← hkept]
  unfold resolve transaction kept
  dsimp only
  cases h : statements organizationId setup (freshTransaction db.queue) input noticeId action
      opened with
  | mk written rejection =>
    cases rejection with
    | none => simp
    | some rejection => simp [opened]

end Resolve

end Planipus.Sync.Notices

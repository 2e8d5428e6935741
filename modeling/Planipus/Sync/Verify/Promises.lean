import Planipus.Sync.Notices
import Planipus.Sync.Verify.Start

/-!
# What a rejected decision leaves behind

A rejected decision is rolled back, so the rows are as they were. One rejection promises that a
reconciliation was scheduled, and its job is a statement of the same transaction: it goes with the
rest (`resolve_rejected`). The promise is kept only where a reconciliation of the policy was waiting
already (`promises_kept_iff`).
-/

namespace Planipus.Sync.Notices

open CalendarSync Provider Library

section Promise

variable (organizationId : String) (setup : Setup)

/-- A reconciliation of the policy waits to be leased. -/
def ReconcileWaiting (db : Database) : Prop :=
  ∃ job ∈ db.queue.jobs, job.key.organizationId = organizationId ∧
    job.key.kind = "reconcile_policy" ∧ job.payload = policyPayload setup.policyId ∧
    job.state.waiting = true

/-- A rejected decision leaves the projection, the notices and the outbox alone, and if it is
rejected for the changed source event, a reconciliation waits afterwards. -/
def KeepsPromise (db : Database) : Event → Prop
  | .resolve noticeId action input =>
    ∀ rejection, (resolve organizationId setup input noticeId action db).2 = some rejection →
      let db' := (resolve organizationId setup input noticeId action db).1
      db'.rows.projection = db.rows.projection ∧ db'.rows.notices = db.rows.notices ∧
        db'.rows.effects = db.rows.effects ∧
        (rejection = sourceChanged → ReconcileWaiting organizationId setup db')
  | _ => True

/-- The notice is open, and the source event has changed since its hold was refreshed. -/
def sourceMoved (db : Database) (noticeId : NoticeId) : Bool :=
  (db.rows.notices.find? fun n => n.id = noticeId).any (fun notice =>
      decide (notice.kind ∈ heldNoticeKinds) && notice.status ≠ .resolved) &&
    db.rows.policyStatus ≠ .deleted &&
    db.rows.projection.any fun projection =>
      isDestinationEditHold projection && projection.recoveryOperation.isSome &&
        projection.policyRevision = setup.policy.revision && !basisMatches db.rows projection

/-- A restore that meets a changed source event finds a reconciliation that waits already. -/
def Scheduled (db : Database) : Event → Prop
  | .resolve noticeId .restore _ =>
    sourceMoved setup db noticeId = true → ReconcileWaiting organizationId setup db
  | _ => True

instance (db : Database) : Decidable (ReconcileWaiting organizationId setup db) :=
  inferInstanceAs (Decidable (∃ job ∈ db.queue.jobs, job.key.organizationId = organizationId ∧
    job.key.kind = "reconcile_policy" ∧ job.payload = policyPayload setup.policyId ∧
    job.state.waiting = true))

instance (db : Database) : DecidablePred (Scheduled organizationId setup db)
  | .resolve noticeId .restore _ => inferInstanceAs (Decidable
      (sourceMoved setup db noticeId = true → ReconcileWaiting organizationId setup db))
  | .resolve _ .keepAndDetach _ => isTrue trivial
  | .sync _ => isTrue trivial
  | .queue _ => isTrue trivial

variable {organizationId setup} {input : RecoveryInput} {noticeId : NoticeId}
  {action : Resolution} {db : Database} {t : Nat}

/-! ## The rejection for a changed source event -/

theorem restore_sourceChanged_iff {projection : ProjectionRow} :
    (restore organizationId setup t input noticeId projection db).2 = some sourceChanged ↔
      projection.recoveryOperation.isSome = true ∧
        projection.policyRevision = setup.policy.revision ∧
        basisMatches db.rows projection = false := by
  unfold restore
  cases projection.recoveryOperation with
  | none => simp [sourceChanged]
  | some operation =>
    by_cases hrevision : projection.policyRevision = setup.policy.revision
    · cases hbasis : basisMatches db.rows projection with
      | false => simp [hrevision]
      | true =>
        cases hevidence : recoveryEvidence setup projection operation with
        | false => simp [hrevision, hevidence, evidenceInconsistent, sourceChanged]
        | true =>
          cases hqueued : queueRecovery setup .destinationEditHoldRestore input operation projection
              db.rows with
          | none => simp [hrevision, hevidence, hqueued, sourceChanged]
          | some rows => simp [hrevision, hevidence, hqueued]
    · simp [hrevision, sourceChanged]

theorem statements_sourceChanged_iff :
    (statements organizationId setup t input noticeId action db).2 = some sourceChanged ↔
      action = .restore ∧ sourceMoved setup db noticeId = true := by
  unfold statements sourceMoved
  cases db.rows.notices.find? fun n => n.id = noticeId with
  | none => simp [sourceChanged]
  | some notice =>
    dsimp only [Option.any_some]
    by_cases hclosed : notice.kind ∉ heldNoticeKinds ∨ notice.status = .resolved
    · rw [if_pos hclosed]
      rcases hclosed with hkind | hstatus
      · simp [hkind, sourceChanged]
      · simp [hstatus, sourceChanged]
    rw [if_neg hclosed]
    rw [not_or, not_not] at hclosed
    by_cases hdeleted : db.rows.policyStatus = .deleted
    · simp [hdeleted, sourceChanged]
    rw [if_neg hdeleted]
    cases db.rows.projection with
    | none => simp [sourceChanged]
    | some projection =>
      cases hheld : isDestinationEditHold projection with
      | false => simp [hheld, sourceChanged]
      | true =>
        cases action with
        | keepAndDetach => simp [hheld]
        | restore =>
          simp only [hheld, Bool.not_true, Bool.false_eq_true, if_false]
          rw [restore_sourceChanged_iff]
          simp [hclosed, hdeleted, hheld, and_assoc]

theorem resolve_sourceChanged_iff :
    (resolve organizationId setup input noticeId action db).2 = some sourceChanged ↔
      action = .restore ∧ sourceMoved setup db noticeId = true := by
  -- The open transaction has the rows of the database.
  have hbody : (statements organizationId setup (freshTransaction db.queue) input noticeId action
      { db with queue := Jobs.beginTransaction (freshTransaction db.queue) db.queue }).2 =
        some sourceChanged ↔ action = .restore ∧ sourceMoved setup db noticeId = true :=
    statements_sourceChanged_iff
  rw [← hbody]
  unfold resolve transaction
  dsimp only
  cases statements organizationId setup (freshTransaction db.queue) input noticeId action
      { db with queue := Jobs.beginTransaction (freshTransaction db.queue) db.queue } with
  | mk written rejection => cases rejection <;> rfl

/-! ## The rollback -/

theorem beginTransaction_jobs (queue : Jobs.State) :
    (Jobs.beginTransaction t queue).jobs = queue.jobs := by
  unfold Jobs.beginTransaction
  split <;> rfl

theorem enqueue_jobs (key : Jobs.JobKey) (payload : Jobs.Payload) (runAfter : Instant)
    (queue : Jobs.State) : (Jobs.enqueue t key payload runAfter queue).jobs = queue.jobs := by
  unfold Jobs.enqueue
  split <;> rfl

theorem restore_jobs (projection : ProjectionRow) :
    (restore organizationId setup t input noticeId projection db).1.queue.jobs =
      db.queue.jobs := by
  unfold restore
  split
  · rfl
  split
  · rfl
  split
  · exact enqueue_jobs _ _ _ _
  split
  · rfl
  split <;> rfl

/-- No statement changes the committed jobs. -/
theorem statements_jobs :
    (statements organizationId setup t input noticeId action db).1.queue.jobs =
      db.queue.jobs := by
  unfold statements
  split
  · rfl
  split
  · rfl
  split
  · rfl
  split
  · rfl
  split
  · rfl
  split
  · rfl
  · exact restore_jobs _

/-- **A rejected decision** changes neither the rows nor the committed jobs. -/
theorem resolve_rejected {rejection : Rejection}
    (h : (resolve organizationId setup input noticeId action db).2 = some rejection) :
    (resolve organizationId setup input noticeId action db).1.rows = db.rows ∧
      (resolve organizationId setup input noticeId action db).1.queue.jobs = db.queue.jobs := by
  have hjobs : (statements organizationId setup (freshTransaction db.queue) input noticeId action
      { db with queue := Jobs.beginTransaction (freshTransaction db.queue) db.queue }).1.queue.jobs =
        (Jobs.beginTransaction (freshTransaction db.queue) db.queue).jobs := statements_jobs
  rw [beginTransaction_jobs] at hjobs
  unfold resolve transaction at h ⊢
  dsimp only at h ⊢
  cases hbody : statements organizationId setup (freshTransaction db.queue) input noticeId action
      { db with queue := Jobs.beginTransaction (freshTransaction db.queue) db.queue } with
  | mk written outcome =>
    rw [hbody] at h hjobs
    cases outcome with
    | none => cases h
    | some rejection => exact ⟨rfl, hjobs⟩

/-! ## The promise -/

/-- The promise is kept by a call exactly if it need not be kept or a reconciliation waits. -/
theorem keepsPromise_iff (event : Event) :
    KeepsPromise organizationId setup db event ↔ Scheduled organizationId setup db event := by
  cases event with
  | sync event => exact Iff.rfl
  | queue event => exact Iff.rfl
  | resolve noticeId action input =>
    have hwaiting : ∀ rejection,
        (resolve organizationId setup input noticeId action db).2 = some rejection →
        (ReconcileWaiting organizationId setup
          (resolve organizationId setup input noticeId action db).1 ↔
            ReconcileWaiting organizationId setup db) := by
      intro rejection h
      unfold ReconcileWaiting
      rw [(resolve_rejected h).2]
    constructor
    · intro hkeeps
      cases action with
      | keepAndDetach => trivial
      | restore =>
        intro hmoved
        have hrejected : (resolve organizationId setup input noticeId .restore db).2 =
            some sourceChanged := resolve_sourceChanged_iff.2 ⟨rfl, hmoved⟩
        exact (hwaiting _ hrejected).1 ((hkeeps _ hrejected).2.2.2 rfl)
    · intro hscheduled rejection hrejected
      obtain ⟨hrows, -⟩ := resolve_rejected hrejected
      refine ⟨by rw [hrows], by rw [hrows], by rw [hrows], ?_⟩
      rintro rfl
      obtain ⟨rfl, hmoved⟩ := resolve_sourceChanged_iff.1 hrejected
      exact (hwaiting _ hrejected).2 (hscheduled hmoved)

end Promise

/-- **When rejected decisions keep their promise**: in a run every rejected decision leaves the rows
alone and has the reconciliation it promises waiting, if and only if every restore that meets a
changed source event finds one that waits already. -/
theorem promises_kept_iff (organizationId : String) (setup : Setup) (db : Database)
    (events : List Event) :
    (service organizationId setup).Throughout (fun _ => True)
        (KeepsPromise organizationId setup) db events ↔
      (service organizationId setup).Admits (Scheduled organizationId setup) db events := by
  apply Machine.throughout_iff_admits (I := fun _ => True) fun _ h => h
  · intro db event _ hscheduled
    exact ⟨(keepsPromise_iff event).2 hscheduled, trivial⟩
  · intro db event _ hkeeps _
    exact (keepsPromise_iff event).1 hkeeps
  · trivial

/-! ## A promise that is not kept -/

/-- An empty database. -/
def emptyDatabase (event : SourceObservation) : Database := ⟨startState event, .start 0⟩

/-- The job that `activate` enqueues is carried out, the copy that it creates is edited and held,
the policy is paused, and then the source event moves. A paused policy gets no job for that. -/
def movedWhileHeld : List Event :=
  ([.beginTransaction 1,
    .enqueue 1 ⟨"organization", "reconcile_policy", "policy:policy:revision:1"⟩
      (policyPayload "policy") 0,
    .commit 1, .lease ⟨"worker", 1, 60, []⟩, .succeed 0 "worker"] : List Jobs.Event).map .queue ++
  (createdCopy ++ verifyEdited (plainBody "lunch" 2) 2 ++
    [Sync.Event.setPaused true 0, .store (plainEvent "meeting" 5 "r2")]).map .sync

/-- Copies that are edited at the destination are held. -/
def reviewSetup : Setup := plainSetup .holdForReview

/-- The restore is rejected with the promise of a reconciliation, and the only job is the one that
was carried out before. -/
theorem restore_promises_nothing :
    (service "organization" reviewSetup).Init (emptyDatabase (plainEvent "meeting" 1)) ∧
      ¬ KeepsPromise "organization" reviewSetup
        ((service "organization" reviewSetup).run (emptyDatabase (plainEvent "meeting" 1))
          movedWhileHeld)
        (.resolve 1 .restore ⟨0, ⟨3, 3⟩⟩) := by
  refine ⟨⟨initial_startState, 0, rfl⟩, ?_⟩
  rw [keepsPromise_iff]
  decide +kernel

end Planipus.Sync.Notices

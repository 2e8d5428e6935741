import Planipus.Native.Session
import Planipus.Native.Verify.LoopFreedom

/-!
# What a reconciliation writes

`Reconciled` lists the results of `reconcile` with what they rest on, and `Restored` those of
`enqueueRestore`: an update or a deletion carries the revision of a copy that was found and owned.
-/

namespace Planipus.Native

open CalendarSync

/-- Neither a pending decision nor detached. -/
def StoredProjection.live (projection : StoredProjection) : Bool :=
  !(projection.detached || projection.hold.isSome)

/-- The notice that a restored copy may come with. -/
def AtMostNotice (writes : List RepositoryWrite) : Prop :=
  writes = [] ∨ ∃ notice, writes = [.recordNotice notice]

variable {runtime : Runtime} {event : SourceEvent} {policy : SyncPolicy}
  {stored : Option StoredProjection} {reply : Google.HTTPResponse}

/-- The results of `reconcile`. -/
inductive Reconciled (runtime : Runtime) (event : SourceEvent) (policy : SyncPolicy)
    (stored : Option StoredProjection) (reply : Google.HTTPResponse) :
    List RepositoryWrite → Prop
  | nothing : Reconciled runtime event policy stored reply []
  | hold {projection : StoredProjection} (hold : DestinationEditHold) (kind : SyncNoticeKind)
      (desired : DesiredCopy) (hstored : stored = some projection)
      (hlive : projection.live = true) :
    Reconciled runtime event policy stored reply (holdForDecision projection hold kind desired)
  | gone {projection : StoredProjection} (hstored : stored = some projection)
      (hlive : projection.live = true)
      (hread : verifiedDestination runtime projection policy.id reply = .ok none) :
    Reconciled runtime event policy stored reply
      [.deleteProjection ⟨policy.id, event.id, event.occurrenceID⟩]
  | delete {projection : StoredProjection} {observed : SourceEvent}
      (hstored : stored = some projection) (hlive : projection.live = true)
      (hread : verifiedDestination runtime projection policy.id reply = .ok (some observed)) :
    Reconciled runtime event policy stored reply
      [enqueue .delete event.providerRevision policy ⟨policy.id, event.id, event.occurrenceID⟩
        projection.destinationEndpoint projection.destinationEventID observed.providerRevision none
        projection.desiredFingerprint]
  | create {writes : List RepositoryWrite} {desired : DesiredCopy} (destinationEventID : String)
      (hlive : stored.all (·.live) = true) (hwrites : AtMostNotice writes)
      (hdesired : (evaluate runtime.env runtime.formatters.dateText runtime.services event policy
        stored.isSome).desiredCopy = some desired) :
    Reconciled runtime event policy stored reply
      (writes ++ [enqueue .create event.providerRevision policy
        ⟨policy.id, event.id, event.occurrenceID⟩ policy.destinationEndpoint destinationEventID none
        (some desired) (fingerprint desired)])
  | update {writes : List RepositoryWrite} {projection : StoredProjection}
      {observed : SourceEvent} {desired : DesiredCopy} (hstored : stored = some projection)
      (hlive : projection.live = true)
      (hendpoint : otherEndpoint runtime projection.destinationEndpoint policy.destinationEndpoint =
        false)
      (hread : verifiedDestination runtime projection policy.id reply = .ok (some observed))
      (hwrites : AtMostNotice writes)
      (hdesired : (evaluate runtime.env runtime.formatters.dateText runtime.services event policy
        stored.isSome).desiredCopy = some desired) :
    Reconciled runtime event policy stored reply
      (writes ++ [enqueue .update event.providerRevision policy
        ⟨policy.id, event.id, event.occurrenceID⟩ policy.destinationEndpoint
        projection.destinationEventID observed.providerRevision (some desired)
        (fingerprint desired)])

/-! ## The parts of a reconciliation -/

theorem enqueueOwnedDeletion_reconciled {projection : StoredProjection}
    {writes : List RepositoryWrite} (hstored : stored = some projection)
    (hlive : projection.live = true)
    (h : enqueueOwnedDeletion runtime event policy ⟨policy.id, event.id, event.occurrenceID⟩
      projection reply = .ok writes) :
    Reconciled runtime event policy stored reply writes := by
  unfold enqueueOwnedDeletion at h
  cases hread : verifiedDestination runtime projection policy.id reply with
  | error error =>
    rw [hread] at h
    cases h
  | ok observed =>
    rw [hread] at h
    cases observed with
    | none =>
      cases h
      exact .gone hstored hlive hread
    | some observed =>
      cases h
      exact .delete hstored hlive hread

/-- What is done about a copy that has gone. -/
theorem planMissing_cases (policy : SyncPolicy) (key : ProjectionKey)
    (projection : StoredProjection) (desired : DesiredCopy) :
    (∃ hold kind, planMissing policy key projection desired =
        .stop (holdForDecision projection hold kind desired)) ∨
      ∃ writes, AtMostNotice writes ∧
        planMissing policy key projection desired = .write writes .create none := by
  unfold planMissing
  cases policy.effectiveDestinationEdits.onDelete with
  | holdForReview => exact .inl ⟨_, _, rfl⟩
  | restoreAndNotify => exact .inr ⟨_, .inr ⟨_, rfl⟩, rfl⟩
  | restore => exact .inr ⟨_, .inl rfl, rfl⟩

/-- What is done about a copy that is there. -/
theorem planObserved_cases (runtime : Runtime) (policy : SyncPolicy) (key : ProjectionKey)
    (projection : StoredProjection) (desired : DesiredCopy) (observed : SourceEvent) :
    planObserved runtime policy key projection desired observed = .stop [] ∨
      (∃ hold kind, planObserved runtime policy key projection desired observed =
        .stop (holdForDecision projection hold kind desired)) ∨
      ∃ writes, AtMostNotice writes ∧
        planObserved runtime policy key projection desired observed =
          .write writes .update observed.providerRevision := by
  unfold planObserved
  simp only
  split
  · cases policy.effectiveDestinationEdits.onEdit with
    | holdForReview => exact .inr (.inl ⟨_, _, rfl⟩)
    | restoreAndNotify => exact .inr (.inr ⟨_, .inr ⟨_, rfl⟩, rfl⟩)
    | restore => exact .inr (.inr ⟨_, .inl rfl, rfl⟩)
  · split
    · exact .inl rfl
    · exact .inr (.inr ⟨_, .inl rfl, rfl⟩)

theorem reconcileCopy_reconciled {desired : DesiredCopy} {writes : List RepositoryWrite}
    (hlive : stored.all (·.live) = true)
    (hendpoint : stored.all (fun projection =>
      !otherEndpoint runtime projection.destinationEndpoint policy.destinationEndpoint) = true)
    (hdesired : (evaluate runtime.env runtime.formatters.dateText runtime.services event policy
      stored.isSome).desiredCopy = some desired)
    (h : reconcileCopy runtime event policy ⟨policy.id, event.id, event.occurrenceID⟩ stored desired
      reply = .ok writes) :
    Reconciled runtime event policy stored reply writes := by
  unfold reconcileCopy at h
  cases stored with
  | none =>
    cases h
    exact .create _ hlive (.inl rfl) hdesired
  | some projection =>
    simp only [Option.all_some, Bool.not_eq_true'] at hlive hendpoint
    simp only at h
    cases hread : verifiedDestination runtime projection policy.id reply with
    | error error =>
      rw [hread] at h
      cases h
    | ok observed =>
      rw [hread] at h
      cases observed with
      | none =>
        rcases planMissing_cases policy ⟨policy.id, event.id, event.occurrenceID⟩ projection
          desired with ⟨hold, kind, hplan⟩ | ⟨notice, hnotice, hplan⟩
        · simp only [bind, Except.bind, hplan] at h
          cases h
          exact .hold hold kind desired rfl hlive
        · simp only [bind, Except.bind, hplan] at h
          cases h
          exact .create _ (by simpa using hlive) hnotice hdesired
      | some observed =>
        rcases planObserved_cases runtime policy ⟨policy.id, event.id, event.occurrenceID⟩
          projection desired observed with hplan | ⟨hold, kind, hplan⟩ | ⟨notice, hnotice, hplan⟩
        · simp only [bind, Except.bind, hplan] at h
          cases h
          exact .nothing
        · simp only [bind, Except.bind, hplan] at h
          cases h
          exact .hold hold kind desired rfl hlive
        · simp only [bind, Except.bind, hplan] at h
          cases h
          exact .update rfl hlive hendpoint hread hnotice hdesired

/-- **What `reconcile` writes.** -/
theorem reconcile_reconciled {writes : List RepositoryWrite}
    (h : reconcile runtime event policy stored reply = .ok writes) :
    Reconciled runtime event policy stored reply writes := by
  unfold reconcile at h
  simp only at h
  split at h
  · cases h
    exact .nothing
  · rename_i hfrozen
    have hlive : stored.all (·.live) = true := by
      cases stored with
      | none => rfl
      | some projection => simpa [StoredProjection.live] using hfrozen
    split at h
    · rename_i projection hother
      obtain ⟨rfl, -⟩ := Option.filter_eq_some_iff.1 hother
      exact enqueueOwnedDeletion_reconciled rfl (by simpa using hlive) h
    · rename_i hsame
      have hendpoint : stored.all (fun projection =>
          !otherEndpoint runtime projection.destinationEndpoint policy.destinationEndpoint) =
            true := by
        cases stored with
        | none => rfl
        | some projection => simpa [Option.filter] using hsame
      split at h
      · cases h
        exact .nothing
      · split at h
        · cases h
          exact .nothing
        · rename_i hdesired
          exact reconcileCopy_reconciled hlive hendpoint hdesired h
      · split at h
        · cases h
          exact .nothing
        · rename_i projection
          exact enqueueOwnedDeletion_reconciled rfl (by simpa using hlive) h

/-! ## Restoring -/

/-- The results of `enqueueRestore`; `found` is what the lookup of the copy shows. -/
inductive Restored (runtime : Runtime) (key : ProjectionKey) (projection : StoredProjection)
    (policy : SyncPolicy) (found : Except ProviderError (Option SourceEvent)) :
    RepositoryWrite → Prop
  | gone (hread : found = .ok none) :
    Restored runtime key projection policy found (.deleteProjection key)
  | create (event : SourceEvent) (desired : DesiredCopy) (hread : found = .ok none) :
    Restored runtime key projection policy found
      (enqueue .create event.providerRevision policy key projection.destinationEndpoint
        projection.destinationEventID none (some desired) (fingerprint desired))
  | update (event : SourceEvent) (desired : DesiredCopy) {observed : SourceEvent}
      (hread : found = .ok (some observed))
      (howned : isOwned runtime observed policy.id projection.destinationEventID = true) :
    Restored runtime key projection policy found
      (enqueue .update event.providerRevision policy key projection.destinationEndpoint
        projection.destinationEventID observed.providerRevision (some desired)
        (fingerprint desired))
  | delete (sourceRevision : Option String) {observed : SourceEvent}
      (hread : found = .ok (some observed))
      (howned : isOwned runtime observed policy.id projection.destinationEventID = true) :
    Restored runtime key projection policy found
      (enqueue .delete sourceRevision policy key projection.destinationEndpoint
        projection.destinationEventID observed.providerRevision none projection.desiredFingerprint)

/-- **What `enqueueRestore` writes.** -/
theorem restoreWrite_restored {s : Session} {answers : Answers} {notice : StoredNotice}
    {projection : StoredProjection} {write : RepositoryWrite}
    (h : s.restoreWrite runtime answers notice projection = some write) :
    ∃ policy, Restored runtime notice.notice.projectionKey projection policy
      (lookup runtime answers.failure s.calendars projection.destinationEndpoint
        projection.destinationEventID) write := by
  unfold Session.restoreWrite at h
  obtain ⟨policy, -, h⟩ := Option.bind_eq_some_iff.1 h
  refine ⟨policy, ?_⟩
  simp only at h
  split at h
  · cases h
  · rename_i hread
    cases h
    unfold Session.enqueueRestore
    simp only
    split
    · exact .create _ _ hread
    · exact .gone hread
  · rename_i observed hread
    split at h
    · rename_i howned
      cases h
      unfold Session.enqueueRestore
      simp only
      split
      · exact .update _ _ hread howned
      · exact .delete _ hread howned
    · cases h

end Planipus.Native

import Planipus.Sync.Effects

/-!
# Destination verification

`server/src/sync/verification.ts` with `packages/calendar-sync/src/destination-edits.ts`: a target
is loaded from the projection, the event is read without any lock, and what was seen is settled in
a transaction of its own that finds the projection as it was loaded or does nothing. `settle_cases`
lists what that transaction can do.
-/

namespace Planipus.Sync

open CalendarSync Provider Provider.Session

/-! ## Loading and reading -/

/-- `loadTarget`: `none` when the projection is not due for verification. -/
def loadTarget (s : State) : Option VerificationTarget :=
  match s.projection with
  | none => none
  | some p =>
    if p.status = .converged ∧ p.ownership = .attached ∧ s.policyStatus = .active ∧
        s.destination.usable .destination = true then
      match p.destinationEventId, p.desiredHash, p.desiredState with
      | some destinationEventId, some desiredHash, some desiredState =>
        some
          { policyRevision := p.policyRevision
            sourceBasisHash := p.sourceBasisHash
            generation := p.generation
            intentSequence := p.intentSequence
            destinationEventId
            destinationRevision := p.destinationEtag
            desiredHash
            desiredState }
      | _, _, _ => none
    else none

/-- The read of a target's event. A failed read is tried again later. -/
def observe (target : VerificationTarget) (reply : Reply) (s : State) : State :=
  match ((⟨s.calendar, [{ reply }], []⟩ : Session).getEvent target.destinationEventId).2 with
  | .ok observed => { s with lookups := ⟨target, observed⟩ :: s.lookups }
  | .error error => noteAuth error s

/-! ## Decisions -/

inductive DestinationVerificationDecision
  | current (observedRevision : Revision)
  | missing
  | drifted (observedRevision : Revision)
  | ownershipMismatch (observedRevision : Revision)
deriving DecidableEq

def classifyDestinationVerification (setup : Setup) (target : VerificationTarget)
    (observed : Option RemoteEvent) : DestinationVerificationDecision :=
  match observed with
  | none => .missing
  | some event =>
    if !eventBelongsToProjection event setup.policyId setup.projectionId target.generation then
      .ownershipMismatch event.revision
    else if some event.revision = target.destinationRevision then .current event.revision
    else .drifted event.revision

inductive DestinationEditResponse
  | repair (notice : Option NoticeKind) (code : SafeErrorCode)
  | hold (notice : NoticeKind) (code : SafeErrorCode)
deriving DecidableEq

def planDestinationEditResponse (policy : DestinationEditPolicy) (observed : ObservedEdit) :
    DestinationEditResponse :=
  let mode := match observed with
    | .drifted => policy.onEdit
    | .missing => policy.onDelete
  match mode, observed with
  | .holdForReview, .drifted => .hold .copyEditHeld .destinationEditHeld
  | .holdForReview, .missing => .hold .copyDeleteHeld .destinationDeleteHeld
  | .restore, .drifted => .repair none .destinationDrift
  | .restore, .missing => .repair none .destinationMissing
  | .restoreAndNotify, .drifted => .repair (some .copyEditReverted) .destinationDrift
  | .restoreAndNotify, .missing => .repair (some .copyDeleteRestored) .destinationMissing

def destinationRepairGeneration (desired : DesiredCopy) (generation : Nat) :
    ObservedEdit → Nat × DesiredCopy
  | .drifted => (generation, desired)
  | .missing => (generation + 1, desired.withGeneration (generation + 1))

/-! ## Settling -/

structure SettleInput where
  now : Instant
  insertion : Insertion
  notice : NoticeId
deriving DecidableEq

/-- The projection is as it was when the target was loaded, and no effect is under way. -/
def unmoved (setup : Setup) (target : VerificationTarget) (s : State) (p : ProjectionRow) : Bool :=
  s.policyStatus = .active && setup.policy.revision = target.policyRevision &&
    p.status = .converged && p.ownership = .attached &&
    p.policyRevision = target.policyRevision && p.generation = target.generation &&
    p.destinationEventId = some target.destinationEventId &&
    p.destinationEtag = target.destinationRevision && p.desiredHash = some target.desiredHash &&
    !s.hasUnfinished

/-- The desired copy that the target's hash is the hash of. -/
def verifiedDesired (setup : Setup) (target : VerificationTarget) (p : ProjectionRow) :
    Option DesiredCopy :=
  p.desiredState.filter fun desired =>
    desired.provenance = ⟨setup.policyId, setup.projectionId, target.generation⟩ &&
      sha256Canonical desired = target.desiredHash

/-- `recordSyncNotice`, for the plans that ask for a notice. -/
def recordSyncNotice (id : NoticeId) (kind : Option NoticeKind) (detail : NoticeDetail)
    (s : State) : State :=
  { s with notices := s.notices ++ kind.toList.map fun kind => { id, kind, detail } }

def ObservedEdit.operation : ObservedEdit → Operation
  | drifted => .update
  | missing => .create

/-- The projection of a scheduled repair. `revision` is the one that was observed. -/
def repairProjection (observed : ObservedEdit) (revision : Option Revision) (desired : DesiredCopy)
    (p : ProjectionRow) : ProjectionRow :=
  let repair := destinationRepairGeneration desired p.generation observed
  { p with
    intentSequence := p.intentSequence + 1
    generation := repair.1
    recoveryOperation := none
    destinationEventId := match observed with
      | .missing => none
      | .drifted => p.destinationEventId
    destinationEtag := match observed with
      | .missing => none
      | .drifted => revision
    desiredHash := some (sha256Canonical repair.2)
    desiredState := some repair.2
    status := .pending
    safeErrorCode := some (match observed with
      | .missing => .destinationMissing
      | .drifted => .destinationDrift) }

def repairEffect (input : SettleInput) (target : VerificationTarget) (observed : ObservedEdit)
    (desired : DesiredCopy) (p : ProjectionRow) : EffectRow :=
  let repair := destinationRepairGeneration desired p.generation observed
  { id := input.insertion.id
    createdAt := input.insertion.createdAt
    policyRevision := target.policyRevision
    sourceBasisHash := target.sourceBasisHash
    operation := observed.operation
    idempotencyKey :=
      { kind := .destinationVerificationRepair
        policyRevision := target.policyRevision
        generation := repair.1
        intentSequence := p.intentSequence + 1
        operation := observed.operation
        desiredFingerprint := some (sha256Canonical repair.2) }
    desiredState := some repair.2
    runAfter := input.now }

/-- `scheduleRepair` after its checks; `none` when the insert fails. -/
def scheduleRepair (input : SettleInput) (target : VerificationTarget) (observed : ObservedEdit)
    (revision : Option Revision) (notice : Option NoticeKind) (desired : DesiredCopy)
    (p : ProjectionRow) (s : State) : Option State :=
  (s.insertEffect (repairEffect input target observed desired p)).map fun s' =>
    recordSyncNotice input.notice notice
      (noticeDetailForDesiredCopy observed
        (destinationRepairGeneration desired p.generation observed).2)
      { s' with projection := some (repairProjection observed revision desired p) }

/-- `holdDestinationEdit` on the projection. -/
def holdEditProjection (observed : ObservedEdit) (revision : Option Revision) (code : SafeErrorCode)
    (p : ProjectionRow) : ProjectionRow :=
  { p with
    status := .held
    recoveryOperation := some observed.operation
    safeErrorCode := some code
    destinationEtag := match observed with
      | .drifted => revision
      | .missing => p.destinationEtag }

/-- `holdOwnershipMismatch` on the projection. -/
def holdMismatchProjection (revision : Revision) (p : ProjectionRow) : ProjectionRow :=
  { p with
    status := .held
    ownership := .ambiguous
    recoveryOperation := some .update
    safeErrorCode := some (.error .ownershipMismatch)
    destinationEtag := some revision }

/-- An owned copy that was edited or deleted. -/
def settleEdit (setup : Setup) (input : SettleInput) (target : VerificationTarget)
    (observed : ObservedEdit) (revision : Option Revision) (p : ProjectionRow) (s : State) : State :=
  match verifiedDesired setup target p with
  | none => s
  | some desired =>
    match planDestinationEditResponse setup.policy.destinationEdits observed with
    | .repair notice _ =>
      (scheduleRepair input target observed revision notice desired p s).getD s
    | .hold notice code =>
      recordSyncNotice input.notice (some notice) (noticeDetailForDesiredCopy observed desired)
        { s with projection := some (holdEditProjection observed revision code p) }

def settle (setup : Setup) (input : SettleInput) (lookup : Lookup) (s : State) : State :=
  match s.projection with
  | none => s
  | some p =>
    if unmoved setup lookup.target s p then
      match classifyDestinationVerification setup lookup.target lookup.observed with
      | .current _ => s
      | .missing => settleEdit setup input lookup.target .missing none p s
      | .drifted revision => settleEdit setup input lookup.target .drifted (some revision) p s
      | .ownershipMismatch revision =>
        { s with projection := some (holdMismatchProjection revision p) }
    else s

/-! ## What settling can do -/

/-- The lookup says that the owned copy was edited, with the revision seen, or deleted. -/
def Lookup.Shows (setup : Setup) (lookup : Lookup) : ObservedEdit → Option Revision → Prop
  | .missing, revision => revision = none ∧ lookup.observed = none
  | .drifted, revision => ∃ event, lookup.observed = some event ∧ revision = some event.revision ∧
      eventBelongsToProjection event setup.policyId setup.projectionId lookup.target.generation =
        true ∧ some event.revision ≠ lookup.target.destinationRevision

/-- The outcomes of settling a lookup. -/
inductive Settled (setup : Setup) (input : SettleInput) (lookup : Lookup) (s : State) :
    State → Prop
  | unchanged : Settled setup input lookup s s
  | repaired (p : ProjectionRow) (hp : s.projection = some p)
      (hun : unmoved setup lookup.target s p = true) (observed : ObservedEdit)
      (revision : Option Revision) (hshow : lookup.Shows setup observed revision)
      (desired : DesiredCopy) (hd : verifiedDesired setup lookup.target p = some desired)
      (notices : List NoticeRow) :
      Settled setup input lookup s
        { s with
          projection := some (repairProjection observed revision desired p)
          effects := s.effects ++ [repairEffect input lookup.target observed desired p]
          notices }
  | editHeld (p : ProjectionRow) (hp : s.projection = some p)
      (hun : unmoved setup lookup.target s p = true) (observed : ObservedEdit)
      (revision : Option Revision) (hshow : lookup.Shows setup observed revision)
      (desired : DesiredCopy) (hd : verifiedDesired setup lookup.target p = some desired)
      (code : SafeErrorCode) (hcode : code ∈ destinationEditHoldCodes)
      (notices : List NoticeRow) :
      Settled setup input lookup s
        { s with projection := some (holdEditProjection observed revision code p), notices }
  | mismatchHeld (p : ProjectionRow) (hp : s.projection = some p)
      (hun : unmoved setup lookup.target s p = true) (event : RemoteEvent)
      (hobs : lookup.observed = some event)
      (hown : eventBelongsToProjection event setup.policyId setup.projectionId
        lookup.target.generation = false) :
      Settled setup input lookup s
        { s with projection := some (holdMismatchProjection event.revision p) }

section Cases

variable {setup : Setup} {input : SettleInput} {lookup : Lookup} {s : State}

/-- What `unmoved` checks. -/
structure Unmoved (setup : Setup) (target : VerificationTarget) (s : State) (p : ProjectionRow) :
    Prop where
  active : s.policyStatus = .active
  revision : setup.policy.revision = target.policyRevision
  status : p.status = .converged
  ownership : p.ownership = .attached
  policyRevision : p.policyRevision = target.policyRevision
  generation : p.generation = target.generation
  destinationEventId : p.destinationEventId = some target.destinationEventId
  destinationEtag : p.destinationEtag = target.destinationRevision
  desiredHash : p.desiredHash = some target.desiredHash
  idle : ∀ e ∈ s.effects, e.unfinished = false

theorem unmoved_spec {target : VerificationTarget} {p : ProjectionRow}
    (h : unmoved setup target s p = true) : Unmoved setup target s p := by
  simp only [unmoved, Bool.and_eq_true, decide_eq_true_eq, Bool.not_eq_true', State.hasUnfinished,
    List.any_eq_false, Bool.not_eq_true] at h
  obtain ⟨⟨⟨⟨⟨⟨⟨⟨⟨h₁, h₂⟩, h₃⟩, h₄⟩, h₅⟩, h₆⟩, h₇⟩, h₈⟩, h₉⟩, h₁₀⟩ := h
  exact ⟨h₁, h₂, h₃, h₄, h₅, h₆, h₇, h₈, h₉, h₁₀⟩

theorem planDestinationEditResponse_hold {policy : DestinationEditPolicy} {observed : ObservedEdit}
    {notice : NoticeKind} {code : SafeErrorCode}
    (h : planDestinationEditResponse policy observed = .hold notice code) :
    code ∈ destinationEditHoldCodes := by
  obtain ⟨onEdit, onDelete⟩ := policy
  cases observed <;> cases onEdit <;> cases onDelete <;> cases h <;> decide

theorem settleEdit_cases {p : ProjectionRow} (hp : s.projection = some p)
    (hun : unmoved setup lookup.target s p = true) {observed : ObservedEdit}
    {revision : Option Revision} (hshow : lookup.Shows setup observed revision) :
    Settled setup input lookup s (settleEdit setup input lookup.target observed revision p s) := by
  unfold settleEdit
  cases hd : verifiedDesired setup lookup.target p with
  | none => exact .unchanged
  | some desired =>
    cases hplan : planDestinationEditResponse setup.policy.destinationEdits observed with
    | hold notice code =>
      exact .editHeld p hp hun observed revision hshow desired hd code
        (planDestinationEditResponse_hold hplan) _
    | repair notice code =>
      dsimp only [scheduleRepair]
      cases hins : s.insertEffect (repairEffect input lookup.target observed desired p) with
      | none => exact .unchanged
      | some s' =>
        rw [State.insertEffect_some hins]
        exact .repaired p hp hun observed revision hshow desired hd _

/-- **The settling of a lookup, described.** -/
theorem settle_cases : Settled setup input lookup s (settle setup input lookup s) := by
  unfold settle
  cases hp : s.projection with
  | none => exact .unchanged
  | some p =>
    dsimp only
    by_cases hun : unmoved setup lookup.target s p = true
    · rw [if_pos hun]
      unfold classifyDestinationVerification
      cases hobs : lookup.observed with
      | none => exact settleEdit_cases hp hun ⟨rfl, hobs⟩
      | some event =>
        dsimp only
        cases hown : eventBelongsToProjection event setup.policyId setup.projectionId
            lookup.target.generation with
        | false => exact .mismatchHeld p hp hun event hobs hown
        | true =>
          by_cases hrev : some event.revision = lookup.target.destinationRevision
          · simp only [Bool.not_true, Bool.false_eq_true, if_false, if_pos hrev]
            exact .unchanged
          · simp only [Bool.not_true, Bool.false_eq_true, if_false, if_neg hrev]
            exact settleEdit_cases hp hun ⟨event, hobs, rfl, hown, hrev⟩
    · rw [if_neg hun]
      exact .unchanged

end Cases

end Planipus.Sync

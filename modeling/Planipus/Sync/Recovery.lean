import Planipus.Sync.Effects

/-!
# User commands: pause, recovery and decisions on holds

`setPaused` and `retryBlocked` of `server/src/policy/service.ts` and the decisions of
`server/src/sync/notices.ts`. A command that throws rolls its transaction back, the job it may have
enqueued included. `retryBlocked_cases` and `resolve_cases` list what the two recovering commands
can do.
-/

namespace Planipus.Sync

open CalendarSync Provider

inductive PolicyInputError | notFound | noticeNotResolvable | holdStale | calendarCapability
deriving DecidableEq

/-! ## Pause and resume -/

/-- A resume makes the effects that the pause deferred due again. -/
def resumeEffect (setup : Setup) (now : Instant) (e : EffectRow) : EffectRow :=
  if e.policyRevision = setup.policy.revision ∧ e.state = .retry ∧
      e.safeErrorCode = some .policyPaused then
    { e with runAfter := now, safeErrorCode := none }
  else e

def setPaused (setup : Setup) (paused : Bool) (now : Instant) (s : State) :
    Except PolicyInputError State :=
  if s.policyStatus = .deleted then .error .notFound
  else if paused then .ok { s with policyStatus := .paused }
  else if !(s.source.usable .source && s.destination.usable .destination) then
    .error .calendarCapability
  else
    .ok (State.enqueue
      { s with policyStatus := .active, effects := s.effects.map (resumeEffect setup now) }
      .revision)

/-! ## Recovery effects -/

structure RecoveryInput where
  now : Instant
  insertion : Insertion
deriving DecidableEq

/-- The stored source event is the one the projection's recovery payload was made from. -/
def basisMatches (s : State) (p : ProjectionRow) : Bool :=
  p.sourceBasisHash = some s.observation.basis

/-- The projection carries the payload for its recovery operation. -/
def recoveryEvidence (setup : Setup) (p : ProjectionRow) (operation : Operation) : Bool :=
  match operation with
  | .delete => p.desiredHash = none && p.desiredState = none
  | _ => p.desiredState.any fun desired =>
      desired.provenance = ⟨setup.policyId, setup.projectionId, p.generation⟩ &&
        p.desiredHash = some (sha256Canonical desired)

/-- An effect that reads before it writes. -/
def recoveryEffect (setup : Setup) (kind : IntentKind) (input : RecoveryInput)
    (operation : Operation) (p : ProjectionRow) : EffectRow :=
  { id := input.insertion.id
    createdAt := input.insertion.createdAt
    policyRevision := setup.policy.revision
    sourceBasisHash := p.sourceBasisHash
    operation
    idempotencyKey :=
      { kind
        policyRevision := setup.policy.revision
        generation := p.generation
        intentSequence := p.intentSequence + 1
        operation
        desiredFingerprint := p.desiredHash }
    desiredState := p.desiredState
    runAfter := input.now
    ambiguous := true }

def recoveringProjection (p : ProjectionRow) : ProjectionRow :=
  { p with intentSequence := p.intentSequence + 1, recoveryOperation := none, status := .retrying,
           safeErrorCode := none }

/-- Queue the recovery of a projection; `none` when the insert fails. -/
def queueRecovery (setup : Setup) (kind : IntentKind) (input : RecoveryInput)
    (operation : Operation) (p : ProjectionRow) (s : State) : Option State :=
  (s.insertEffect (recoveryEffect setup kind input operation p)).map fun s' =>
    { s' with projection := some (recoveringProjection p) }

theorem queueRecovery_some {setup : Setup} {kind : IntentKind} {input : RecoveryInput}
    {operation : Operation} {p : ProjectionRow} {s s' : State}
    (h : queueRecovery setup kind input operation p s = some s') :
    s' = { s with
      projection := some (recoveringProjection p)
      effects := s.effects ++ [recoveryEffect setup kind input operation p] } := by
  unfold queueRecovery at h
  obtain ⟨s₁, hs₁, rfl⟩ := Option.map_eq_some_iff.1 h
  rw [State.insertEffect_some hs₁]

/-! ## Decisions on destination-edit holds -/

def acknowledge (id : NoticeId) (s : State) : State :=
  { s with
    notices := s.notices.map fun n =>
      if n.id = id ∧ n.status = .unread then { n with status := .acknowledged } else n }

def finishNotice (id : NoticeId) (resolution : Resolution) (s : State) : State :=
  { s with
    notices := s.notices.map fun n =>
      if n.id = id then { n with status := .resolved, resolution := some resolution } else n }

def detachProjection (p : ProjectionRow) : ProjectionRow :=
  { p with ownership := .detached, status := .converged, recoveryOperation := none,
           safeErrorCode := none }

/-- `resolve` with the action `restore`, once the hold is found. -/
def restoreHeld (setup : Setup) (input : RecoveryInput) (p : ProjectionRow) (s : State) :
    Except PolicyInputError State :=
  match p.recoveryOperation with
  | none => .error .holdStale
  | some operation =>
    if p.policyRevision ≠ setup.policy.revision then .error .holdStale
    else if !basisMatches s p then .error .holdStale
    else if !recoveryEvidence setup p operation then .error .holdStale
    else
      match queueRecovery setup .destinationEditHoldRestore input operation p s with
      | none => .error .holdStale
      | some s' => .ok s'

def resolve (setup : Setup) (input : RecoveryInput) (id : NoticeId) (action : Resolution)
    (s : State) : Except PolicyInputError State :=
  match s.notices.find? fun n => n.id = id with
  | none => .error .notFound
  | some notice =>
    if notice.kind ∉ heldNoticeKinds ∨ notice.status = .resolved then .error .noticeNotResolvable
    else if s.policyStatus = .deleted then .error .notFound
    else
      match s.projection with
      | none => .error .holdStale
      | some p =>
        if !isDestinationEditHold p then .error .holdStale
        else
          match action with
          | .keepAndDetach =>
            .ok (finishNotice id .keepAndDetach { s with projection := some (detachProjection p) })
          | .restore => (restoreHeld setup input p s).map (finishNotice id .restore)

/-- The outcomes of an accepted decision. -/
inductive Resolved (setup : Setup) (input : RecoveryInput) (s : State) : State → Prop
  | detached (p : ProjectionRow) (hp : s.projection = some p)
      (hheld : isDestinationEditHold p = true) (notices : List NoticeRow) :
      Resolved setup input s { s with projection := some (detachProjection p), notices }
  | restored (p : ProjectionRow) (hp : s.projection = some p)
      (hheld : isDestinationEditHold p = true) (operation : Operation)
      (hop : p.recoveryOperation = some operation) (hrev : p.policyRevision = setup.policy.revision)
      (hbasis : basisMatches s p = true) (hevid : recoveryEvidence setup p operation = true)
      (notices : List NoticeRow) :
      Resolved setup input s
        { s with
          projection := some (recoveringProjection p)
          effects := s.effects ++
            [recoveryEffect setup .destinationEditHoldRestore input operation p]
          notices }

/-! ## Retrying what is blocked -/

/-- The dead effect can be replayed as it is. -/
def deadReplayable (setup : Setup) (s : State) (p : ProjectionRow) (dead : EffectRow) : Bool :=
  dead.policyRevision = setup.policy.revision &&
    dead.sourceBasisHash = p.sourceBasisHash && basisMatches s p &&
    match dead.operation with
    | .delete => p.desiredHash = none && p.desiredState = none
    | _ => dead.desiredState.any fun desired =>
        desired.provenance = ⟨setup.policyId, setup.projectionId, p.generation⟩ &&
          p.desiredHash = some (sha256Canonical desired) &&
          p.desiredState.any fun current => p.desiredHash = some (sha256Canonical current)

def replayEffect (now : Instant) (e : EffectRow) : EffectRow :=
  { closeEffect .retry none true e with attemptCount := 0, runAfter := now }

def replayedProjection (p : ProjectionRow) : ProjectionRow :=
  { p with recoveryOperation := none, status := .retrying, safeErrorCode := none }

/-- The projection after a recovery that needs a fresh reconciliation first. -/
def recoveryStale (status : ProjectionStatus) (p : ProjectionRow) : ProjectionRow :=
  { p with status, safeErrorCode := some .recoveryBasisChanged }

/-- Whether `retryBlocked` selects the projection. -/
def retrySelects (s : State) (p : ProjectionRow) : Bool :=
  p.status = .held || p.status = .failed || s.hasDead

/-- The projection carries everything for an effect of its own recovery. -/
def recoverable (setup : Setup) (s : State) (p : ProjectionRow) : Bool :=
  p.recoveryOperation.any fun operation =>
    p.policyRevision = setup.policy.revision && basisMatches s p &&
      recoveryEvidence setup p operation

/-- The projection's own recovery, with the blocking effect replayed or out of the way.
`superseded` is that effect, if there was one. -/
def retryProjection (setup : Setup) (input : RecoveryInput) (superseded : Option EffectRow)
    (p : ProjectionRow) (s : State) : Option State :=
  -- With a superseded blocker the projection must not stay behind without a next step.
  let giveUp (key : JobKey) : State :=
    if superseded.isSome then
      State.enqueue { s with projection := some (recoveryStale .failed p) } key
    else s
  if superseded = none ∧ (p.status ≠ .held ∨ p.ownership ≠ .ambiguous) then some s
  else
    match p.recoveryOperation with
    | none => some (giveUp (superseded.elim .recoveryBasis fun dead => .recovery dead.id))
    | some operation =>
      if p.policyRevision ≠ setup.policy.revision then
        some (giveUp (superseded.elim .recoveryBasis fun dead => .recovery dead.id))
      else if !basisMatches s p then
        let status : ProjectionStatus := if superseded.isSome then .failed else .held
        some (State.enqueue { s with projection := some (recoveryStale status p) } .recoveryBasis)
      else if !recoveryEvidence setup p operation then some (giveUp .recoveryPayload)
      else queueRecovery setup .userRequestedAmbiguousRecovery input operation p s

def supersedeDead (setup : Setup) (dead : EffectRow) : EffectRow → EffectRow :=
  finishEffect (some (if dead.policyRevision = setup.policy.revision then .recoveryBasisChanged
    else .policyRevisionSuperseded))

def retryBlocked (setup : Setup) (input : RecoveryInput) (s : State) :
    Except PolicyInputError State :=
  if s.policyStatus = .deleted then .error .notFound
  else
    match s.projection with
    | none => .ok s
    | some p =>
      if !retrySelects s p then .ok s
      else
        match blockingDeadEffect s.effects with
        | none => .ok ((retryProjection setup input none p s).getD s)
        | some dead =>
          if deadReplayable setup s p dead then
            .ok { s.mapEffect dead.id (replayEffect input.now) with
              projection := some (replayedProjection p) }
          else
            .ok ((retryProjection setup input (some dead) p
              (s.mapEffect dead.id (supersedeDead setup dead))).getD s)

/-- The outcomes of a retry. -/
inductive Retried (setup : Setup) (input : RecoveryInput) (s : State) : State → Prop
  | unchanged : Retried setup input s s
  | replayed (p : ProjectionRow) (hp : s.projection = some p) (dead : EffectRow)
      (hdead : blockingDeadEffect s.effects = some dead)
      (hreplay : deadReplayable setup s p dead = true) :
      Retried setup input s
        { s.mapEffect dead.id (replayEffect input.now) with
          projection := some (replayedProjection p) }
  | gaveUp (p : ProjectionRow) (hp : s.projection = some p) (dead : EffectRow)
      (hdead : blockingDeadEffect s.effects = some dead)
      (hreplay : deadReplayable setup s p dead = false) (hno : recoverable setup s p = false)
      (jobs : List JobKey) :
      Retried setup input s
        { s.mapEffect dead.id (supersedeDead setup dead) with
          projection := some (recoveryStale .failed p), jobs }
  | stale (p : ProjectionRow) (hp : s.projection = some p)
      (hdead : blockingDeadEffect s.effects = none)
      (hheld : p.status = .held ∧ p.ownership = .ambiguous) (jobs : List JobKey) :
      Retried setup input s { s with projection := some (recoveryStale .held p), jobs }
  | requeued (p : ProjectionRow) (hp : s.projection = some p) (effects : List EffectRow)
      (heff : (effects = s.effects ∧ blockingDeadEffect s.effects = none ∧
          p.status = .held ∧ p.ownership = .ambiguous) ∨
        ∃ dead, blockingDeadEffect s.effects = some dead ∧
          effects = (s.mapEffect dead.id (supersedeDead setup dead)).effects)
      (operation : Operation) (hop : p.recoveryOperation = some operation)
      (hrev : p.policyRevision = setup.policy.revision) (hbasis : basisMatches s p = true)
      (hevid : recoveryEvidence setup p operation = true) :
      Retried setup input s
        { s with
          projection := some (recoveringProjection p)
          effects := effects ++
            [recoveryEffect setup .userRequestedAmbiguousRecovery input operation p] }

/-! ## What the commands can do -/

section Cases

variable {setup : Setup} {input : RecoveryInput} {s s' : State}

/-- **A decision on a hold, described.** -/
theorem resolve_cases {id : NoticeId} {action : Resolution}
    (h : resolve setup input id action s = .ok s') : Resolved setup input s s' := by
  unfold resolve at h
  split at h
  · cases h
  split at h
  · cases h
  split at h
  · cases h
  split at h
  · cases h
  rename_i p hp
  split at h
  · cases h
  rename_i hheld
  have hheld' : isDestinationEditHold p = true := by simpa using hheld
  cases action with
  | keepAndDetach =>
    cases h
    exact .detached p hp hheld' _
  | restore =>
    unfold restoreHeld at h
    dsimp only at h
    split at h
    · cases h
    rename_i operation hop
    split at h
    · cases h
    rename_i hrev
    split at h
    · cases h
    rename_i hbasis
    split at h
    · cases h
    rename_i hevid
    split at h
    · cases h
    rename_i s₁ hs₁
    cases h
    rw [queueRecovery_some hs₁]
    exact .restored p hp hheld' operation hop (not_not.1 hrev) (by simpa using hbasis)
      (by simpa using hevid) _

/-- **A retry, described.** -/
theorem retryBlocked_cases (h : retryBlocked setup input s = .ok s') :
    Retried setup input s s' := by
  unfold retryBlocked at h
  split at h
  · cases h
  split at h
  · cases h
    exact .unchanged
  rename_i p hp
  split at h
  · cases h
    exact .unchanged
  split at h
  · rename_i hdead
    cases h
    unfold retryProjection
    dsimp only [Option.isSome_none]
    split
    · exact .unchanged
    rename_i hheld
    have hheld' : p.status = .held ∧ p.ownership = .ambiguous := by
      simpa [not_or] using hheld
    split
    · exact .unchanged
    rename_i operation hop
    split
    · exact .unchanged
    rename_i hrev
    split
    · obtain ⟨jobs, hjobs⟩ := State.enqueue_eq
        { s with projection := some (recoveryStale .held p) } .recoveryBasis
      simp only [Bool.false_eq_true, if_false, Option.getD_some, hjobs]
      exact .stale p hp hdead hheld' jobs
    rename_i hbasis
    split
    · exact .unchanged
    rename_i hevid
    cases hq : queueRecovery setup .userRequestedAmbiguousRecovery input operation p s with
    | none => exact .unchanged
    | some s₁ =>
      rw [queueRecovery_some hq]
      exact .requeued p hp s.effects (Or.inl ⟨rfl, hdead, hheld'⟩) operation hop (not_not.1 hrev)
        (by simpa using hbasis) (by simpa using hevid)
  · rename_i dead hdead
    split at h
    · rename_i hreplay
      cases h
      exact .replayed p hp dead hdead hreplay
    cases h
    unfold retryProjection
    dsimp only [Option.isSome_some]
    rename_i hreplay
    have hreplay' : deadReplayable setup s p dead = false := by simpa using hreplay
    have hgive : recoverable setup s p = false → ∀ key, Retried setup input s (State.enqueue
        { s.mapEffect dead.id (supersedeDead setup dead) with
          projection := some (recoveryStale .failed p) } key) := by
      intro hno key
      obtain ⟨jobs, hjobs⟩ := State.enqueue_eq
        { s.mapEffect dead.id (supersedeDead setup dead) with
          projection := some (recoveryStale .failed p) } key
      rw [hjobs]
      exact .gaveUp p hp dead hdead hreplay' hno jobs
    have hsame : basisMatches (s.mapEffect dead.id (supersedeDead setup dead)) p =
        basisMatches s p := rfl
    rw [if_neg (by simp)]
    split
    · rename_i hop
      exact hgive (by simp [recoverable, hop]) _
    rename_i operation hop
    split
    · rename_i hrev
      exact hgive (by simp [recoverable, hop, hrev]) _
    rename_i hrev
    split
    · rename_i hbasis
      rw [hsame, Bool.not_eq_true'] at hbasis
      exact hgive (by simp [recoverable, hop, hbasis]) _
    rename_i hbasis
    have hbasis' : basisMatches (s.mapEffect dead.id (supersedeDead setup dead)) p = true := by
      simpa using hbasis
    split
    · rename_i hevid
      rw [Bool.not_eq_true'] at hevid
      exact hgive (by simp [recoverable, hop, hevid]) _
    rename_i hevid
    cases hq : queueRecovery setup .userRequestedAmbiguousRecovery input operation p
        (s.mapEffect dead.id (supersedeDead setup dead)) with
    | none => exact .unchanged
    | some s₁ =>
      rw [queueRecovery_some hq]
      exact .requeued p hp _ (Or.inr ⟨dead, hdead, rfl⟩) operation hop (not_not.1 hrev)
        hbasis' (by simpa using hevid)

end Cases

end Planipus.Sync

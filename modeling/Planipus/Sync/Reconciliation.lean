import Planipus.Sync.State

/-!
# Reconciliation

`server/src/sync/reconciliation.ts`: one transaction of a pass turns a version of the source event
into the projection's desired state and an outbox effect. `reconcileObservation_cases` lists what
the transaction can do.
-/

namespace Planipus.Sync

open CalendarSync Provider

def dayMilliseconds : Int := 86400000

/-! ## From the stored rows to the evaluation -/

/-- What a pass loads beside the policy. The destination is writable, or the pass had not begun. -/
structure PassContext where
  now : Instant
  privateVisibility : Bool := true
  conferenceCopy : Bool := false
  color : Bool := true
  hoursProfile : Option HoursProfile := none
  destinationIdentity : String
deriving DecidableEq

def PassContext.capabilities (ctx : PassContext) : DestinationCapabilities :=
  ⟨true, ctx.privateVisibility, ctx.conferenceCopy, ctx.color⟩

def normalizeIdentity (env : Platform) (value : String) : String :=
  env.toLowerCase (env.trim (env.normalizeNFC value))

def markDestinationIdentityInvitation (env : Platform) (source : SourceObservation)
    (destinationIdentity : String) : SourceObservation :=
  let identity := normalizeIdentity env destinationIdentity
  let invited := source.destinationIdentityInvited ||
    (source.attendees.getD []).any (fun attendee => normalizeIdentity env attendee = identity) ||
    source.organizer.any (fun organizer => normalizeIdentity env organizer = identity)
  { source with destinationIdentityInvited := invited }

def observationForEvaluation (source : SourceObservation) (tombstone : Bool) : SourceObservation :=
  if tombstone && source.lifecycle = .confirmed then { source with lifecycle := .deleted }
  else source

def Ownership.forEvaluation : Ownership → ProjectionOwnership
  | attached => .attached
  | detached => .detached
  | ambiguous => .attached

/-- A deleted copy is a retained identity and not an attached destination; an ambiguous one is
evaluated as if attached, which refreshes its recovery payload only. -/
def projectionInput (setup : Setup) (p : ProjectionRow) : ProjectionInput :=
  { ownership := if p.status = .deleted ∧ p.destinationEventId = none then .none
      else p.ownership.forEvaluation
    projectionRef := some setup.projectionId
    generation := some p.generation
    destinationEventRef := p.destinationEventId
    destinationExists := some p.destinationEventId.isSome
    desiredFingerprint := p.desiredHash }

def evaluationInput (setup : Setup) (ctx : PassContext) (o : ObservationRow)
    (existing : Option ProjectionRow) : PolicyEvaluationInput :=
  let horizon := setup.configuredHorizon.getD ⟨30, 365⟩
  { now := ctx.now
    horizon := ⟨ctx.now - horizon.pastDays * dayMilliseconds,
      ctx.now + horizon.futureDays * dayMilliseconds⟩
    candidateProjectionRef := setup.projectionId
    policy := setup.policy
    hoursProfile := ctx.hoursProfile
    source := markDestinationIdentityInvitation setup.platform
      (observationForEvaluation o.normalizedEvent o.tombstone) ctx.destinationIdentity
    projection := match existing with
      | some p => projectionInput setup p
      | none => { ownership := .none }
    destinationCapabilities := ctx.capabilities }

def evaluate (setup : Setup) (ctx : PassContext) (o : ObservationRow)
    (existing : Option ProjectionRow) : PolicyEvaluationResult :=
  evaluatePolicy setup.platform (evaluationInput setup ctx o existing)

/-! ## From the evaluation to the stored rows -/

/-- `desired_hash`, `desired_state` and `safe_error_code` of a result. -/
structure ProjectionPersistence where
  desiredHash : Option (Digest DesiredCopy)
  desiredState : Option DesiredCopy
  safeErrorCode : Option SafeErrorCode

def projectionPersistenceForResult (r : PolicyEvaluationResult) (existing : Option ProjectionRow) :
    ProjectionPersistence :=
  let preserved := if r.selection = .held ∧ r.operation = .none then existing else none
  { desiredHash := r.desiredFingerprint <|> preserved.bind (·.desiredHash)
    desiredState := r.desiredCopy <|> preserved.bind (·.desiredState)
    safeErrorCode := match r.selection with
      | .invalid => some (.reason r.primaryReasonCode)
      | .held => existing.bind (·.safeErrorCode) <|> some (.reason r.primaryReasonCode)
      | _ => none }

def recoveryOperationForResult (r : PolicyEvaluationResult) : Option Operation :=
  match r.selection, r.operation with
  | .included, .create => some .create
  | .included, _ => some .update
  | .excluded, .delete => some .delete
  | _, _ => none

/-- The update of a projection that a dead effect, an ambiguous ownership or a destination-edit
hold keeps from being written to. -/
def shadowRefresh (setup : Setup) (o : ObservationRow) (r : PolicyEvaluationResult)
    (dead : Option EffectRow) (p : ProjectionRow) : ProjectionRow :=
  { p with
    policyRevision := setup.policy.revision
    sourceBasisHash := some o.basis
    recoveryOperation := recoveryOperationForResult r
    desiredHash := r.desiredFingerprint
    desiredState := r.desiredCopy
    status := if p.ownership = .ambiguous || isDestinationEditHold p then .held else .failed
    safeErrorCode := match recoveryOperationForResult r with
      | none => some (.reason r.primaryReasonCode)
      | some _ => dead.bind (·.safeErrorCode) <|> p.safeErrorCode <|> some .effectRecoveryRequired }

/-- The status of a projection whose evaluation asks for no operation. -/
def settledStatus (r : PolicyEvaluationResult) (p : ProjectionRow) : ProjectionStatus :=
  if r.selection = .held then .held
  else if p.status = .deleted ∧ p.destinationEventId = none then .deleted
  else .converged

/-- The update of an existing projection that nothing blocks. -/
def refresh (setup : Setup) (o : ObservationRow) (r : PolicyEvaluationResult)
    (p : ProjectionRow) : ProjectionRow :=
  let persistence := projectionPersistenceForResult r (some p)
  { p with
    policyRevision := setup.policy.revision
    sourceBasisHash := some o.basis
    recoveryOperation := none
    intentSequence := if r.operation = .none then p.intentSequence else p.intentSequence + 1
    desiredHash := persistence.desiredHash
    desiredState := persistence.desiredState
    status := if r.operation = .none then settledStatus r p else .pending
    safeErrorCode := persistence.safeErrorCode }

/-- The first row of a projection. -/
def newProjection (setup : Setup) (o : ObservationRow) (r : PolicyEvaluationResult) :
    ProjectionRow :=
  let persistence := projectionPersistenceForResult r none
  { policyRevision := setup.policy.revision
    sourceBasisHash := some o.basis
    recoveryOperation := none
    destinationEventId := none
    destinationEtag := none
    generation := 1
    intentSequence := if r.operation = .none then 0 else 1
    desiredHash := persistence.desiredHash
    desiredState := persistence.desiredState
    status := if r.operation = .none then .held else .pending
    ownership := if r.selection = .held then .ambiguous else .attached
    safeErrorCode := persistence.safeErrorCode }

/-- The effect that carries out `operation` for the refreshed projection `p`. -/
def intentFor (setup : Setup) (ctx : PassContext) (o : ObservationRow) (ins : Insertion)
    (operation : Operation) (p : ProjectionRow) : EffectRow :=
  { id := ins.id
    createdAt := ins.createdAt
    policyRevision := setup.policy.revision
    sourceBasisHash := some o.basis
    operation
    idempotencyKey :=
      { kind := .reconciliation
        policyRevision := setup.policy.revision
        generation := p.generation
        intentSequence := p.intentSequence
        operation
        desiredFingerprint := p.desiredHash }
    desiredState := p.desiredState
    runAfter := ctx.now }

/-- Something keeps the projection from being written to. -/
def blocked (s : State) (p : ProjectionRow) : Bool :=
  (blockingDeadEffect s.effects).isSome || p.ownership = .ambiguous || isDestinationEditHold p

def reconcileObservation (setup : Setup) (ctx : PassContext) (o : ObservationRow)
    (ins : Insertion) (s : State) : State :=
  let r := evaluate setup ctx o s.projection
  match s.projection with
  | some p =>
    if blocked s p then
      { s with
        projection := some (shadowRefresh setup o r (blockingDeadEffect s.effects) p) }
    else
      let p' := refresh setup o r p
      let s' := { s with projection := some p' }
      match Operation.ofEvaluation r.operation with
      | none => s'
      | some operation => (s'.insertEffect (intentFor setup ctx o ins operation p')).getD s'
  | none =>
    match Operation.ofEvaluation r.operation with
    | none => s
    | some operation =>
      let p' := newProjection setup o r
      let s' := { s with projection := some p' }
      (s'.insertEffect (intentFor setup ctx o ins operation p')).getD s'

/-! ## What the transaction can do -/

section Cases

variable {setup : Setup} {ctx : PassContext} {o : ObservationRow} {ins : Insertion} {s : State}

/-- The outcomes of a reconcile transaction. -/
inductive Reconciled (setup : Setup) (ctx : PassContext) (o : ObservationRow) (ins : Insertion)
    (s : State) : State → Prop
  | absent (h : s.projection = none)
      (hop : Operation.ofEvaluation (evaluate setup ctx o s.projection).operation = none) :
      Reconciled setup ctx o ins s s
  | shadowed (p : ProjectionRow) (h : s.projection = some p) (hb : blocked s p = true) :
      Reconciled setup ctx o ins s
        { s with
          projection := some (shadowRefresh setup o (evaluate setup ctx o (some p))
            (blockingDeadEffect s.effects) p) }
  | settled (p : ProjectionRow) (h : s.projection = some p) (hb : blocked s p = false)
      (hop : (evaluate setup ctx o (some p)).operation = .none) :
      Reconciled setup ctx o ins s
        { s with projection := some (refresh setup o (evaluate setup ctx o (some p)) p) }
  | queued (p' : ProjectionRow) (operation : Operation)
      (hp' : (s.projection = none ∧ p' = newProjection setup o (evaluate setup ctx o none)) ∨
        ∃ p, s.projection = some p ∧ blocked s p = false ∧
          p' = refresh setup o (evaluate setup ctx o (some p)) p)
      (hop : Operation.ofEvaluation (evaluate setup ctx o s.projection).operation = some operation)
      (effects : List EffectRow)
      (heff : effects = s.effects ++ [intentFor setup ctx o ins operation p'] ∨
        (effects = s.effects ∧ ∃ e ∈ s.effects,
          e.idempotencyKey = (intentFor setup ctx o ins operation p').idempotencyKey)) :
      Reconciled setup ctx o ins s { s with projection := some p', effects }

theorem insertEffect_getD (s : State) (row : EffectRow) :
    ∃ effects, (s.insertEffect row).getD s = { s with effects } ∧
      (effects = s.effects ++ [row] ∨
        (effects = s.effects ∧ ∃ e ∈ s.effects, e.idempotencyKey = row.idempotencyKey)) := by
  unfold State.insertEffect
  split
  · rename_i htaken
    obtain ⟨e, he, hkey⟩ := List.any_eq_true.1 htaken
    exact ⟨s.effects, rfl, Or.inr ⟨rfl, e, he, by simpa using hkey⟩⟩
  · exact ⟨_, rfl, Or.inl rfl⟩

theorem ofEvaluation_eq_none {op : EvaluationOperation} :
    Operation.ofEvaluation op = none ↔ op = .none := by
  cases op <;> simp [Operation.ofEvaluation]

/-- **The reconcile transaction, described.** -/
theorem reconcileObservation_cases :
    Reconciled setup ctx o ins s (reconcileObservation setup ctx o ins s) := by
  unfold reconcileObservation
  cases hp : s.projection with
  | none =>
    dsimp only
    cases hop : Operation.ofEvaluation (evaluate setup ctx o none).operation with
    | none => exact .absent hp (by rw [hp]; exact hop)
    | some operation =>
      dsimp only
      obtain ⟨effects, heq, heff⟩ := insertEffect_getD
        { s with projection := some (newProjection setup o (evaluate setup ctx o none)) }
        (intentFor setup ctx o ins operation (newProjection setup o (evaluate setup ctx o none)))
      rw [heq]
      exact .queued _ operation (Or.inl ⟨hp, rfl⟩) (by rw [hp]; exact hop) effects heff
  | some p =>
    dsimp only
    by_cases hb : blocked s p = true
    · rw [if_pos hb]
      exact .shadowed p hp hb
    · rw [if_neg hb]
      have hb' : blocked s p = false := by simpa using hb
      cases hop : Operation.ofEvaluation (evaluate setup ctx o (some p)).operation with
      | none => exact .settled p hp hb' (ofEvaluation_eq_none.1 hop)
      | some operation =>
        dsimp only
        obtain ⟨effects, heq, heff⟩ := insertEffect_getD
          { s with projection := some (refresh setup o (evaluate setup ctx o (some p)) p) }
          (intentFor setup ctx o ins operation
            (refresh setup o (evaluate setup ctx o (some p)) p))
        rw [heq]
        exact .queued _ operation (Or.inr ⟨p, hp, hb', rfl⟩) (by rw [hp]; exact hop) effects heff

/-- A projection with a queued effect waits for it. -/
theorem queued_pending {p' : ProjectionRow} {operation : Operation}
    (hp' : (s.projection = none ∧ p' = newProjection setup o (evaluate setup ctx o none)) ∨
      ∃ p, s.projection = some p ∧ blocked s p = false ∧
        p' = refresh setup o (evaluate setup ctx o (some p)) p)
    (hop : Operation.ofEvaluation (evaluate setup ctx o s.projection).operation = some operation) :
    p'.status = .pending := by
  have hne : ∀ existing, s.projection = existing →
      (evaluate setup ctx o existing).operation ≠ .none := by
    rintro existing rfl hnone
    rw [hnone] at hop
    cases hop
  rcases hp' with ⟨hp, rfl⟩ | ⟨p, hp, -, rfl⟩
  · simp [newProjection, hne none hp]
  · simp [refresh, hne (some p) hp]

end Cases

end Planipus.Sync

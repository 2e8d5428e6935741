import Planipus.Sync.Reconciliation

/-!
# The evaluations that reconciliation makes

`evaluate` is the evaluator on the input that a pass builds from the stored rows. The lemmas say
what its results can be for the row at hand: they never ask to hold, the fingerprint is the
fingerprint of the copy, a copy carries the projection's markers, and only a live version of the
source event gives one.
-/

namespace Planipus.Sync

open CalendarSync Provider

section Evaluation

variable {setup : Setup} {ctx : PassContext} {o : ObservationRow} {existing : Option ProjectionRow}

theorem evaluate_verdict (setup : Setup) (ctx : PassContext) (o : ObservationRow)
    (existing : Option ProjectionRow) :
    Verdict setup.platform (evaluationInput setup ctx o existing)
      (evaluate setup ctx o existing) :=
  evaluatePolicy_verdict setup.active

theorem projectionInput_ownership_ne (setup : Setup) (p : ProjectionRow) :
    (projectionInput setup p).ownership ≠ .ambiguous := by
  unfold projectionInput
  dsimp only
  split
  · simp
  · cases p.ownership <;> simp [Ownership.forEvaluation]

theorem evaluationInput_ownership_ne :
    (evaluationInput setup ctx o existing).projection.ownership ≠ .ambiguous := by
  cases existing with
  | none => simp [evaluationInput]
  | some p => exact projectionInput_ownership_ne setup p

theorem evaluate_fingerprint :
    (evaluate setup ctx o existing).desiredFingerprint =
      (evaluate setup ctx o existing).desiredCopy.map sha256Canonical :=
  (evaluate_verdict setup ctx o existing).fingerprint

theorem evaluate_selection_ne_held : (evaluate setup ctx o existing).selection ≠ .held :=
  (evaluate_verdict setup ctx o existing).selection_ne_held evaluationInput_ownership_ne

/-- The version of the source event that an evaluation sees is live exactly when it is stored as
live. -/
theorem evaluationInput_live
    (h : (evaluationInput setup ctx o existing).source.lifecycle = .confirmed) :
    o.tombstone = false := by
  by_contra htomb
  have hdead : o.normalizedEvent.lifecycle ≠ .confirmed := by
    simpa [o.tombstone_eq] using htomb
  have hsource : (evaluationInput setup ctx o existing).source.lifecycle ≠ .confirmed := by
    simp [evaluationInput, markDestinationIdentityInvitation, observationForEvaluation, hdead]
  exact hsource h

/-- What an included evaluation writes, with the markers it carries. -/
theorem evaluate_copy {d : DesiredCopy} (h : (evaluate setup ctx o existing).desiredCopy = some d) :
    o.tombstone = false ∧
      d.provenance =
        ⟨setup.policyId, setup.projectionId, (existing.map (·.generation)).getD 1⟩ := by
  obtain ⟨-, hlive, -, -, timing, availability, rfl⟩ := (evaluate_verdict _ _ _ _).copy h
  refine ⟨evaluationInput_live hlive, ?_⟩
  cases existing <;> rfl

theorem decideOperation_absent {projection : ProjectionInput} {desired : DesiredCopy}
    (h : projection.destinationExists = some false) :
    (decideOperation projection desired).1 = .create := by
  unfold decideOperation
  rw [if_pos h]
  split <;> rfl

/-- An update is asked for only where the projection names an event. -/
theorem evaluate_update (h : (evaluate setup ctx o existing).operation = .update) :
    ∃ p, existing = some p ∧ p.destinationEventId ≠ none := by
  have hverdict := evaluate_verdict setup ctx o existing
  generalize evaluate setup ctx o existing = r at *
  cases hverdict with
  | invalid code hv => cases h
  | excluded code removed hv =>
    unfold excluded at h
    split at h <;> cases h
  | detached reasons warnings hv hdet => cases h
  | ambiguous reasons warnings hv hamb => cases h
  | included _ timing availability hv hlive hown hsel hcopy hprint hop =>
    rw [hop] at h
    cases existing with
    | none => simp [decideOperation, evaluationInput] at h
    | some p =>
      refine ⟨p, rfl, fun hdest => ?_⟩
      rw [decideOperation_absent (by simp [evaluationInput, projectionInput, hdest])] at h
      cases h

theorem withGeneration_provenance {d : DesiredCopy} {policyRef projectionRef : String} {g : Nat}
    (h : d.provenance = ⟨policyRef, projectionRef, g⟩) (g' : Nat) :
    (d.withGeneration g').provenance = ⟨policyRef, projectionRef, g'⟩ := by
  simp [DesiredCopy.withGeneration, h]

/-! ## What is persisted -/

@[simp] theorem refresh_desiredState (setup : Setup) (o : ObservationRow) (p : ProjectionRow) :
    (refresh setup o (evaluate setup ctx o existing) p).desiredState =
      (evaluate setup ctx o existing).desiredCopy := by
  simp [refresh, projectionPersistenceForResult, evaluate_selection_ne_held]

@[simp] theorem refresh_desiredHash (setup : Setup) (o : ObservationRow) (p : ProjectionRow) :
    (refresh setup o (evaluate setup ctx o existing) p).desiredHash =
      (evaluate setup ctx o existing).desiredFingerprint := by
  simp [refresh, projectionPersistenceForResult, evaluate_selection_ne_held]

@[simp] theorem newProjection_desiredState (setup : Setup) (o : ObservationRow) :
    (newProjection setup o (evaluate setup ctx o existing)).desiredState =
      (evaluate setup ctx o existing).desiredCopy := by
  simp [newProjection, projectionPersistenceForResult]

@[simp] theorem newProjection_desiredHash (setup : Setup) (o : ObservationRow) :
    (newProjection setup o (evaluate setup ctx o existing)).desiredHash =
      (evaluate setup ctx o existing).desiredFingerprint := by
  simp [newProjection, projectionPersistenceForResult]

@[simp] theorem newProjection_ownership (setup : Setup) (o : ObservationRow) :
    (newProjection setup o (evaluate setup ctx o existing)).ownership = .attached := by
  simp [newProjection, evaluate_selection_ne_held]

end Evaluation

end Planipus.Sync

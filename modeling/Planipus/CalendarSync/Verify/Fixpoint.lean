import Planipus.CalendarSync.Canonical
import Planipus.Sync.Verify.Start

/-!
# A decision that is carried out

`evaluatePolicy` reads the projection in two places: to say what becomes of an event that is not
copied (`excluded`), and to compare what was observed and recorded with the desired copy. The
selection itself does not depend on it (`selectSource_alike`), and the desired copy only by the
reference and the generation that the copy carries. So once a decision is carried out there is
nothing left to do (`evaluatePolicy_settles`).
-/

namespace Planipus.CalendarSync

/-! ## The selection under two projections -/

section Alike

/-- The two inputs settle alike: the same event is selected, or it is excluded for one reason, or the
evaluation ends without an operation. -/
inductive SettleAlike (a b : PolicyEvaluationInput) :
    Except PolicyEvaluationResult Selected → Except PolicyEvaluationResult Selected → Prop
  | selected (chosen : Selected) : SettleAlike a b (.ok chosen) (.ok chosen)
  | excluded (code : ReasonCode) (removed : Bool) :
      SettleAlike a b (.error (excluded a code removed)) (.error (excluded b code removed))
  | ended (r : PolicyEvaluationResult) (h : r.operation = .none) : SettleAlike a b (.error r) (.error r)

variable (env : Platform) (input : PolicyEvaluationInput) (projection : ProjectionInput)

theorem resolveFree_alike (chosen : Selected) :
    SettleAlike input { input with projection } (resolveFree input chosen)
      (resolveFree { input with projection } chosen) := by
  unfold resolveFree
  dsimp only
  split
  · cases input.policy.selection.freeEvents with
    | skipWhenRedacted =>
      dsimp only
      split
      · exact .excluded _ _
      · exact .selected _
    | preserveFree => exact .selected _
    | forceBusy => exact .selected _
  · exact .selected _

theorem selectTiming_alike (timing : EventTiming) (availability : Availability)
    (reasons : List ReasonCode) :
    SettleAlike input { input with projection }
      (selectTiming env input timing availability reasons)
      (selectTiming env { input with projection } timing availability reasons) := by
  unfold selectTiming
  cases timing with
  | timed start finish startTzid endTzid =>
    dsimp only
    split
    · exact .excluded _ _
    · have hfree := resolveFree_alike input projection
        ⟨.timed start finish startTzid endTzid, availability, reasons ++ [.timedEventIncluded], []⟩
      revert hfree
      generalize resolveFree input _ = x, resolveFree { input with projection } _ = y
      intro hfree
      cases hfree with
      | selected chosen =>
        dsimp only
        split
        · exact .excluded _ _
        · exact .selected _
      | excluded code removed => exact .excluded _ _
      | ended r h => exact .ended r h
  | allDay startDate endDate timezone =>
    dsimp only
    cases input.policy.selection.allDay with
    | skip => exact .excluded _ _
    | busyOnly =>
      dsimp only
      split
      · exact .excluded _ _
      · exact resolveFree_alike input projection _
    | all => exact resolveFree_alike input projection _

/-- **The projection does not take part in the selection.** -/
theorem selectSource_alike :
    SettleAlike input { input with projection } (selectSource env input)
      (selectSource env { input with projection }) := by
  have hnosync : containsNoSync env { input with projection } = containsNoSync env input := rfl
  have heffective : effectiveAvailability { input with projection } = effectiveAvailability input := rfl
  unfold selectSource
  rw [hnosync, heffective]
  dsimp only
  cases input.source.lifecycle with
  | deleted => exact .excluded _ _
  | cancelled => exact .excluded _ _
  | confirmed =>
    dsimp only
    split
    · exact .excluded _ _
    split
    · exact .excluded _ _
    split
    · exact .excluded _ _
    split
    · exact .excluded _ _
    cases effectiveAvailability input with
    | error omitted => exact .excluded _ _
    | ok found =>
      obtain ⟨availability, reason⟩ := found
      dsimp only
      cases input.source.timing with
      | none => exact .ended _ rfl
      | some timing =>
        dsimp only
        split
        · exact .excluded _ _
        · exact selectTiming_alike env input projection timing availability _

end Alike

/-! ## The decision carried out -/

section CarriedOut

variable (nfc : String → String) (input : PolicyEvaluationInput) (r : PolicyEvaluationResult)

/-- The projection after a decision was carried out: after a write there is a copy, attached under the
reference and the generation that it carries, which reads back as the desired one. -/
inductive CarriedOut : ProjectionInput → Prop
  | written (p : ProjectionInput) (desired observed : DesiredCopy)
      (hop : r.operation = .create ∨ r.operation = .update) (hdesired : r.desiredCopy = some desired)
      (hown : p.ownership = .attached)
      (href : p.projectionRef.getD input.candidateProjectionRef = desired.provenance.projectionRef)
      (hgeneration : p.generation.getD 1 = desired.provenance.generation)
      (hexists : p.destinationExists = some true) (hobserved : p.observedCopy = some observed)
      (hsame : sameJson nfc observed desired = true)
      (hprint : p.desiredFingerprint = r.desiredFingerprint) : CarriedOut p
  | deleted (p : ProjectionInput) (hop : r.operation = .delete) (hown : p.ownership = .none) :
      CarriedOut p
  | unchanged (hop : r.operation = .none) : CarriedOut input.projection

variable {nfc input r} {env : Platform} {p : ProjectionInput}

/-- The copy depends on the projection by the reference and the generation alone. -/
theorem transform_projection (timing : EventTiming) (availability : Availability)
    (href : p.projectionRef.getD input.candidateProjectionRef =
      (transform input timing availability).1.provenance.projectionRef)
    (hgeneration : p.generation.getD 1 =
      (transform input timing availability).1.provenance.generation) :
    transform { input with projection := p } timing availability =
      transform input timing availability := by
  unfold transform at href hgeneration ⊢
  dsimp only at href hgeneration ⊢
  rw [href, hgeneration]

/-- What was written and read back needs no further operation. -/
theorem decideOperationText_written {desired observed : DesiredCopy} (hown : p.ownership = .attached)
    (hexists : p.destinationExists = some true) (hobserved : p.observedCopy = some observed)
    (hsame : sameJson nfc observed desired = true)
    (hprint : p.desiredFingerprint = some (fingerprint nfc desired)) :
    (decideOperationText nfc p desired).1 = .none := by
  simp [decideOperationText, hown, hexists, hobserved, hsame, hprint]

/-- An event that is excluded with no projection or one that has no copy is left alone. -/
theorem excluded_operation (input : PolicyEvaluationInput) (code : ReasonCode) (removed : Bool) :
    (excluded input code removed).operation =
      if input.projection.ownership = .attached then .delete else .none := by
  unfold excluded
  cases input.projection.ownership <;> rfl

section Active

variable (hv : validate env input = none) (hstate : input.policy.state = .active)

include hv hstate

theorem evaluatePolicyText_of_error (h : selectSource env input = .error r) :
    evaluatePolicyText env input = r := by
  unfold evaluatePolicyText
  rw [hv, hstate, h]

theorem evaluatePolicyText_untouched {chosen : Selected} (h : selectSource env input = .ok chosen)
    (hown : input.projection.ownership = .detached ∨ input.projection.ownership = .ambiguous) :
    (evaluatePolicyText env input).operation = .none := by
  unfold evaluatePolicyText
  rw [hv, hstate, h]
  rcases hown with hown | hown <;> rw [hown] <;> rfl

theorem evaluatePolicyText_included {chosen : Selected} (h : selectSource env input = .ok chosen)
    (hown : input.projection.ownership = .none ∨ input.projection.ownership = .attached) :
    let desired := (transform input chosen.timing chosen.availability).1
    (evaluatePolicyText env input).operation =
        (decideOperationText env.normalizeNFC input.projection desired).1 ∧
      (evaluatePolicyText env input).desiredCopy = some desired ∧
      (evaluatePolicyText env input).desiredFingerprint = some (fingerprint env.normalizeNFC desired) := by
  unfold evaluatePolicyText
  rw [hv, hstate, h]
  rcases hown with hown | hown <;> rw [hown] <;> exact ⟨rfl, rfl, rfl⟩

end Active

theorem decideOperationText_ne_delete (projection : ProjectionInput) (desired : DesiredCopy) :
    (decideOperationText nfc projection desired).1 ≠ .delete := by
  unfold decideOperationText
  split; · decide
  split; · decide
  split; · decide
  split <;> decide

/-- **The evaluator settles**: after its decision is carried out it decides on no operation. -/
theorem evaluatePolicy_settles (env : Platform) (input : PolicyEvaluationInput) (p : ProjectionInput)
    (h : CarriedOut env.normalizeNFC input (evaluatePolicyText env input) p) :
    (evaluatePolicyText env { input with projection := p }).operation = .none := by
  by_cases hnone : (evaluatePolicyText env input).operation = .none
  · cases h with
    | written p desired observed hop => rcases hop with hop | hop <;> rw [hnone] at hop <;> cases hop
    | deleted p hop => rw [hnone] at hop; cases hop
    | unchanged hop => exact hop
  cases hv : validate env input with
  | some invalid => exact absurd (by rw [evaluatePolicyText, hv]; rfl) hnone
  | none =>
    have hv' : validate env { input with projection := p } = none := hv
    by_cases hstate : input.policy.state = .active
    · have halike := selectSource_alike env input p
      generalize hx : selectSource env input = x, hy : selectSource env { input with projection := p } = y
        at halike
      cases halike with
      | ended r hr => rw [evaluatePolicyText_of_error hv' hstate hy, hr]
      | excluded code removed =>
        rw [evaluatePolicyText_of_error hv' hstate hy, excluded_operation]
        rw [evaluatePolicyText_of_error hv hstate hx] at h hnone
        -- An exclusion writes nothing, so the copy was deleted.
        cases h with
        | written p desired observed hop =>
          rw [excluded_operation] at hop
          split at hop <;> simp at hop
        | deleted p hop hown =>
          dsimp only
          rw [hown]
          rfl
        | unchanged hop => exact absurd hop hnone
      | selected chosen =>
        have hown : input.projection.ownership = .none ∨ input.projection.ownership = .attached := by
          cases hown : input.projection.ownership with
          | none => exact .inl rfl
          | attached => exact .inr rfl
          | detached => exact absurd (evaluatePolicyText_untouched hv hstate hx (.inl hown)) hnone
          | ambiguous => exact absurd (evaluatePolicyText_untouched hv hstate hx (.inr hown)) hnone
        obtain ⟨hoperation, hcopy, hfingerprint⟩ := evaluatePolicyText_included hv hstate hx hown
        -- A selected event is written, so the copy that was read back is the desired one.
        cases h with
        | written p desired observed hop hdesired hown' href hgeneration hexists hobserved hsame hprint =>
          rw [hcopy] at hdesired
          obtain rfl := Option.some.inj hdesired
          rw [(evaluatePolicyText_included hv' hstate hy (.inr hown')).1,
            transform_projection _ _ href hgeneration]
          exact decideOperationText_written hown' hexists hobserved hsame (hprint.trans hfingerprint)
        | deleted p hop =>
          rw [hoperation] at hop
          exact absurd hop (decideOperationText_ne_delete _ _)
        | unchanged hop => exact absurd hop hnone
    · refine absurd ?_ hnone
      unfold evaluatePolicyText
      rw [hv]
      cases hs : input.policy.state with
      | active => exact absurd hs hstate
      | paused => rfl
      | disabled => rfl
      | reviewRequired => rfl

end CarriedOut

section Sample

open Planipus.Sync

/-- An event that has no copy yet. -/
def uncopiedInput : PolicyEvaluationInput where
  now := 0
  horizon := ⟨0, 86400000⟩
  candidateProjectionRef := "copy-1"
  policy := plainPolicy ⟨.restore, .restore⟩
  hoursProfile := none
  source := plainEvent "meeting" 1
  projection := { ownership := .none }
  destinationCapabilities := ⟨true, true, true, true⟩

/-- The projection after the copy was created. -/
def copiedProjection : ProjectionInput where
  ownership := .attached
  projectionRef := some "copy-1"
  generation := some 1
  destinationExists := some true
  desiredFingerprint := some (fingerprint id (plainCopy "meeting" 1))
  observedCopy := some (plainCopy "meeting" 1)

theorem evaluatePolicy_settles_created :
    (evaluatePolicyText plainPlatform { uncopiedInput with projection := copiedProjection }).operation =
      .none :=
  evaluatePolicy_settles plainPlatform uncopiedInput copiedProjection
    (.written copiedProjection (plainCopy "meeting" 1) (plainCopy "meeting" 1)
      (.inl (by decide +kernel)) (by decide +kernel) rfl rfl rfl rfl rfl (by decide +kernel)
      (by decide +kernel))

end Sample

end Planipus.CalendarSync

import Planipus.CalendarSync.Evaluate
import Planipus.Library.Numerals

/-!
# The evaluator on text as it is written

`Evaluate.lean` takes text up to NFC. Here text is what the JSON holds, and the two places where the
evaluator looks at canonical JSON (`canonical.ts`) normalize it: a copy that was observed is compared
with the desired one by their canonical forms, and the fingerprint is that of the canonical form.
Everywhere else `evaluate.ts` compares text with `===`, as `Evaluate.lean` has it. Numbers of the
contract are safe integers; canonical JSON has no others.
-/

namespace Planipus.CalendarSync

open Library

/-! ## Canonical forms -/

section Canonical

variable (nfc : String → String)

def EventTiming.canonical : EventTiming → EventTiming
  | .timed start finish startTzid endTzid => .timed start finish (nfc startTzid) (nfc endTzid)
  | .allDay start finish timezone => .allDay (nfc start) (nfc finish) (nfc timezone)

def Provenance.canonical (p : Provenance) : Provenance :=
  { p with policyRef := nfc p.policyRef, projectionRef := nfc p.projectionRef }

/-- The text of a copy as canonical JSON has it. -/
def DesiredCopy.canonical (d : DesiredCopy) : DesiredCopy :=
  { d with
    timing := d.timing.canonical nfc
    summary := nfc d.summary
    description := d.description.map nfc
    location := d.location.map nfc
    conference := d.conference.map nfc
    color := d.color.map nfc
    provenance := d.provenance.canonical nfc }

/-- `sameJson`. -/
def sameJson (left right : DesiredCopy) : Bool := left.canonical nfc = right.canonical nfc

/-- `desired_fingerprint`. -/
def fingerprint (desired : DesiredCopy) : Digest DesiredCopy :=
  sha256Canonical (desired.canonical nfc)

def decideOperationText (projection : ProjectionInput) (desired : DesiredCopy) :
    EvaluationOperation × ReasonCode :=
  if projection.ownership = .none then (.create, .createMissingCopy)
  else if projection.destinationExists = some false then (.create, .restoreDestinationMissing)
  else if projection.observedCopy.any fun observed => !sameJson nfc observed desired then
    (.update, .restoreDestinationDrift)
  else if projection.desiredFingerprint.any fun print => print ≠ fingerprint nfc desired then
    (.update, .updateSourceChange)
  else (.none, .noChange)

end Canonical

/-- `String.prototype.trim`. -/
def stringTrim (text : String) : String := String.ofList (trimWhiteSpace text.toList)

def evaluatePolicyText (env : Platform) (input : PolicyEvaluationInput) : PolicyEvaluationResult :=
  match validate env input with
  | some invalid => result .invalid .none invalid [invalid]
  | none =>
    match input.policy.state with
    | .paused => result .held .none .policyPaused [.policyPaused]
    | .disabled => result .excluded .none .policyDisabled [.policyDisabled]
    | .reviewRequired => result .held .none .policyReviewRequired [.policyReviewRequired]
    | .active =>
      match selectSource env input with
      | .error settled => settled
      | .ok chosen =>
        match input.projection.ownership with
        | .detached =>
          result .included .none .detachedNoAction (chosen.reasons ++ [.detachedNoAction])
            chosen.warnings
        | .ambiguous =>
          result .held .none .ambiguousOwnership (chosen.reasons ++ [.ambiguousOwnership])
            chosen.warnings
        | _ =>
          let (desired, disclosure) := transform input chosen.timing chosen.availability
          let (operation, operationReason) :=
            decideOperationText env.normalizeNFC input.projection desired
          { selection := .included
            operation
            primaryReasonCode := operationReason
            reasonCodes := distinct
              (chosen.reasons ++ [privacyReason input.policy.privacy.preset, operationReason])
            warnings := distinct chosen.warnings
            desiredCopy := some desired
            desiredFingerprint := some (fingerprint env.normalizeNFC desired)
            disclosureManifest := some disclosure }

/-! ## Normalized text -/

section Normalized

variable {nfc : String → String}

theorem DesiredCopy.canonical_of_normalized (h : ∀ text, nfc text = text) (d : DesiredCopy) :
    d.canonical nfc = d := by
  obtain rfl : nfc = id := funext h
  cases d with
  | mk timing summary description location conference transparency visibility color provenance =>
    cases timing <;>
      simp [DesiredCopy.canonical, EventTiming.canonical, Provenance.canonical]

theorem decideOperationText_of_normalized (h : ∀ text, nfc text = text)
    (projection : ProjectionInput) (desired : DesiredCopy) :
    decideOperationText nfc projection desired = decideOperation projection desired := by
  unfold decideOperationText decideOperation fingerprint sameJson
  cases projection.observedCopy <;> cases projection.desiredFingerprint <;>
    simp [DesiredCopy.canonical_of_normalized h]

/-- On text in NFC the evaluator is the one the rest of the development speaks of. -/
theorem evaluatePolicyText_of_normalized {env : Platform} (h : ∀ text, env.normalizeNFC text = text)
    (input : PolicyEvaluationInput) : evaluatePolicyText env input = evaluatePolicy env input := by
  unfold evaluatePolicyText evaluatePolicy
  cases validate env input with
  | some invalid => rfl
  | none =>
    cases input.policy.state with
    | active =>
      cases selectSource env input with
      | error settled => rfl
      | ok chosen =>
        cases input.projection.ownership <;>
          simp only [decideOperationText_of_normalized h, fingerprint,
            DesiredCopy.canonical_of_normalized h]
    | _ => rfl

end Normalized

end Planipus.CalendarSync

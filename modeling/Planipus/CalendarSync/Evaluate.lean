import Planipus.CalendarSync.Types

/-!
# The policy evaluator

`packages/calendar-sync/src/evaluate.ts`: what a policy does with one source event, given the
projection that may already exist for it. `evaluatePolicy` is cut where the source returns for the
last time before it looks at the projection: `selectSource` is everything above that line and
`decideOperation` the choice of the operation below it. `Verdict` is the description the
rest of the development reads instead of the definition.
-/

namespace Planipus.CalendarSync

/-- The parts of the JavaScript runtime and of Temporal that the evaluator calls. -/
structure Platform where
  /-- `String.prototype.normalize("NFC")`. -/
  normalizeNFC : String → String
  /-- `String.prototype.toLowerCase`. -/
  toLowerCase : String → String
  /-- `String.prototype.trim`. -/
  trim : String → String
  /-- The simple case folding of a regular expression with the flags `iu`. -/
  simpleCaseFold : Char → Char
  /-- The characters that have the same simple case folding. -/
  caseVariants : Char → List Char
  /-- `\p{L}` or `\p{N}`. -/
  isLetterOrNumber : Char → Bool
  /-- Midnight of a local date in a time zone, as Temporal resolves it. -/
  startOfDay : (timezone date : String) → Instant
  /-- `evaluateHours` from the point where a profile has to be materialized. -/
  matchProfile : HoursMode → InstantInterval → HoursProfile → HoursEvaluationResult

def omittedSourceFields : List String :=
  ["/attachments", "/attendees", "/content/description", "/content/summary", "/content/location",
    "/content/conference", "/organizer", "/provider_metadata", "/source_url"]

/-- Insert into a sorted list without repetition. -/
def insertSorted (value : String) : List String → List String
  | [] => [value]
  | v :: vs =>
    if value < v then value :: v :: vs
    else if value = v then v :: vs
    else v :: insertSorted value vs

def sortedUnique (values : List String) : List String := values.foldr insertSorted []

/-- `[...new Set(values)]`: the first occurrence of every value, in order. -/
def distinct {α : Type} [DecidableEq α] (values : List α) : List α :=
  (values.foldl (fun seen v => if v ∈ seen then seen else v :: seen) []).reverse

def privacyReason : PrivacyPreset → ReasonCode
  | .busyOnly => .privacyBusyOnly
  | .commitment => .privacyCommitment
  | .privateDetails => .privacyPrivateDetails
  | .sharedDetails => .privacySharedDetails

def result (selection : EvaluationSelection) (operation : EvaluationOperation)
    (primary : ReasonCode) (reasons : List ReasonCode) (warnings : List ReasonCode := []) :
    PolicyEvaluationResult :=
  { selection, operation, primaryReasonCode := primary,
    reasonCodes := distinct reasons, warnings := distinct warnings }

def excluded (input : PolicyEvaluationInput) (code : ReasonCode) (sourceRemoved : Bool := false) :
    PolicyEvaluationResult :=
  match input.projection.ownership with
  | .detached => result .excluded .none .detachedNoAction [code, .detachedNoAction]
  | .ambiguous => result .held .none .ambiguousOwnership [code, .ambiguousOwnership]
  | .attached =>
    let effectReason : ReasonCode :=
      if sourceRemoved then .deleteSourceRemoved else .deletePolicyExclusion
    result .excluded .delete effectReason [code, effectReason]
  | .none => result .excluded .none code [code]

/-! ## The no-sync marker -/

/-- `[\p{L}\p{N}_]`. -/
def isWordChar (env : Platform) (c : Char) : Bool := env.isLetterOrNumber c || c == '_'

/-- What the class matches with the flags `iu`: a character that folds like one of its members. -/
def matchesWordChar (env : Platform) (c : Char) : Bool := (env.caseVariants c).any (isWordChar env)

/-- The escaped marker as a regular expression matches a prefix; the rest of the text is
returned. -/
def matchMarker (env : Platform) : List Char → List Char → Option (List Char)
  | [], text => some text
  | _ :: _, [] => none
  | m :: ms, c :: cs =>
    if env.simpleCaseFold m = env.simpleCaseFold c then matchMarker env ms cs else none

/-- The lookahead `(?=$|[^\p{L}\p{N}_])`. -/
def endsToken (env : Platform) : List Char → Bool
  | [] => true
  | c :: _ => !matchesWordChar env c

/-- The marker matches at a position whose preceding character, if any, is no word character.
`boundary` says that of the current position. -/
def testMarker (env : Platform) (marker : List Char) : Bool → List Char → Bool
  | boundary, text =>
    (boundary && (matchMarker env marker text).any (endsToken env)) ||
      match text with
      | [] => false
      | c :: cs => testMarker env marker (!matchesWordChar env c) cs

def containsNoSync (env : Platform) (input : PolicyEvaluationInput) : Bool :=
  let marker := (env.toLowerCase
    (env.normalizeNFC input.policy.selection.sourceExclusionMarker)).toList
  if marker.isEmpty then false
  else
    [input.source.content.summary, input.source.content.description,
      input.source.relationship.responseNote].any fun field =>
        field.any fun text =>
          testMarker env marker true (env.toLowerCase (env.normalizeNFC text)).toList

/-! ## Horizon, validation and availability -/

def timingInterval (env : Platform) : EventTiming → InstantInterval
  | .timed start finish _ _ => ⟨start, finish⟩
  | .allDay start finish timezone => ⟨env.startOfDay timezone start, env.startOfDay timezone finish⟩

def overlaps (left right : InstantInterval) : Bool :=
  left.start < left.finish && right.start < right.finish && left.start < right.finish &&
    right.start < left.finish

def validate (env : Platform) (input : PolicyEvaluationInput) : Option ReasonCode :=
  let privacy := input.policy.privacy
  if input.policy.sourceCalendarRef = input.policy.destinationCalendarRef then
    some .invalidSameCalendar
  else if !input.destinationCapabilities.writable then some .invalidUnwritableDestination
  else if privacy.copyAttendees || privacy.copyOrganizer then some .invalidPrivacyTransform
  else if (privacy.preset = .busyOnly ∨ privacy.preset = .commitment) &&
      (privacy.copySummary || privacy.copyDescription || privacy.copyLocation ||
        privacy.copyConference) then
    some .invalidPrivacyTransform
  else if (env.trim (env.normalizeNFC privacy.genericSummary)).isEmpty then
    some .invalidPrivacyTransform
  else if privacy.preset ≠ .sharedDetails && !input.destinationCapabilities.privateVisibility then
    some .unsupportedDestinationCapability
  else if privacy.copyConference && !input.destinationCapabilities.conferenceCopy then
    some .unsupportedDestinationCapability
  else if input.policy.color.isSome && !input.destinationCapabilities.color then
    some .unsupportedDestinationCapability
  else if input.source.lifecycle = .confirmed && input.source.timing.isNone then
    some .invalidSourceEvent
  else if input.policy.hours.mode ≠ .allTimes then
    match input.hoursProfile with
    | none => some .invalidHoursProfile
    | some profile =>
      if input.policy.hours.profileRef ≠ some profile.profileRef then some .invalidHoursProfile
      else none
  else none

/-- What the source identity's response makes of the event: an availability with the reason it
has, or the reason to omit the event. -/
def effectiveAvailability (input : PolicyEvaluationInput) :
    Except ReasonCode (Availability × Option ReasonCode) :=
  let selection := input.policy.selection
  let plain := (input.source.availability.getD .busy, none)
  match input.source.relationship.role with
  | .organizer => .ok (.busy, some .organizerAssumedAccepted)
  | .none => .ok plain
  | .attendee =>
    match input.source.relationship.response with
    | .declined => .error .rsvpDeclined
    | .accepted => .ok (.busy, some .rsvpAccepted)
    | .tentative =>
      match selection.tentative with
      | .omit => .error .rsvpTentativeOmitted
      | .busy => .ok (.busy, some .rsvpTentativeBusy)
      | .free => .ok (.free, some .rsvpTentativeFree)
    | .needsAction =>
      match selection.unanswered with
      | .omit => .error .rsvpUnansweredOmitted
      | .busy => .ok (.busy, some .rsvpUnansweredBusy)
      | .free => .ok (.free, some .rsvpUnansweredFree)
    | .notApplicable => .ok plain

/-- `evaluateHours` of `hours.ts`, whose materialization of a profile is the platform's. -/
def evaluateHours (env : Platform) (input : HoursEvaluationInput) : HoursEvaluationResult :=
  if input.event.finish ≤ input.event.start then ⟨false, .invalidHoursProfile, [], [], []⟩
  else
    match input.mode, input.profile with
    | .allTimes, _ => ⟨true, .allTimes, [], [], []⟩
    | _, none => ⟨false, .invalidHoursProfile, [], [], []⟩
    | mode, some profile => env.matchProfile mode input.event profile

/-! ## The transform -/

/-- The paths of the members that are present, in the order the source sets them. -/
def destinationFields (d : DesiredCopy) : List String :=
  ["/timing", "/summary", "/transparency", "/visibility", "/reminders", "/write_controls",
      "/provenance"] ++
    (if d.description.isSome then ["/description"] else []) ++
    (if d.location.isSome then ["/location"] else []) ++
    (if d.conference.isSome then ["/conference"] else []) ++
    (if d.color.isSome then ["/color"] else [])

def transform (input : PolicyEvaluationInput) (timing : EventTiming) (availability : Availability) :
    DesiredCopy × DisclosureManifest :=
  let privacy := input.policy.privacy
  let content := input.source.content
  let details : Bool := privacy.preset = .privateDetails ∨ privacy.preset = .sharedDetails
  let desired : DesiredCopy :=
    { timing
      summary := if details && privacy.copySummary then content.summary.getD ""
        else privacy.genericSummary
      description := if details && privacy.copyDescription then content.description else none
      location := if details && privacy.copyLocation then content.location else none
      conference := if details && privacy.copyConference then content.conference else none
      transparency := if availability = .free then .transparent else .opaque_
      visibility := if privacy.preset = .sharedDetails then .default_ else .private_
      color := input.policy.color
      provenance :=
        { policyRef := input.policy.policyRef
          projectionRef := input.projection.projectionRef.getD input.candidateProjectionRef
          generation := input.projection.generation.getD 1 } }
  let disclosed := ["/timing"] ++
    (if details && privacy.copySummary then ["/content/summary"] else []) ++
    (if details && privacy.copyDescription then ["/content/description"] else []) ++
    (if details && privacy.copyLocation then ["/content/location"] else []) ++
    (if details && privacy.copyConference then ["/content/conference"] else [])
  let read := ["/availability", "/content/description", "/content/summary",
      "/destination_identity_invited", "/origin"] ++
    (if input.source.recurrence.isSome then ["/recurrence"] else []) ++
    ["/relationship", "/timing"] ++
    (if details && privacy.copyLocation then ["/content/location"] else []) ++
    (if details && privacy.copyConference then ["/content/conference"] else [])
  (desired,
    { preset := privacy.preset
      sourceFieldsRead := sortedUnique read
      sourceFieldsDisclosed := sortedUnique disclosed
      destinationFieldsWritten := sortedUnique (destinationFields desired)
      sourceFieldsOmitted :=
        sortedUnique (omittedSourceFields.filter fun field => !disclosed.contains field) })

/-! ## Selection -/

/-- A source event that passed every exclusion. -/
structure Selected where
  timing : EventTiming
  availability : Availability
  reasons : List ReasonCode
  warnings : List ReasonCode

/-- The treatment of free events, after which an event is busy or stays free. -/
def resolveFree (input : PolicyEvaluationInput) (chosen : Selected) :
    Except PolicyEvaluationResult Selected :=
  if chosen.availability = .free then
    let redacted : Bool :=
      input.policy.privacy.preset = .busyOnly ∨ input.policy.privacy.preset = .commitment
    match input.policy.selection.freeEvents with
    | .skipWhenRedacted =>
      if redacted then .error (excluded input .free)
      else .ok { chosen with reasons := chosen.reasons ++ [.freePreserved] }
    | .preserveFree => .ok { chosen with reasons := chosen.reasons ++ [.freePreserved] }
    | .forceBusy =>
      .ok { chosen with
        availability := .busy
        reasons := chosen.reasons ++ [.freeForcedBusy]
        warnings := chosen.warnings ++ [.freeForcedBusy] }
  else .ok chosen

/-- The kind of timing against the policy, the treatment of free events and the hours. -/
def selectTiming (env : Platform) (input : PolicyEvaluationInput) (timing : EventTiming)
    (availability : Availability) (reasons : List ReasonCode) :
    Except PolicyEvaluationResult Selected :=
  match timing with
  | .timed start finish _ _ =>
    if input.policy.selection.timed = .skip then .error (excluded input .timedEventDisabled)
    else
      match resolveFree input ⟨timing, availability, reasons ++ [.timedEventIncluded], []⟩ with
      | .error r => .error r
      | .ok chosen =>
        let hours := evaluateHours env ⟨input.policy.hours.mode, ⟨start, finish⟩, input.hoursProfile⟩
        if !hours.included then .error (excluded input hours.reasonCode)
        else
          .ok { chosen with reasons := chosen.reasons ++ hours.diagnostics ++ [hours.reasonCode] }
  | .allDay .. =>
    match input.policy.selection.allDay with
    | .skip => .error (excluded input .allDay)
    | .busyOnly =>
      if availability = .free then .error (excluded input .allDayFree)
      else resolveFree input ⟨timing, availability, reasons ++ [.allDayBusyIncluded], []⟩
    | .all => resolveFree input ⟨timing, availability, reasons ++ [.allDayIncluded], []⟩

/-- Everything an active policy decides from the source event alone. -/
def selectSource (env : Platform) (input : PolicyEvaluationInput) :
    Except PolicyEvaluationResult Selected :=
  match input.source.lifecycle with
  | .deleted => .error (excluded input .sourceDeleted true)
  | .cancelled => .error (excluded input .sourceCancelled true)
  | .confirmed =>
    if input.source.origin = .planipusManaged then .error (excluded input .managedCopy)
    else if input.source.sourceEventRef ∈ input.policy.selection.manualExclusions then
      .error (excluded input .manualExclusion)
    else if containsNoSync env input then .error (excluded input .nosync)
    else if input.policy.selection.skipWhenDestinationIdentityInvited &&
        input.source.destinationIdentityInvited then
      .error (excluded input .alreadyInvited)
    else
      match effectiveAvailability input with
      | .error omitted => .error (excluded input omitted)
      | .ok (availability, reason) =>
        match input.source.timing with
        | none => .error (result .invalid .none .invalidSourceEvent [.invalidSourceEvent])
        | some timing =>
          if !overlaps (timingInterval env timing) input.horizon then
            .error (excluded input .outsideHorizon)
          else selectTiming env input timing availability reason.toList

/-! ## The decision -/

/-- The operation for a selected event and the reason for it. -/
def decideOperation (projection : ProjectionInput) (desired : DesiredCopy) :
    EvaluationOperation × ReasonCode :=
  if projection.ownership = .none then (.create, .createMissingCopy)
  else if projection.destinationExists = some false then (.create, .restoreDestinationMissing)
  else if projection.observedCopy.isSome && projection.observedCopy ≠ some desired then
    (.update, .restoreDestinationDrift)
  else if projection.desiredFingerprint.isSome &&
      projection.desiredFingerprint ≠ some (sha256Canonical desired) then
    (.update, .updateSourceChange)
  else (.none, .noChange)

def evaluatePolicy (env : Platform) (input : PolicyEvaluationInput) : PolicyEvaluationResult :=
  match validate env input with
  | some invalid => result .invalid .none invalid [invalid]
  | none =>
    match input.policy.state with
    | .paused => result .held .none .policyPaused [.policyPaused]
    | .disabled => result .excluded .none .policyDisabled [.policyDisabled]
    | .reviewRequired => result .held .none .policyReviewRequired [.policyReviewRequired]
    | .active =>
      match selectSource env input with
      | .error settled => settled
      | .ok chosen =>
        match input.projection.ownership with
        | .detached =>
          result .included .none .detachedNoAction (chosen.reasons ++ [.detachedNoAction])
            chosen.warnings
        | .ambiguous =>
          result .held .none .ambiguousOwnership (chosen.reasons ++ [.ambiguousOwnership])
            chosen.warnings
        | _ =>
          let (desired, disclosure) := transform input chosen.timing chosen.availability
          let (operation, operationReason) := decideOperation input.projection desired
          { selection := .included
            operation
            primaryReasonCode := operationReason
            reasonCodes := distinct
              (chosen.reasons ++ [privacyReason input.policy.privacy.preset, operationReason])
            warnings := distinct chosen.warnings
            desiredCopy := some desired
            desiredFingerprint := some (sha256Canonical desired)
            disclosureManifest := some disclosure }

/-! ## What a result can be -/

/-- The results an active policy gives, one constructor for each way the source returns. -/
inductive Verdict (env : Platform) (input : PolicyEvaluationInput) : PolicyEvaluationResult → Prop
  | invalid (code : ReasonCode) (hv : validate env input = some code) :
      Verdict env input (result .invalid .none code [code])
  | excluded (code : ReasonCode) (removed : Bool) (hv : validate env input = none) :
      Verdict env input (excluded input code removed)
  | detached (reasons warnings : List ReasonCode) (hv : validate env input = none)
      (hown : input.projection.ownership = .detached) :
      Verdict env input (result .included .none .detachedNoAction reasons warnings)
  | ambiguous (reasons warnings : List ReasonCode) (hv : validate env input = none)
      (hown : input.projection.ownership = .ambiguous) :
      Verdict env input (result .held .none .ambiguousOwnership reasons warnings)
  | included (r : PolicyEvaluationResult) (timing : EventTiming) (availability : Availability)
      (hv : validate env input = none) (hlive : input.source.lifecycle = .confirmed)
      (hown : input.projection.ownership = .none ∨ input.projection.ownership = .attached)
      (hsel : r.selection = .included)
      (hcopy : r.desiredCopy = some (transform input timing availability).1)
      (hprint : r.desiredFingerprint =
        some (sha256Canonical (transform input timing availability).1))
      (hop : r.operation =
        (decideOperation input.projection (transform input timing availability).1).1) :
      Verdict env input r

section Verdict

variable {env : Platform} {input : PolicyEvaluationInput}

theorem validate_timing (h : validate env input = none) (hl : input.source.lifecycle = .confirmed) :
    input.source.timing ≠ none := by
  intro ht
  unfold validate at h
  simp only [hl, ht, Option.isNone_none, decide_true, Bool.and_self, if_true] at h
  repeat (split at h; · cases h)
  cases h

theorem resolveFree_cases (input : PolicyEvaluationInput) (chosen : Selected) :
    (∃ code removed, resolveFree input chosen = .error (excluded input code removed)) ∨
      ∃ chosen', resolveFree input chosen = .ok chosen' := by
  unfold resolveFree
  split
  · split
    · dsimp only
      split
      · exact Or.inl ⟨_, _, rfl⟩
      · exact Or.inr ⟨_, rfl⟩
    · exact Or.inr ⟨_, rfl⟩
    · exact Or.inr ⟨_, rfl⟩
  · exact Or.inr ⟨_, rfl⟩

theorem selectTiming_cases (env : Platform) (input : PolicyEvaluationInput) (timing : EventTiming)
    (availability : Availability) (reasons : List ReasonCode) :
    (∃ code removed, selectTiming env input timing availability reasons =
        .error (excluded input code removed)) ∨
      ∃ chosen, selectTiming env input timing availability reasons = .ok chosen := by
  unfold selectTiming
  split
  · split
    · exact Or.inl ⟨_, _, rfl⟩
    · rename_i start finish tz₁ tz₂ _
      rcases resolveFree_cases input
        ⟨.timed start finish tz₁ tz₂, availability, reasons ++ [.timedEventIncluded], []⟩ with
        ⟨code, removed, h⟩ | ⟨chosen, h⟩
      · rw [h]; exact Or.inl ⟨_, _, rfl⟩
      · simp only [h]
        split
        · exact Or.inl ⟨_, _, rfl⟩
        · exact Or.inr ⟨_, rfl⟩
  · split
    · exact Or.inl ⟨_, _, rfl⟩
    · split
      · exact Or.inl ⟨_, _, rfl⟩
      · exact resolveFree_cases _ _
    · exact resolveFree_cases _ _

theorem selectSource_cases (hv : validate env input = none) :
    (∃ code removed, selectSource env input = .error (excluded input code removed)) ∨
      ∃ chosen, selectSource env input = .ok chosen ∧ input.source.lifecycle = .confirmed := by
  unfold selectSource
  split
  · exact Or.inl ⟨_, _, rfl⟩
  · exact Or.inl ⟨_, _, rfl⟩
  · rename_i hl
    split; · exact Or.inl ⟨_, _, rfl⟩
    split; · exact Or.inl ⟨_, _, rfl⟩
    split; · exact Or.inl ⟨_, _, rfl⟩
    split; · exact Or.inl ⟨_, _, rfl⟩
    split
    · exact Or.inl ⟨_, _, rfl⟩
    · split
      · rename_i ht
        exact absurd ht (validate_timing hv hl)
      · split
        · exact Or.inl ⟨_, _, rfl⟩
        · rcases selectTiming_cases env input _ _ _ with
            ⟨code, removed, h⟩ | ⟨chosen, h⟩
          · exact Or.inl ⟨code, removed, h⟩
          · exact Or.inr ⟨chosen, h, hl⟩

/-- **The evaluator, described**: an active policy returns one of the five results. -/
theorem evaluatePolicy_verdict (hactive : input.policy.state = .active) :
    Verdict env input (evaluatePolicy env input) := by
  unfold evaluatePolicy
  cases hv : validate env input with
  | some code => exact .invalid code hv
  | none =>
    simp only [hactive]
    rcases selectSource_cases hv with ⟨code, removed, h⟩ | ⟨chosen, h, hl⟩
    · simp only [h]
      exact .excluded code removed hv
    · simp only [h]
      cases hown : input.projection.ownership with
      | detached => exact .detached _ _ hv hown
      | ambiguous => exact .ambiguous _ _ hv hown
      | none => exact .included _ chosen.timing chosen.availability hv hl (.inl hown) rfl rfl rfl rfl
      | attached =>
        exact .included _ chosen.timing chosen.availability hv hl (.inr hown) rfl rfl rfl rfl

variable {r : PolicyEvaluationResult}

theorem excluded_desired (input : PolicyEvaluationInput) (code : ReasonCode) (removed : Bool) :
    (excluded input code removed).desiredCopy = none ∧
      (excluded input code removed).desiredFingerprint = none := by
  unfold excluded
  split <;> exact ⟨rfl, rfl⟩

theorem Verdict.fingerprint (h : Verdict env input r) :
    r.desiredFingerprint = r.desiredCopy.map sha256Canonical := by
  cases h with
  | invalid code hv => rfl
  | excluded code removed hv => simp [excluded_desired]
  | detached reasons warnings hv hown => rfl
  | ambiguous reasons warnings hv hown => rfl
  | included _ timing availability hv hlive hown hsel hcopy hprint hop =>
    rw [hprint, hcopy]
    rfl

theorem Verdict.selection_ne_held (h : Verdict env input r)
    (hown : input.projection.ownership ≠ .ambiguous) : r.selection ≠ .held := by
  cases h with
  | invalid code hv => simp [result]
  | excluded code removed hv =>
    unfold CalendarSync.excluded
    split
    · simp [result]
    · rename_i hamb
      exact absurd hamb hown
    · simp [result]
    · simp [result]
  | detached reasons warnings hv hown => simp [result]
  | ambiguous reasons warnings hv hamb => exact absurd hamb hown
  | included _ timing availability hv hlive hown' hsel hcopy hprint hop => simp [hsel]

/-- Only an included event has a desired copy. -/
theorem Verdict.copy (h : Verdict env input r) {d : DesiredCopy} (hd : r.desiredCopy = some d) :
    validate env input = none ∧ input.source.lifecycle = .confirmed ∧ r.selection = .included ∧
      r.operation = (decideOperation input.projection d).1 ∧
      ∃ timing availability, d = (transform input timing availability).1 := by
  cases h with
  | invalid code hv => cases hd
  | excluded code removed hv =>
    rw [(excluded_desired _ code removed).1] at hd
    cases hd
  | detached reasons warnings hv hown => cases hd
  | ambiguous reasons warnings hv hown => cases hd
  | included _ timing availability hv hlive hown hsel hcopy hprint hop =>
    rw [hcopy, Option.some.injEq] at hd
    subst hd
    exact ⟨hv, hlive, hsel, hop, timing, availability, rfl⟩

end Verdict

end Planipus.CalendarSync

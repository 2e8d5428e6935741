import Planipus.CalendarSync.Hours
import Planipus.Library.Outcomes
import Planipus.Native.Policy
import Planipus.Sync.Verify.Start

/-!
# Where the two policy evaluators agree

The Swift evaluator does what the TypeScript one does, step by step: the availability, the transform
and the decision are shown to be the same functions first. What is left are five comparisons of text and
the instants at which the dates of an all-day event begin. Swift's `==` is canonical equivalence where
TypeScript's `===` is identity, for the two calendars, for the profile's reference and for the manual
exclusions; Foundation and JavaScript differ on U+FEFF and U+0085 as white space, for the generic
summary; and one searches for the no-sync marker by full case folding, the other one by the simple one.
Foundation's calendar is Julian before 1582, Temporal's is not, so that an all-day event may overlap the
horizon to one of them only. `policy_agree_iff` says that the results are equal exactly where no
comparison that is reached comes out differently.
-/

namespace Planipus.Native.Policy

open CalendarSync Library

/-! ## The same pieces -/

theorem unique_eq (values : List ReasonCode) : unique values = distinct values := by
  -- One fold appends, the other one reverses at the end.
  have key : ∀ (values seen : List ReasonCode),
      values.foldl (fun seen v => if v ∈ seen then seen else seen ++ [v]) seen.reverse =
        (values.foldl (fun seen v => if v ∈ seen then seen else v :: seen) seen).reverse := by
    intro values
    induction values with
    | nil => intro seen; rfl
    | cons v values ih =>
      intro seen
      by_cases hv : v ∈ seen
      · simp only [List.foldl_cons, List.mem_reverse, hv, if_true]
        exact ih seen
      · simp only [List.foldl_cons, List.mem_reverse, hv, if_false]
        rw [← List.reverse_cons]
        exact ih (v :: seen)
  exact key values []

theorem result_eq (selection : EvaluationSelection) (operation : EvaluationOperation)
    (primary : ReasonCode) (reasons warnings : List ReasonCode) :
    result selection operation primary reasons warnings =
      CalendarSync.result selection operation primary reasons warnings := by
  simp only [result, CalendarSync.result, unique_eq]

theorem excluded_eq (input : PolicyEvaluationInput) (reason : ReasonCode) (removed : Bool) :
    excluded input reason removed = CalendarSync.excluded input reason removed := by
  unfold excluded CalendarSync.excluded
  cases input.projection.ownership <;> exact result_eq _ _ _ _ _

theorem effectiveAvailability_eq (input : PolicyEvaluationInput) :
    effectiveAvailability input = CalendarSync.effectiveAvailability input := by
  unfold effectiveAvailability CalendarSync.effectiveAvailability
  cases input.source.relationship.role <;> rfl

/-- The fields read are listed in another order and sorted. -/
theorem transform_eq (input : PolicyEvaluationInput) (timing : EventTiming)
    (availability : Availability) :
    transform input timing availability = CalendarSync.transform input timing availability := by
  have hdetails : (decide (input.policy.privacy.preset = .privateDetails) ||
      decide (input.policy.privacy.preset = .sharedDetails)) =
        decide (input.policy.privacy.preset = .privateDetails ∨
          input.policy.privacy.preset = .sharedDetails) := by
    rw [Bool.decide_or]
  have hread : ∀ recurring location conference : Bool,
      sortedUnique (["/availability", "/content/description", "/content/summary",
          "/destination_identity_invited", "/origin", "/relationship", "/timing"] ++
        (if recurring then ["/recurrence"] else []) ++
        (if location then ["/content/location"] else []) ++
        (if conference then ["/content/conference"] else [])) =
      sortedUnique (["/availability", "/content/description", "/content/summary",
          "/destination_identity_invited", "/origin"] ++
        (if recurring then ["/recurrence"] else []) ++ ["/relationship", "/timing"] ++
        (if location then ["/content/location"] else []) ++
        (if conference then ["/content/conference"] else [])) := by
    decide +kernel
  unfold transform CalendarSync.transform
  dsimp only
  rw [hdetails, hread]
  rfl

/-- The end of the other evaluator. -/
def concludeText (env : Platform) (input : PolicyEvaluationInput) (chosen : Selected) :
    PolicyEvaluationResult :=
  match input.projection.ownership with
  | .detached =>
    CalendarSync.result .included .none .detachedNoAction (chosen.reasons ++ [.detachedNoAction])
      chosen.warnings
  | .ambiguous =>
    CalendarSync.result .held .none .ambiguousOwnership (chosen.reasons ++ [.ambiguousOwnership])
      chosen.warnings
  | _ =>
    let (desired, disclosure) := CalendarSync.transform input chosen.timing chosen.availability
    let (operation, operationReason) :=
      decideOperationText env.normalizeNFC input.projection desired
    { selection := .included
      operation
      primaryReasonCode := operationReason
      reasonCodes := distinct
        (chosen.reasons ++ [privacyReason input.policy.privacy.preset, operationReason])
      warnings := distinct chosen.warnings
      desiredCopy := some desired
      desiredFingerprint := some (CalendarSync.fingerprint env.normalizeNFC desired)
      disclosureManifest := some disclosure }

theorem conclude_eq (env : Platform) (input : PolicyEvaluationInput) (chosen : Selected) :
    conclude env input chosen.timing chosen.availability chosen.reasons chosen.warnings =
      concludeText env input chosen := by
  have hdiffers : ∀ observed desired : CalendarSync.DesiredCopy,
      differs env observed desired = !sameJson env.normalizeNFC observed desired := by
    intro observed desired
    rw [differs, sameJson, decide_not]
  unfold conclude concludeText
  simp only [transform_eq, result_eq, unique_eq, hdiffers]
  cases hown : input.projection.ownership with
  | detached => rfl
  | ambiguous => rfl
  | none =>
    simp only [decideOperationText, CalendarSync.fingerprint, hown, reduceCtorEq, if_true, if_false]
    cases input.policy.privacy.preset <;> rfl
  | attached =>
    simp only [decideOperationText, CalendarSync.fingerprint, hown, reduceCtorEq, if_false]
    cases input.policy.privacy.preset <;> rfl

/-- What a selection comes to. -/
def settle (env : Platform) (input : PolicyEvaluationInput) :
    Except PolicyEvaluationResult Selected → PolicyEvaluationResult
  | .error settled => settled
  | .ok chosen => concludeText env input chosen

theorem evaluatePolicyText_eq {env : Platform} {input : PolicyEvaluationInput}
    (hv : validate env input = none) (hactive : input.policy.state = .active) :
    evaluatePolicyText env input = settle env input (selectSource env input) := by
  unfold evaluatePolicyText settle
  rw [hv]
  simp only [hactive]
  rfl

/-! ## The same selection -/

/-- Both evaluators get one result for the hours of an interval. -/
def Shared (env : Platform) (services : Services) (input : PolicyEvaluationInput) : Prop :=
  ∀ event, services.hours ⟨input.policy.hours.mode, event, input.hoursProfile⟩ =
    CalendarSync.evaluateHours env ⟨input.policy.hours.mode, event, input.hoursProfile⟩

section Selection

variable {env : Platform} {services : Services} {input : PolicyEvaluationInput}

theorem resolveFree_eq (input : PolicyEvaluationInput) (timing : EventTiming)
    (availability : Availability) (reasons : List ReasonCode) :
    resolveFree input ⟨timing, availability, reasons, []⟩ =
      match admitFree input availability with
      | .error code => .error (CalendarSync.excluded input code)
      | .ok (copied, freeReasons, warnings) =>
        .ok ⟨timing, copied, reasons ++ freeReasons, warnings⟩ := by
  unfold resolveFree admitFree
  cases availability with
  | busy => simp
  | free =>
    cases input.policy.selection.freeEvents with
    | skipWhenRedacted => cases input.policy.privacy.preset <;> rfl
    | preserveFree => rfl
    | forceBusy => rfl

/-- The steps from the kind of timing to the hours, in the order of the Swift body. -/
theorem selectTiming_eq (h : Shared env services input) (timing : EventTiming)
    (availability : Availability) (reasons : List ReasonCode) :
    selectTiming env input timing availability reasons =
      match admitKind input timing availability with
      | .error code => .error (CalendarSync.excluded input code)
      | .ok kindReason =>
        match admitFree input availability with
        | .error code => .error (CalendarSync.excluded input code)
        | .ok (copied, freeReasons, warnings) =>
          match admitHours services input timing with
          | .error code => .error (CalendarSync.excluded input code)
          | .ok hoursReasons =>
            .ok ⟨timing, copied, reasons ++ [kindReason] ++ freeReasons ++ hoursReasons,
              warnings⟩ := by
  cases timing with
  | timed start finish startTzid endTzid =>
    simp only [selectTiming, admitKind, admitHours, resolveFree_eq, h _]
    split
    · rfl
    · dsimp only
      cases admitFree input availability with
      | error code => rfl
      | ok free =>
        dsimp only
        split
        · rfl
        · simp only [List.append_assoc]
  | allDay start finish timezone =>
    simp only [selectTiming, admitKind, admitHours, resolveFree_eq, List.append_nil]
    cases input.policy.selection.allDay with
    | skip => rfl
    | busyOnly =>
      cases availability with
      | busy => simp only [reduceCtorEq, and_false, if_false, if_true]
      | free => rfl
    | all => simp only [reduceCtorEq, false_and, if_false]

/-- What is left of the selection for an event that neither an exclusion by hand nor the no-sync
marker leaves out, and whose timing takes `interval`. -/
def selectUnmarked (env : Platform) (interval : EventTiming → InstantInterval)
    (input : PolicyEvaluationInput) : Except PolicyEvaluationResult Selected :=
  if input.policy.selection.skipWhenDestinationIdentityInvited &&
      input.source.destinationIdentityInvited then
    .error (CalendarSync.excluded input .alreadyInvited)
  else
    match CalendarSync.effectiveAvailability input with
    | .error omitted => .error (CalendarSync.excluded input omitted)
    | .ok (availability, reason) =>
      match input.source.timing with
      | none => .error (CalendarSync.result .invalid .none .invalidSourceEvent [.invalidSourceEvent])
      | some timing =>
        if !CalendarSync.overlaps (interval timing) input.horizon then
          .error (CalendarSync.excluded input .outsideHorizon)
        else selectTiming env input timing availability reason.toList

theorem selectSource_of_unlisted (hl : input.source.lifecycle = .confirmed)
    (hmanaged : input.source.origin ≠ .planipusManaged)
    (hmanual : input.source.sourceEventRef ∉ input.policy.selection.manualExclusions) :
    selectSource env input =
      if CalendarSync.containsNoSync env input then .error (CalendarSync.excluded input .nosync)
      else selectUnmarked env (CalendarSync.timingInterval env) input := by
  unfold selectSource
  simp only [hl]
  exact (if_neg hmanaged).trans (if_neg hmanual)

theorem evaluate_of_unlisted (h : Shared env services input)
    (hv : validationReason env input = none) (hactive : input.policy.state = .active)
    (hl : input.source.lifecycle = .confirmed) (hmanaged : input.source.origin ≠ .planipusManaged)
    (hmanual : input.policy.selection.manualExclusions.any
      (sameText env input.source.sourceEventRef) = false) :
    evaluate env services input =
      if containsNoSync env services input then CalendarSync.excluded input .nosync
      else settle env input (selectUnmarked env (timingInterval services) input) := by
  unfold evaluate selectUnmarked settle
  simp only [hv, hactive, excluded_eq, effectiveAvailability_eq, result_eq, hl, reduceCtorEq, if_false,
    if_neg hmanaged, hmanual, Bool.false_eq_true]
  split; · rfl
  split; · rfl
  cases CalendarSync.effectiveAvailability input with
  | error omitted => rfl
  | ok effective =>
    dsimp only
    cases input.source.timing with
    | none => rfl
    | some timing =>
      dsimp only
      rw [selectTiming_eq h]
      have hoverlaps : overlaps (timingInterval services timing) input.horizon =
          CalendarSync.overlaps (timingInterval services timing) input.horizon := rfl
      rw [hoverlaps]
      split
      · rfl
      · cases admitKind input timing effective.1 with
        | error code => rfl
        | ok kindReason =>
          cases admitFree input effective.1 with
          | error code => rfl
          | ok free =>
            dsimp only
            cases admitHours services input timing with
            | error code => rfl
            | ok hoursReasons =>
              exact conclude_eq env input ⟨timing, free.1, _, free.2.2⟩

/-- Past the validation, the evaluators differ in how they look an event up among the manual
exclusions, in how they search for the marker and in what its timing takes, at most. -/
theorem evaluate_eq (h : Shared env services input) (hv : validationReason env input = none)
    (hactive : input.policy.state = .active)
    (hmanual : input.source.lifecycle = .confirmed → input.source.origin ≠ .planipusManaged →
      input.policy.selection.manualExclusions.any (sameText env input.source.sourceEventRef) =
        decide (input.source.sourceEventRef ∈ input.policy.selection.manualExclusions))
    (hmarker : input.source.lifecycle = .confirmed → input.source.origin ≠ .planipusManaged →
      input.source.sourceEventRef ∉ input.policy.selection.manualExclusions →
      containsNoSync env services input = CalendarSync.containsNoSync env input)
    (hunmarked : input.source.lifecycle = .confirmed → input.source.origin ≠ .planipusManaged →
      input.source.sourceEventRef ∉ input.policy.selection.manualExclusions →
      CalendarSync.containsNoSync env input = false →
      settle env input (selectUnmarked env (timingInterval services) input) =
        settle env input (selectUnmarked env (CalendarSync.timingInterval env) input)) :
    evaluate env services input = settle env input (selectSource env input) := by
  cases hl : input.source.lifecycle with
  | deleted => simp only [evaluate, selectSource, settle, hv, hactive, excluded_eq, hl, if_true]
  | cancelled =>
    simp only [evaluate, selectSource, settle, hv, hactive, excluded_eq, hl, reduceCtorEq, if_false,
      if_true]
  | confirmed =>
    by_cases hmanaged : input.source.origin = .planipusManaged
    · simp only [evaluate, selectSource, settle, hv, hactive, excluded_eq, hl, reduceCtorEq, if_false,
        hmanaged, if_true]
    · have hlookup := hmanual hl hmanaged
      by_cases hlisted : input.source.sourceEventRef ∈ input.policy.selection.manualExclusions
      · rw [decide_eq_true hlisted] at hlookup
        simp only [evaluate, selectSource, settle, hv, hactive, excluded_eq, hl, reduceCtorEq,
          if_false, hmanaged, hlookup, hlisted, if_true]
      · rw [decide_eq_false hlisted] at hlookup
        rw [evaluate_of_unlisted h hv hactive hl hmanaged hlookup,
          selectSource_of_unlisted hl hmanaged hlisted, hmarker hl hmanaged hlisted]
        cases hnosync : CalendarSync.containsNoSync env input with
        | true => rfl
        | false => exact hunmarked hl hmanaged hlisted hnosync

end Selection

/-! ## The validations -/

/-- The checks between the one of the calendars and the one of the generic summary. -/
def checksBeforeSummary (input : PolicyEvaluationInput) : Option ReasonCode :=
  let privacy := input.policy.privacy
  if !input.destinationCapabilities.writable then some .invalidUnwritableDestination
  else if privacy.copyAttendees || privacy.copyOrganizer then some .invalidPrivacyTransform
  else if (privacy.preset = .busyOnly ∨ privacy.preset = .commitment) &&
      (privacy.copySummary || privacy.copyDescription || privacy.copyLocation ||
        privacy.copyConference) then
    some .invalidPrivacyTransform
  else none

/-- The checks between the one of the generic summary and the one of the hours. -/
def checksBeforeHours (input : PolicyEvaluationInput) : Option ReasonCode :=
  let privacy := input.policy.privacy
  if privacy.preset ≠ .sharedDetails && !input.destinationCapabilities.privateVisibility then
    some .unsupportedDestinationCapability
  else if privacy.copyConference && !input.destinationCapabilities.conferenceCopy then
    some .unsupportedDestinationCapability
  else if input.policy.color.isSome && !input.destinationCapabilities.color then
    some .unsupportedDestinationCapability
  else if input.source.lifecycle = .confirmed && input.source.timing.isNone then
    some .invalidSourceEvent
  else none

theorem checksBeforeSummary_cases (input : PolicyEvaluationInput) :
    checksBeforeSummary input = none ∨
      checksBeforeSummary input = some .invalidUnwritableDestination ∨
      checksBeforeSummary input = some .invalidPrivacyTransform := by
  unfold checksBeforeSummary
  dsimp only
  split; · exact .inr (.inl rfl)
  split; · exact .inr (.inr rfl)
  split; · exact .inr (.inr rfl)
  exact .inl rfl

theorem checksBeforeHours_cases (input : PolicyEvaluationInput) :
    checksBeforeHours input = none ∨
      checksBeforeHours input = some .unsupportedDestinationCapability ∨
      checksBeforeHours input = some .invalidSourceEvent := by
  unfold checksBeforeHours
  dsimp only
  split; · exact .inr (.inl rfl)
  split; · exact .inr (.inl rfl)
  split; · exact .inr (.inl rfl)
  split; · exact .inr (.inr rfl)
  exact .inl rfl

/-- Both validations, given how the three comparisons of text come out. -/
def checks (same blank foreign : Bool) (input : PolicyEvaluationInput) : Option ReasonCode :=
  (if same then some .invalidSameCalendar else none).or
    ((checksBeforeSummary input).or
      ((if blank then some .invalidPrivacyTransform else none).or
        ((checksBeforeHours input).or (if foreign then some .invalidHoursProfile else none))))

/-- A policy with hours whose profile is missing or, by `same`, another one. -/
def foreignProfile (same : String → String → Bool) (input : PolicyEvaluationInput) : Bool :=
  input.policy.hours.mode ≠ .allTimes &&
    match input.hoursProfile, input.policy.hours.profileRef with
    | some profile, some expected => !same profile.profileRef expected
    | _, _ => true

theorem validate_checks (env : Platform) (input : PolicyEvaluationInput) :
    validate env input =
      checks (input.policy.sourceCalendarRef = input.policy.destinationCalendarRef)
        (env.trim (env.normalizeNFC input.policy.privacy.genericSummary)).isEmpty
        (foreignProfile (fun a b => a = b) input) input := by
  unfold validate checks checksBeforeSummary checksBeforeHours
  simp only [decide_eq_true_eq]
  apply ite_some_or
  rw [Option.none_or]
  iterate 3 apply ite_some_or
  rw [Option.none_or]
  apply ite_some_or
  rw [Option.none_or]
  iterate 4 apply ite_some_or
  rw [Option.none_or]
  unfold foreignProfile
  by_cases hmode : input.policy.hours.mode = .allTimes
  · simp [hmode]
  · cases input.hoursProfile with
    | none => simp [hmode]
    | some profile =>
      cases input.policy.hours.profileRef with
      | none => simp [hmode]
      | some expected =>
        by_cases hsame : profile.profileRef = expected
        · simp [hmode, hsame]
        · have hsame' : ¬expected = profile.profileRef := fun h => hsame h.symm
          simp [hmode, hsame, hsame']

theorem validationReason_checks (env : Platform) (input : PolicyEvaluationInput) :
    validationReason env input =
      checks (sameText env input.policy.sourceCalendarRef input.policy.destinationCalendarRef)
        (trimmingCharacters (env.normalizeNFC input.policy.privacy.genericSummary)).isEmpty
        (foreignProfile (sameText env) input) input := by
  unfold validationReason checks checksBeforeSummary checksBeforeHours
  simp only [Bool.decide_or]
  apply ite_some_or
  rw [Option.none_or]
  iterate 3 apply ite_some_or
  rw [Option.none_or]
  apply ite_some_or
  rw [Option.none_or]
  iterate 4 apply ite_some_or
  rw [Option.none_or]
  unfold foreignProfile
  by_cases hmode : input.policy.hours.mode = .allTimes
  · simp [hmode]
  · cases input.hoursProfile with
    | none => simp [hmode]
    | some profile =>
      cases input.policy.hours.profileRef with
      | none => simp [hmode]
      | some expected => cases hsame : sameText env profile.profileRef expected <;> simp [hmode, hsame]

/-- The code that is returned tells which comparison came out differently. -/
theorem checks_eq_iff {input : PolicyEvaluationInput} {same same' blank blank' foreign foreign' : Bool} :
    checks same' blank' foreign' input = checks same blank foreign input ↔
      same' = same ∧ (same = false → checksBeforeSummary input = none →
        blank' = blank ∧ (blank = false → checksBeforeHours input = none → foreign' = foreign)) := by
  unfold checks
  cases hbefore : checksBeforeSummary input with
  | some code =>
    have hcode : code ≠ .invalidSameCalendar := by
      rcases checksBeforeSummary_cases input with h | h | h <;> rw [hbefore] at h <;> cases h <;> decide
    cases same <;> cases same' <;> simp [hcode, hcode.symm]
  | none =>
    cases hhours : checksBeforeHours input with
    | some code =>
      have hcode : code ≠ .invalidSameCalendar ∧ code ≠ .invalidPrivacyTransform := by
        rcases checksBeforeHours_cases input with h | h | h <;> rw [hhours] at h <;> cases h <;> decide
      cases same <;> cases same' <;> cases blank <;> cases blank' <;>
        simp [hcode.1, hcode.1.symm, hcode.2, hcode.2.symm]
    | none =>
      cases same <;> cases same' <;> cases blank <;> cases blank' <;> cases foreign <;>
        cases foreign' <;> decide

/-! ## White space -/

theorem trimmed_eq_nil {p : Char → Bool} {text : List Char} :
    ((text.dropWhile p).reverse.dropWhile p).reverse = [] ↔ text.all p = true := by
  rw [List.reverse_eq_nil_iff, List.dropWhile_eq_nil_iff, List.all_eq_true]
  constructor
  · intro h c hc
    by_cases hdrop : text.dropWhile p = []
    · exact List.dropWhile_eq_nil_iff.1 hdrop c hc
    · -- The first character that is kept does not satisfy `p`.
      have hhead := List.head_dropWhile_not p hdrop
      rw [h _ (List.mem_reverse.2 (List.head_mem hdrop))] at hhead
      cases hhead
  · intro h c hc
    exact h c ((List.dropWhile_sublist p).subset (List.mem_reverse.1 hc))

theorem isEmpty_ofList {text : List Char} : (String.ofList text).isEmpty = true ↔ text = [] := by
  rw [String.isEmpty_iff, ← String.toList_eq_nil_iff, String.toList_ofList]

theorem stringTrim_isEmpty (text : String) :
    (stringTrim text).isEmpty = text.toList.all isStrWhiteSpace := by
  rw [Bool.eq_iff_iff, stringTrim, isEmpty_ofList, trimWhiteSpace, trimmed_eq_nil]

theorem trimmingCharacters_isEmpty (text : String) :
    (trimmingCharacters text).isEmpty = text.toList.all isWhitespaceOrNewline := by
  rw [Bool.eq_iff_iff, trimmingCharacters, isEmpty_ofList, trimmed_eq_nil]

/-! ## Agreement -/

section Agreement

variable (env : Platform) (services : Services) (input : PolicyEvaluationInput)

/-- The characters of the generic summary that are trimmed. -/
def summaryText : List Char := (env.normalizeNFC input.policy.privacy.genericSummary).toList

/-- No comparison that the evaluation reaches comes out differently: text that is canonically
equivalent is the same, the generic summary is not white space to one side only, both sides find the
no-sync marker or none does, and the event overlaps the horizon to both or to none. -/
structure ComparisonsAgree : Prop where
  calendars : env.normalizeNFC input.policy.sourceCalendarRef =
      env.normalizeNFC input.policy.destinationCalendarRef →
    input.policy.sourceCalendarRef = input.policy.destinationCalendarRef
  summary : input.policy.sourceCalendarRef ≠ input.policy.destinationCalendarRef →
    checksBeforeSummary input = none →
    (summaryText env input).all isWhitespaceOrNewline = (summaryText env input).all isStrWhiteSpace
  profile : input.policy.sourceCalendarRef ≠ input.policy.destinationCalendarRef →
    checksBeforeSummary input = none → (summaryText env input).all isStrWhiteSpace = false →
    checksBeforeHours input = none → input.policy.hours.mode ≠ .allTimes →
    ∀ profile expected, input.hoursProfile = some profile →
      input.policy.hours.profileRef = some expected →
      env.normalizeNFC profile.profileRef = env.normalizeNFC expected →
      profile.profileRef = expected
  manual : validate env input = none → input.policy.state = .active →
    input.source.lifecycle = .confirmed → input.source.origin ≠ .planipusManaged →
    ∀ excluded ∈ input.policy.selection.manualExclusions,
      env.normalizeNFC input.source.sourceEventRef = env.normalizeNFC excluded →
      input.source.sourceEventRef ∈ input.policy.selection.manualExclusions
  marker : validate env input = none → input.policy.state = .active →
    input.source.lifecycle = .confirmed → input.source.origin ≠ .planipusManaged →
    input.source.sourceEventRef ∉ input.policy.selection.manualExclusions →
    containsNoSync env services input = CalendarSync.containsNoSync env input
  horizon : validate env input = none → input.policy.state = .active →
    input.source.lifecycle = .confirmed → input.source.origin ≠ .planipusManaged →
    input.source.sourceEventRef ∉ input.policy.selection.manualExclusions →
    CalendarSync.containsNoSync env input = false →
    (input.policy.selection.skipWhenDestinationIdentityInvited &&
      input.source.destinationIdentityInvited) = false →
    ∀ effective timing, CalendarSync.effectiveAvailability input = .ok effective →
      input.source.timing = some timing →
      overlaps (timingInterval services timing) input.horizon =
        CalendarSync.overlaps (CalendarSync.timingInterval env timing) input.horizon

/-- Only the dates of an all-day event are placed by the two libraries. -/
theorem overlaps_timed (start finish : Instant) (startTzid endTzid : String) :
    overlaps (timingInterval services (.timed start finish startTzid endTzid)) input.horizon =
      CalendarSync.overlaps (CalendarSync.timingInterval env (.timed start finish startTzid endTzid))
        input.horizon := rfl

end Agreement

section Exact

variable {env : Platform} {services : Services} {input : PolicyEvaluationInput}

theorem foreignProfile_eq_iff :
    foreignProfile (sameText env) input = foreignProfile (fun a b => a = b) input ↔
      (input.policy.hours.mode ≠ .allTimes →
        ∀ profile expected, input.hoursProfile = some profile →
          input.policy.hours.profileRef = some expected →
          env.normalizeNFC profile.profileRef = env.normalizeNFC expected →
          profile.profileRef = expected) := by
  unfold foreignProfile
  by_cases hmode : input.policy.hours.mode = .allTimes
  · simp [hmode]
  · cases input.hoursProfile with
    | none => simp
    | some profile =>
      cases input.policy.hours.profileRef with
      | none => simp
      | some expected =>
        by_cases hsame : profile.profileRef = expected
        · simp [hmode, sameText, hsame]
        · simp [hmode, sameText, hsame]

theorem validations_eq_iff (htrim : env.trim = stringTrim) :
    validationReason env input = validate env input ↔
      (env.normalizeNFC input.policy.sourceCalendarRef =
          env.normalizeNFC input.policy.destinationCalendarRef →
        input.policy.sourceCalendarRef = input.policy.destinationCalendarRef) ∧
      (input.policy.sourceCalendarRef ≠ input.policy.destinationCalendarRef →
        checksBeforeSummary input = none →
        (summaryText env input).all isWhitespaceOrNewline =
            (summaryText env input).all isStrWhiteSpace ∧
          ((summaryText env input).all isStrWhiteSpace = false →
            checksBeforeHours input = none →
            foreignProfile (sameText env) input = foreignProfile (fun a b => a = b) input)) := by
  rw [validationReason_checks, validate_checks, htrim, stringTrim_isEmpty,
    trimmingCharacters_isEmpty, checks_eq_iff]
  have hsame : sameText env input.policy.sourceCalendarRef input.policy.destinationCalendarRef =
      decide (input.policy.sourceCalendarRef = input.policy.destinationCalendarRef) ↔
        (env.normalizeNFC input.policy.sourceCalendarRef =
            env.normalizeNFC input.policy.destinationCalendarRef →
          input.policy.sourceCalendarRef = input.policy.destinationCalendarRef) := by
    unfold sameText
    by_cases hsame : input.policy.sourceCalendarRef = input.policy.destinationCalendarRef
    · simp [hsame]
    · simp [hsame]
  rw [hsame, decide_eq_false_iff_not]
  rfl

/-! ### Invalid results come from the validation -/

theorem excluded_not_invalid (input : PolicyEvaluationInput) (code : ReasonCode) (removed : Bool) :
    (CalendarSync.excluded input code removed).selection ≠ .invalid := by
  unfold CalendarSync.excluded
  split <;> exact nofun

theorem concludeText_not_invalid (chosen : Selected) :
    (concludeText env input chosen).selection ≠ .invalid := by
  unfold concludeText
  split <;> exact nofun

theorem conclude_not_invalid (timing : EventTiming) (availability : Availability)
    (reasons warnings : List ReasonCode) :
    (conclude env input timing availability reasons warnings).selection ≠ .invalid := by
  have heq := conclude_eq env input ⟨timing, availability, reasons, warnings⟩
  rw [heq]
  exact concludeText_not_invalid _

theorem evaluatePolicyText_valid (hv : validate env input = none) :
    (evaluatePolicyText env input).selection ≠ .invalid := by
  cases hstate : input.policy.state with
  | paused => simp [evaluatePolicyText, hv, hstate, CalendarSync.result]
  | disabled => simp [evaluatePolicyText, hv, hstate, CalendarSync.result]
  | reviewRequired => simp [evaluatePolicyText, hv, hstate, CalendarSync.result]
  | active =>
    rw [evaluatePolicyText_eq hv hstate]
    rcases selectSource_cases hv with ⟨code, removed, h⟩ | ⟨chosen, h, -⟩
    · rw [h]
      exact excluded_not_invalid input code removed
    · rw [h]
      exact concludeText_not_invalid chosen

/-- A confirmed event that the validation passes has a timing. -/
theorem checks_timing {same blank foreign : Bool} (hv : checks same blank foreign input = none)
    (hl : input.source.lifecycle = .confirmed) : input.source.timing ≠ none := by
  intro ht
  have hhours : checksBeforeHours input = none := by
    simp only [checks, Option.or_eq_none_iff] at hv
    exact hv.2.2.2.1
  simp only [checksBeforeHours, hl, ht, decide_true, Option.isNone_none, Bool.and_self,
    if_true] at hhours
  repeat (split at hhours; · cases hhours)
  cases hhours

theorem evaluate_valid (services : Services) (hv : validationReason env input = none) :
    (evaluate env services input).selection ≠ .invalid := by
  have htiming : input.source.lifecycle = .confirmed → input.source.timing ≠ none := by
    rw [validationReason_checks] at hv
    exact checks_timing hv
  unfold evaluate
  simp only [hv, excluded_eq, result_eq]
  cases input.policy.state with
  | paused => exact nofun
  | disabled => exact nofun
  | reviewRequired => exact nofun
  | active =>
    cases hl : input.source.lifecycle with
    | deleted => exact excluded_not_invalid _ _ _
    | cancelled => exact excluded_not_invalid _ _ _
    | confirmed =>
      simp only [reduceCtorEq, if_false]
      split; · exact excluded_not_invalid _ _ _
      split; · exact excluded_not_invalid _ _ _
      split; · exact excluded_not_invalid _ _ _
      split; · exact excluded_not_invalid _ _ _
      split
      · exact excluded_not_invalid _ _ _
      · rename_i hnone
        exact absurd hnone (htiming hl)
      · split; · exact excluded_not_invalid _ _ _
        split; · exact excluded_not_invalid _ _ _
        split; · exact excluded_not_invalid _ _ _
        split; · exact excluded_not_invalid _ _ _
        exact conclude_not_invalid _ _ _ _

/-- Equal results come from equal validations. -/
theorem validations_of_results
    (heq : evaluate env services input = evaluatePolicyText env input) :
    validationReason env input = validate env input := by
  cases hn : validationReason env input with
  | some code =>
    have hresult : evaluate env services input = result .invalid .none code [code] := by
      unfold evaluate
      rw [hn]
    cases hv : validate env input with
    | some code' =>
      have hresult' : evaluatePolicyText env input = CalendarSync.result .invalid .none code' [code'] := by
        unfold evaluatePolicyText
        rw [hv]
      rw [hresult, hresult'] at heq
      exact congrArg (fun r => some r.primaryReasonCode) heq
    | none =>
      refine absurd ?_ (evaluatePolicyText_valid hv)
      rw [← heq, hresult]
      rfl
  | none =>
    cases hv : validate env input with
    | some code' =>
      have hresult' : evaluatePolicyText env input = CalendarSync.result .invalid .none code' [code'] := by
        unfold evaluatePolicyText
        rw [hv]
      refine absurd ?_ (evaluate_valid services hn)
      rw [heq, hresult']
      rfl
    | none => rfl

/-! ### The first reason of a result -/

theorem head?_distinct (code : ReasonCode) (codes : List ReasonCode) :
    (distinct (code :: codes)).head? = some code := by
  have key : ∀ (codes seen : List ReasonCode),
      ((codes.foldl (fun seen v => if v ∈ seen then seen else seen ++ [v]) (code :: seen))).head? =
        some code := by
    intro codes
    induction codes with
    | nil => intro seen; rfl
    | cons v codes ih =>
      intro seen
      rw [List.foldl_cons]
      split
      · exact ih seen
      · exact ih (seen ++ [v])
  rw [← unique_eq]
  exact key codes []

theorem excluded_head (input : PolicyEvaluationInput) (code : ReasonCode) (removed : Bool) :
    (CalendarSync.excluded input code removed).reasonCodes.head? = some code := by
  unfold CalendarSync.excluded
  split <;> exact head?_distinct _ _

theorem concludeText_head {chosen : Selected} {code : ReasonCode} {codes : List ReasonCode}
    (h : chosen.reasons = code :: codes) :
    (concludeText env input chosen).reasonCodes.head? = some code := by
  unfold concludeText
  split <;> simp only [CalendarSync.result, h, List.cons_append, head?_distinct]

/-- The reasons whose checks may come out differently, past the validation. -/
def early : ReasonCode → Bool
  | .manualExclusion | .nosync | .outsideHorizon => true
  | _ => false

theorem effectiveAvailability_reason (input : PolicyEvaluationInput) :
    match CalendarSync.effectiveAvailability input with
    | .error code => early code = false
    | .ok effective => ∀ code, effective.2 = some code → early code = false := by
  unfold CalendarSync.effectiveAvailability
  cases input.source.relationship.role with
  | organizer =>
    rintro code ⟨⟩
    rfl
  | none => exact fun code hcode => by cases hcode
  | attendee =>
    cases input.source.relationship.response with
    | declined => rfl
    | accepted =>
      rintro code ⟨⟩
      rfl
    | notApplicable => exact fun code hcode => by cases hcode
    | tentative =>
      dsimp only
      cases input.policy.selection.tentative with
      | «omit» => rfl
      | busy =>
        rintro code ⟨⟩
        rfl
      | free =>
        rintro code ⟨⟩
        rfl
    | needsAction =>
      dsimp only
      cases input.policy.selection.unanswered with
      | «omit» => rfl
      | busy =>
        rintro code ⟨⟩
        rfl
      | free =>
        rintro code ⟨⟩
        rfl

theorem admitKind_reason (input : PolicyEvaluationInput) (timing : EventTiming)
    (availability : Availability) :
    match admitKind input timing availability with
    | .error code => early code = false
    | .ok code => early code = false := by
  unfold admitKind
  cases timing with
  | timed start finish startTzid endTzid => cases input.policy.selection.timed <;> rfl
  | allDay start finish timezone =>
    cases input.policy.selection.allDay <;> cases availability <;> rfl

theorem admitFree_reason {availability : Availability} {code : ReasonCode}
    (h : admitFree input availability = .error code) : early code = false := by
  unfold admitFree at h
  split at h
  · dsimp only at h
    split at h
    · split at h
      · cases h
        rfl
      · cases h
    · cases h
    · cases h
  · cases h

theorem matchReason_early (mode : HoursMode) (included : Bool) :
    early (matchReason mode included) = false := by
  cases mode <;> cases included <;> rfl

theorem evaluateHours_reason (zones : String → Option Zone) (x : HoursEvaluationInput) :
    early (CalendarSync.evaluateHours (env.withZones zones) x).reasonCode = false := by
  unfold CalendarSync.evaluateHours
  split
  · rfl
  · split
    · rfl
    · rfl
    · unfold Platform.withZones CalendarSync.matchProfile
      dsimp only
      split
      · rfl
      · split
        · rfl
        · rfl
        · exact matchReason_early _ _

/-- The other evaluator's own hours. -/
theorem shared_self (env : Platform) (services : Services) (input : PolicyEvaluationInput) :
    Shared env { services with hours := CalendarSync.evaluateHours env } input :=
  fun _ => rfl

/-- An event inside the horizon is reported for a later reason, or for that of its availability. -/
theorem selectTiming_head (env : Platform) (zones : String → Option Zone) (services : Services)
    (timing : EventTiming) (availability : Availability) {reason : Option ReasonCode}
    (hreason : ∀ code, reason = some code → early code = false) :
    ∃ code, early code = false ∧ (settle (env.withZones zones) input
      (selectTiming (env.withZones zones) input timing availability reason.toList)).reasonCodes.head? =
        some code := by
  rw [selectTiming_eq (shared_self _ services input)]
  have hkind := admitKind_reason input timing availability
  cases hk : admitKind input timing availability with
  | error code =>
    rw [hk] at hkind
    exact ⟨code, hkind, excluded_head _ _ _⟩
  | ok kindReason =>
    rw [hk] at hkind
    cases hf : admitFree input availability with
    | error code => exact ⟨code, admitFree_reason hf, excluded_head _ _ _⟩
    | ok free =>
      dsimp only
      cases hh : admitHours { services with
          hours := CalendarSync.evaluateHours (env.withZones zones) } input timing with
      | error code =>
        refine ⟨code, ?_, excluded_head _ _ _⟩
        unfold admitHours at hh
        split at hh
        · dsimp only at hh
          split at hh
          · cases hh
            exact evaluateHours_reason zones _
          · cases hh
        · cases hh
      | ok hoursReasons =>
        cases reason with
        | none =>
          have hreasons : (none : Option ReasonCode).toList ++ [kindReason] ++ free.2.1 ++ hoursReasons =
              kindReason :: (free.2.1 ++ hoursReasons) := by
            simp
          exact ⟨kindReason, hkind, concludeText_head hreasons⟩
        | some code =>
          have hreasons : (some code).toList ++ [kindReason] ++ free.2.1 ++ hoursReasons =
              code :: kindReason :: (free.2.1 ++ hoursReasons) := by
            simp
          exact ⟨code, hreason code rfl, concludeText_head hreasons⟩

theorem settle_unmarked {interval : EventTiming → InstantInterval}
    (hskip : (input.policy.selection.skipWhenDestinationIdentityInvited &&
      input.source.destinationIdentityInvited) = false)
    {effective : Availability × Option ReasonCode} {timing : EventTiming}
    (heff : CalendarSync.effectiveAvailability input = .ok effective)
    (ht : input.source.timing = some timing) :
    settle env input (selectUnmarked env interval input) =
      if CalendarSync.overlaps (interval timing) input.horizon then
        settle env input (selectTiming env input timing effective.1 effective.2.toList)
      else CalendarSync.excluded input .outsideHorizon := by
  simp only [selectUnmarked, hskip, heff, ht, Bool.false_eq_true, if_false]
  cases CalendarSync.overlaps (interval timing) input.horizon <;> rfl

/-- What an event comes to that is not marked has another first reason. -/
theorem unmarked_head (env : Platform) (zones : String → Option Zone) (services : Services)
    (interval : EventTiming → InstantInterval) (ht : input.source.timing ≠ none) :
    ∃ code, (code ≠ .manualExclusion ∧ code ≠ .nosync) ∧
      (settle (env.withZones zones) input
        (selectUnmarked (env.withZones zones) interval input)).reasonCodes.head? = some code := by
  have hlate : ∀ {code : ReasonCode}, early code = false →
      code ≠ .manualExclusion ∧ code ≠ .nosync := by
    rintro code hcode
    constructor <;> (rintro rfl; cases hcode)
  cases hskip : input.policy.selection.skipWhenDestinationIdentityInvited &&
      input.source.destinationIdentityInvited with
  | true =>
    simp only [selectUnmarked, hskip, if_true]
    exact ⟨.alreadyInvited, by decide, excluded_head _ _ _⟩
  | false =>
    have hreason := effectiveAvailability_reason input
    cases heff : CalendarSync.effectiveAvailability input with
    | error omitted =>
      rw [heff] at hreason
      simp only [selectUnmarked, hskip, heff, Bool.false_eq_true, if_false]
      exact ⟨omitted, hlate hreason, excluded_head _ _ _⟩
    | ok effective =>
      rw [heff] at hreason
      obtain ⟨timing, htiming⟩ := Option.ne_none_iff_exists'.1 ht
      rw [settle_unmarked hskip heff htiming]
      split
      · obtain ⟨code, hcode, hhead⟩ :=
          selectTiming_head env zones services timing effective.1 hreason
        exact ⟨code, hlate hcode, hhead⟩
      · exact ⟨.outsideHorizon, by decide, excluded_head _ _ _⟩

/-- Where the horizon is reached, an event inside of it is not reported as outside. -/
theorem unmarked_eq_iff (env : Platform) (zones : String → Option Zone) (services : Services)
    (interval interval' : EventTiming → InstantInterval) (ht : input.source.timing ≠ none) :
    settle (env.withZones zones) input (selectUnmarked (env.withZones zones) interval input) =
        settle (env.withZones zones) input (selectUnmarked (env.withZones zones) interval' input) ↔
      ((input.policy.selection.skipWhenDestinationIdentityInvited &&
          input.source.destinationIdentityInvited) = false →
        ∀ effective timing, CalendarSync.effectiveAvailability input = .ok effective →
          input.source.timing = some timing →
          CalendarSync.overlaps (interval timing) input.horizon =
            CalendarSync.overlaps (interval' timing) input.horizon) := by
  constructor
  · intro heq hskip effective timing heff htiming
    have hreason := effectiveAvailability_reason input
    rw [heff] at hreason
    obtain ⟨code, hcode, hhead⟩ :=
      selectTiming_head env zones services timing effective.1 hreason
    have hinside : settle (env.withZones zones) input (selectTiming (env.withZones zones) input timing
        effective.1 effective.2.toList) ≠ CalendarSync.excluded input .outsideHorizon := by
      intro houtside
      rw [houtside, excluded_head] at hhead
      cases hhead
      cases hcode
    rw [settle_unmarked hskip heff htiming, settle_unmarked hskip heff htiming] at heq
    cases hleft : CalendarSync.overlaps (interval timing) input.horizon <;>
      cases hright : CalendarSync.overlaps (interval' timing) input.horizon <;>
      rw [hleft, hright] at heq
    · exact absurd heq.symm hinside
    · exact absurd heq hinside
  · intro hsame
    cases hskip : input.policy.selection.skipWhenDestinationIdentityInvited &&
        input.source.destinationIdentityInvited with
    | true => simp only [selectUnmarked, hskip, if_true]
    | false =>
      cases heff : CalendarSync.effectiveAvailability input with
      | error omitted => simp only [selectUnmarked, hskip, heff, Bool.false_eq_true, if_false]
      | ok effective =>
        obtain ⟨timing, htiming⟩ := Option.ne_none_iff_exists'.1 ht
        rw [settle_unmarked hskip heff htiming, settle_unmarked hskip heff htiming,
          hsame hskip effective timing heff htiming]

/-- An event that is not excluded by hand is reported as marked or for a later reason. -/
theorem evaluatePolicyText_head (zones : String → Option Zone) (services : Services)
    (hv : validate (env.withZones zones) input = none) (hactive : input.policy.state = .active)
    (hl : input.source.lifecycle = .confirmed) (hmanaged : input.source.origin ≠ .planipusManaged)
    (hmanual : input.source.sourceEventRef ∉ input.policy.selection.manualExclusions) :
    ∃ code, (evaluatePolicyText (env.withZones zones) input).reasonCodes.head? = some code ∧
      code ≠ .manualExclusion ∧
      (code = .nosync ↔ CalendarSync.containsNoSync (env.withZones zones) input = true) := by
  rw [evaluatePolicyText_eq hv hactive, selectSource_of_unlisted hl hmanaged hmanual]
  by_cases hmarked : CalendarSync.containsNoSync (env.withZones zones) input = true
  · rw [if_pos hmarked]
    exact ⟨.nosync, excluded_head _ _ _, by decide, by simp [hmarked]⟩
  · rw [if_neg hmarked]
    obtain ⟨code, ⟨hmanually, hnosync⟩, hhead⟩ :=
      unmarked_head env zones services _ (validate_timing hv hl)
    exact ⟨code, hhead, hmanually, iff_of_false hnosync hmarked⟩

/-- The same for the Swift evaluator. -/
theorem evaluate_head (zones : String → Option Zone)
    (h : Shared (env.withZones zones) services input)
    (hv : validationReason (env.withZones zones) input = none)
    (htiming : input.source.timing ≠ none) (hactive : input.policy.state = .active)
    (hl : input.source.lifecycle = .confirmed) (hmanaged : input.source.origin ≠ .planipusManaged)
    (hmanual : input.policy.selection.manualExclusions.any
      (sameText (env.withZones zones) input.source.sourceEventRef) = false) :
    ∃ code, (evaluate (env.withZones zones) services input).reasonCodes.head? = some code ∧
      (code = .nosync ↔ containsNoSync (env.withZones zones) services input = true) := by
  rw [evaluate_of_unlisted h hv hactive hl hmanaged hmanual]
  by_cases hmarked : containsNoSync (env.withZones zones) services input = true
  · rw [if_pos hmarked]
    exact ⟨.nosync, excluded_head _ _ _, by simp [hmarked]⟩
  · rw [if_neg hmarked]
    obtain ⟨code, ⟨-, hnosync⟩, hhead⟩ := unmarked_head env zones services _ htiming
    exact ⟨code, hhead, iff_of_false hnosync hmarked⟩

theorem evaluate_manual (hv : validationReason env input = none)
    (hactive : input.policy.state = .active) (hl : input.source.lifecycle = .confirmed)
    (hmanaged : input.source.origin ≠ .planipusManaged)
    (hmanual : input.policy.selection.manualExclusions.any
      (sameText env input.source.sourceEventRef) = true) :
    (evaluate env services input).reasonCodes.head? = some .manualExclusion := by
  unfold evaluate
  simp only [hv, hactive, hl, reduceCtorEq, if_false, if_neg hmanaged, hmanual, if_true, excluded_eq]
  exact excluded_head _ _ _

/-- Looking an event up by canonical equivalence finds what looking it up by identity finds. -/
theorem manual_any_iff :
    input.policy.selection.manualExclusions.any (sameText env input.source.sourceEventRef) =
        decide (input.source.sourceEventRef ∈ input.policy.selection.manualExclusions) ↔
      ∀ excluded ∈ input.policy.selection.manualExclusions,
        env.normalizeNFC input.source.sourceEventRef = env.normalizeNFC excluded →
        input.source.sourceEventRef ∈ input.policy.selection.manualExclusions := by
  rw [Bool.eq_iff_iff, List.any_eq_true, decide_eq_true_eq]
  constructor
  · intro h excluded hmem hsame
    exact h.1 ⟨excluded, hmem, decide_eq_true hsame⟩
  · intro h
    constructor
    · rintro ⟨excluded, hmem, hsame⟩
      exact h excluded hmem (of_decide_eq_true hsame)
    · intro hmem
      exact ⟨_, hmem, decide_eq_true rfl⟩

end Exact

section Agree

variable {env : Platform} {zones : String → Option Zone} {services : Services}
  {input : PolicyEvaluationInput}

/-- An exclusion by hand that only the native evaluator finds shows in its first reason. -/
theorem manual_of_results
    (heq : evaluate (env.withZones zones) services input = evaluatePolicyText (env.withZones zones) input)
    (hv : validate (env.withZones zones) input = none) (hactive : input.policy.state = .active)
    (hl : input.source.lifecycle = .confirmed) (hmanaged : input.source.origin ≠ .planipusManaged)
    {excluded : String} (hmem : excluded ∈ input.policy.selection.manualExclusions)
    (hsame : (env.withZones zones).normalizeNFC input.source.sourceEventRef =
      (env.withZones zones).normalizeNFC excluded) :
    input.source.sourceEventRef ∈ input.policy.selection.manualExclusions := by
  by_contra hunlisted
  obtain ⟨code, hhead, hne, -⟩ :=
    evaluatePolicyText_head zones services hv hactive hl hmanaged hunlisted
  rw [← heq, evaluate_manual ((validations_of_results heq).trans hv) hactive hl hmanaged
    (List.any_eq_true.2 ⟨excluded, hmem, decide_eq_true hsame⟩)] at hhead
  exact hne (Option.some.inj hhead).symm

theorem unlisted_of_results
    (heq : evaluate (env.withZones zones) services input = evaluatePolicyText (env.withZones zones) input)
    (hv : validate (env.withZones zones) input = none) (hactive : input.policy.state = .active)
    (hl : input.source.lifecycle = .confirmed) (hmanaged : input.source.origin ≠ .planipusManaged)
    (hunlisted : input.source.sourceEventRef ∉ input.policy.selection.manualExclusions) :
    input.policy.selection.manualExclusions.any
      (sameText (env.withZones zones) input.source.sourceEventRef) = false := by
  rw [manual_any_iff.2 fun _ hmem hsame => manual_of_results heq hv hactive hl hmanaged hmem hsame,
    decide_eq_false hunlisted]

/-- So does a marker that only one side finds. -/
theorem marker_of_results (hshared : Shared (env.withZones zones) services input)
    (heq : evaluate (env.withZones zones) services input = evaluatePolicyText (env.withZones zones) input)
    (hv : validate (env.withZones zones) input = none) (hactive : input.policy.state = .active)
    (hl : input.source.lifecycle = .confirmed) (hmanaged : input.source.origin ≠ .planipusManaged)
    (hunlisted : input.source.sourceEventRef ∉ input.policy.selection.manualExclusions) :
    containsNoSync (env.withZones zones) services input =
      CalendarSync.containsNoSync (env.withZones zones) input := by
  obtain ⟨code, hhead, -, hnosync⟩ :=
    evaluatePolicyText_head zones services hv hactive hl hmanaged hunlisted
  obtain ⟨code', hhead', hnosync'⟩ := evaluate_head zones hshared ((validations_of_results heq).trans hv)
    (validate_timing hv hl) hactive hl hmanaged (unlisted_of_results heq hv hactive hl hmanaged hunlisted)
  rw [heq, hhead, Option.some.injEq] at hhead'
  subst hhead'
  rw [Bool.eq_iff_iff, ← hnosync, ← hnosync']

theorem comparisonsAgree_of_results (htrim : (env.withZones zones).trim = stringTrim)
    (hshared : Shared (env.withZones zones) services input)
    (heq : evaluate (env.withZones zones) services input =
      evaluatePolicyText (env.withZones zones) input) :
    ComparisonsAgree (env.withZones zones) services input := by
  have hvalid := validations_of_results heq
  obtain ⟨hcalendars, hrest⟩ := (validations_eq_iff htrim).1 hvalid
  refine ⟨hcalendars, fun hdistinct hbefore => (hrest hdistinct hbefore).1, ?_, ?_,
    marker_of_results hshared heq, ?_⟩
  · intro hdistinct hbefore hblank hhours hmode profile expected hprofile href hsame
    exact foreignProfile_eq_iff.1 ((hrest hdistinct hbefore).2 hblank hhours) hmode profile expected
      hprofile href hsame
  · exact fun hv hactive hl hmanaged _ => manual_of_results heq hv hactive hl hmanaged
  · intro hv hactive hl hmanaged hunlisted hnosync
    have hmarker := marker_of_results hshared heq hv hactive hl hmanaged hunlisted
    rw [evaluate_of_unlisted hshared (hvalid.trans hv) hactive hl hmanaged
        (unlisted_of_results heq hv hactive hl hmanaged hunlisted),
      evaluatePolicyText_eq hv hactive, selectSource_of_unlisted hl hmanaged hunlisted,
      hmarker, hnosync, if_neg Bool.false_ne_true, if_neg Bool.false_ne_true] at heq
    exact (unmarked_eq_iff env zones services _ _ (validate_timing hv hl)).1 heq

theorem results_of_comparisonsAgree (htrim : (env.withZones zones).trim = stringTrim)
    (hshared : Shared (env.withZones zones) services input)
    (hagree : ComparisonsAgree (env.withZones zones) services input) :
    evaluate (env.withZones zones) services input =
      evaluatePolicyText (env.withZones zones) input := by
  have hvalid : validationReason (env.withZones zones) input =
      validate (env.withZones zones) input := by
    refine (validations_eq_iff htrim).2 ⟨hagree.calendars, fun hdistinct hbefore => ⟨?_, ?_⟩⟩
    · exact hagree.summary hdistinct hbefore
    · intro hblank hhours
      exact foreignProfile_eq_iff.2 (hagree.profile hdistinct hbefore hblank hhours)
  cases hv : validate (env.withZones zones) input with
  | some code =>
    rw [hv] at hvalid
    unfold evaluate evaluatePolicyText
    rw [hvalid, hv]
    exact result_eq _ _ _ _ _
  | none =>
    rw [hv] at hvalid
    cases hstate : input.policy.state with
    | paused => simp only [evaluate, evaluatePolicyText, hvalid, hv, hstate, result_eq]
    | disabled => simp only [evaluate, evaluatePolicyText, hvalid, hv, hstate, result_eq]
    | reviewRequired => simp only [evaluate, evaluatePolicyText, hvalid, hv, hstate, result_eq]
    | active =>
      rw [evaluatePolicyText_eq hv hstate]
      refine evaluate_eq hshared hvalid hstate ?_ (hagree.marker hv hstate) ?_
      · intro hl hmanaged
        exact manual_any_iff.2 (hagree.manual hv hstate hl hmanaged)
      · intro hl hmanaged hunlisted hnosync
        exact (unmarked_eq_iff env zones services _ _ (validate_timing hv hl)).2
          (hagree.horizon hv hstate hl hmanaged hunlisted hnosync)

end Agree

/-- **The policy evaluators agree** on an input exactly if no comparison that they reach comes out
differently. -/
theorem policy_agree_iff (env : Platform) (zones : String → Option Zone) (services : Services)
    (input : PolicyEvaluationInput) (htrim : env.trim = stringTrim)
    (hshared : Shared (env.withZones zones) services input) :
    evaluate (env.withZones zones) services input = evaluatePolicyText (env.withZones zones) input ↔
      ComparisonsAgree (env.withZones zones) services input := by
  constructor
  · exact comparisonsAgree_of_results htrim hshared
  · exact results_of_comparisonsAgree htrim hshared

section Example

open Planipus.Sync

/-- JavaScript and Foundation on ASCII text. -/
def asciiPlatform : Platform := { plainPlatform with trim := stringTrim }

def asciiServices : Services where
  startOfDate := asciiPlatform.startOfDay
  hours := CalendarSync.evaluateHours (asciiPlatform.withZones fun _ => none)
  lowercased := asciiPlatform.toLowerCase
  fullCaseFold := fun c => [asciiPlatform.simpleCaseFold c]

/-- A meeting that a policy copies under a generic summary. -/
def summaryInput (genericSummary : String) : PolicyEvaluationInput where
  now := 0
  horizon := ⟨0, 86400000⟩
  candidateProjectionRef := "copy-1"
  policy :=
    { plainPolicy ⟨.restore, .restore⟩ with
      privacy :=
        { preset := .busyOnly
          genericSummary
          copySummary := false
          copyDescription := false
          copyLocation := false
          copyConference := false
          copyAttendees := false
          copyOrganizer := false } }
  hoursProfile := none
  source := plainEvent "meeting" 1
  projection := { ownership := .none }
  destinationCapabilities := ⟨true, true, true, true⟩

theorem asciiShared (input : PolicyEvaluationInput) :
    Shared (asciiPlatform.withZones fun _ => none) asciiServices input :=
  fun _ => rfl

theorem policy_agree_busy :
    evaluate (asciiPlatform.withZones fun _ => none) asciiServices (summaryInput "busy") =
      evaluatePolicyText (asciiPlatform.withZones fun _ => none) (summaryInput "busy") := by
  refine (policy_agree_iff asciiPlatform _ asciiServices (summaryInput "busy") rfl
    (asciiShared _)).2 ⟨?_, ?_, ?_, ?_, ?_, ?_⟩
  · intro h
    exact h
  · intro _ _
    decide +kernel
  · intro _ _ _ _ hmode
    exact absurd rfl hmode
  · intro _ _ _ _ excluded hmem
    cases hmem
  · intro _ _ _ _ _
    decide +kernel
  · rintro _ _ _ _ _ _ _ effective timing _ ⟨⟩
    exact overlaps_timed ..

/-- A byte order mark is white space to JavaScript alone: the server refuses the policy, and the Mac
edition creates a copy. -/
theorem byteOrderMark_differs :
    evaluate (asciiPlatform.withZones fun _ => none) asciiServices (summaryInput "\uFEFF") ≠
        evaluatePolicyText (asciiPlatform.withZones fun _ => none) (summaryInput "\uFEFF") ∧
      (evaluate (asciiPlatform.withZones fun _ => none) asciiServices
        (summaryInput "\uFEFF")).operation = .create ∧
      (evaluatePolicyText (asciiPlatform.withZones fun _ => none)
        (summaryInput "\uFEFF")).primaryReasonCode = .invalidPrivacyTransform := by
  decide +kernel

end Example

end Planipus.Native.Policy

import Planipus.CalendarSync.Canonical

/-!
# The native policy evaluator

`PolicyContractEvaluator` of `macos/Sources/PlanipusCore/CanonicalCalendarSyncEvaluator.swift`, the
second implementation of the policy contract. The input is what the contract's JSON says; the
accessors that throw on a missing or mistyped member have nothing to throw on.

Swift's `==` on strings is canonical equivalence, and the white space that
`trimmingCharacters(in: .whitespacesAndNewlines)` takes off is that of Foundation. A case-insensitive
`NSRegularExpression` compares literal text by its full case folding and sets of characters by the
simple one. Normalization is that of the other evaluator.
-/

namespace Planipus.Native.Policy

open CalendarSync

/-- What the evaluator asks of Foundation and of `HoursEvaluator`. -/
structure Services where
  /-- `calendar.date(from:)` for a date without a time. -/
  startOfDate : (timezone date : String) → Instant
  hours : HoursEvaluationInput → HoursEvaluationResult
  /-- `lowercased()`, which maps each character by itself. -/
  lowercased : String → String
  /-- The full case folding of a character. -/
  fullCaseFold : Char → List Char

/-- `==` on strings. -/
def sameText (env : Platform) (left right : String) : Bool :=
  env.normalizeNFC left = env.normalizeNFC right

/-- `CharacterSet.whitespacesAndNewlines`: the general category Z, the tab, U+000A to U+000D and
U+0085. -/
def isWhitespaceOrNewline (c : Char) : Bool :=
  [0x9, 0xA, 0xB, 0xC, 0xD, 0x20, 0x85, 0xA0, 0x1680, 0x2028, 0x2029, 0x202F, 0x205F,
    0x3000].contains c.toNat || (0x2000 ≤ c.toNat && c.toNat ≤ 0x200A)

/-- `trimmingCharacters(in: .whitespacesAndNewlines)`. -/
def trimmingCharacters (text : String) : String :=
  String.ofList
    ((text.toList.dropWhile isWhitespaceOrNewline).reverse.dropWhile isWhitespaceOrNewline).reverse

def unique (values : List ReasonCode) : List ReasonCode :=
  (values.foldl (fun seen v => if v ∈ seen then seen else seen ++ [v]) [])

def result (selection : EvaluationSelection) (operation : EvaluationOperation)
    (primary : ReasonCode) (reasons : List ReasonCode) (warnings : List ReasonCode := []) :
    PolicyEvaluationResult :=
  { selection, operation, primaryReasonCode := primary,
    reasonCodes := unique reasons, warnings := unique warnings }

def validationReason (env : Platform) (input : PolicyEvaluationInput) : Option ReasonCode :=
  let policy := input.policy
  let privacy := policy.privacy
  let capabilities := input.destinationCapabilities
  let redacted : Bool := privacy.preset = .busyOnly || privacy.preset = .commitment
  if sameText env policy.sourceCalendarRef policy.destinationCalendarRef then
    some .invalidSameCalendar
  else if !capabilities.writable then some .invalidUnwritableDestination
  else if privacy.copyAttendees || privacy.copyOrganizer then some .invalidPrivacyTransform
  else if redacted && (privacy.copySummary || privacy.copyDescription || privacy.copyLocation ||
      privacy.copyConference) then
    some .invalidPrivacyTransform
  else if (trimmingCharacters (env.normalizeNFC privacy.genericSummary)).isEmpty then
    some .invalidPrivacyTransform
  else if privacy.preset ≠ .sharedDetails && !capabilities.privateVisibility then
    some .unsupportedDestinationCapability
  else if privacy.copyConference && !capabilities.conferenceCopy then
    some .unsupportedDestinationCapability
  else if policy.color.isSome && !capabilities.color then some .unsupportedDestinationCapability
  else if input.source.lifecycle = .confirmed && input.source.timing.isNone then
    some .invalidSourceEvent
  else if policy.hours.mode ≠ .allTimes then
    match input.hoursProfile, policy.hours.profileRef with
    | some profile, some expectedReference =>
      if sameText env profile.profileRef expectedReference then none
      else some .invalidHoursProfile
    | _, _ => some .invalidHoursProfile
  else none

def excluded (input : PolicyEvaluationInput) (reason : ReasonCode) (sourceRemoved : Bool := false) :
    PolicyEvaluationResult :=
  match input.projection.ownership with
  | .detached => result .excluded .none .detachedNoAction [reason, .detachedNoAction]
  | .ambiguous => result .held .none .ambiguousOwnership [reason, .ambiguousOwnership]
  | .attached =>
    let effect : ReasonCode :=
      if sourceRemoved then .deleteSourceRemoved else .deletePolicyExclusion
    result .excluded .delete effect [reason, effect]
  | .none => result .excluded .none reason [reason]

/-! ## The no-sync marker -/

/-- A literal of a case-insensitive `NSRegularExpression` matches a prefix of the text: the folding of
the prefix is that of the literal. The rest of the text is returned. -/
def matchFolded (services : Services) : List Char → List Char → Option (List Char)
  | [], text => some text
  | _ :: _, [] => none
  | l :: ls, c :: cs =>
    if (services.fullCaseFold c).isPrefixOf (l :: ls) then
      matchFolded services ((l :: ls).drop (services.fullCaseFold c).length) cs
    else none

/-- `firstMatch` of the folded marker between `(?<![\p{L}\p{N}_])` and `(?![\p{L}\p{N}_])`; `previous`
is the character that a lookbehind sees. -/
def firstMatch (env : Platform) (services : Services) (literal : List Char) :
    Option Char → List Char → Bool
  | previous, text =>
    (!previous.any (matchesWordChar env) &&
        (matchFolded services literal text).any fun rest => !rest.head?.any (matchesWordChar env)) ||
      match text with
      | [] => false
      | c :: cs => firstMatch env services literal (some c) cs

def containsNoSync (env : Platform) (services : Services) (input : PolicyEvaluationInput) : Bool :=
  let marker := services.lowercased (env.normalizeNFC input.policy.selection.sourceExclusionMarker)
  if marker.isEmpty then false
  else
    let fields := [input.source.content.summary, input.source.content.description,
      input.source.relationship.responseNote].filterMap fun field =>
        field.map fun text => services.lowercased (env.normalizeNFC text)
    fields.any fun value =>
      firstMatch env services (marker.toList.flatMap services.fullCaseFold) none value.toList

/-! ## Availability and timing -/

/-- `.error` for a response that omits the event. -/
def effectiveAvailability (input : PolicyEvaluationInput) :
    Except ReasonCode (Availability × Option ReasonCode) :=
  let selection := input.policy.selection
  let plain := (input.source.availability.getD .busy, none)
  match input.source.relationship.role with
  | .organizer => .ok (.busy, some .organizerAssumedAccepted)
  | .attendee =>
    match input.source.relationship.response with
    | .declined => .error .rsvpDeclined
    | .accepted => .ok (.busy, some .rsvpAccepted)
    | .tentative =>
      match selection.tentative with
      | .omit => .error .rsvpTentativeOmitted
      | .busy => .ok (.busy, some .rsvpTentativeBusy)
      | .free => .ok (.free, some .rsvpTentativeFree)
    | .needsAction =>
      match selection.unanswered with
      | .omit => .error .rsvpUnansweredOmitted
      | .busy => .ok (.busy, some .rsvpUnansweredBusy)
      | .free => .ok (.free, some .rsvpUnansweredFree)
    | .notApplicable => .ok plain
  | .none => .ok plain

def timingInterval (services : Services) : EventTiming → InstantInterval
  | .timed start finish _ _ => ⟨start, finish⟩
  | .allDay start finish timezone =>
    ⟨services.startOfDate timezone start, services.startOfDate timezone finish⟩

def overlaps (interval other : InstantInterval) : Bool :=
  interval.start < interval.finish && other.start < other.finish &&
    interval.start < other.finish && other.start < interval.finish

/-- The kind of timing against the policy: the reason to include it, or to exclude it. -/
def admitKind (input : PolicyEvaluationInput) (timing : EventTiming) (availability : Availability) :
    Except ReasonCode ReasonCode :=
  match timing with
  | .timed .. =>
    if input.policy.selection.timed = .skip then .error .timedEventDisabled
    else .ok .timedEventIncluded
  | .allDay .. =>
    let allDay := input.policy.selection.allDay
    if allDay = .skip then .error .allDay
    else if allDay = .busyOnly ∧ availability = .free then .error .allDayFree
    else .ok (if allDay = .busyOnly then .allDayBusyIncluded else .allDayIncluded)

/-- The treatment of free events: the availability, the reasons and the warnings. -/
def admitFree (input : PolicyEvaluationInput) (availability : Availability) :
    Except ReasonCode (Availability × List ReasonCode × List ReasonCode) :=
  if availability = .free then
    let preset := input.policy.privacy.preset
    match input.policy.selection.freeEvents with
    | .skipWhenRedacted =>
      if preset = .busyOnly ∨ preset = .commitment then .error .free
      else .ok (availability, [.freePreserved], [])
    | .preserveFree => .ok (availability, [.freePreserved], [])
    | .forceBusy => .ok (.busy, [.freeForcedBusy], [.freeForcedBusy])
  else .ok (availability, [], [])

/-- The hours of a timed event. -/
def admitHours (services : Services) (input : PolicyEvaluationInput) (timing : EventTiming) :
    Except ReasonCode (List ReasonCode) :=
  match timing with
  | .timed start finish _ _ =>
    let hours := services.hours ⟨input.policy.hours.mode, ⟨start, finish⟩, input.hoursProfile⟩
    if !hours.included then .error hours.reasonCode
    else .ok (hours.diagnostics ++ [hours.reasonCode])
  | .allDay .. => .ok []

/-! ## The transform -/

def omittedSourceFields : List String :=
  ["/attachments", "/attendees", "/content/description", "/content/summary", "/content/location",
    "/content/conference", "/organizer", "/provider_metadata", "/source_url"]

def transform (input : PolicyEvaluationInput) (timing : EventTiming) (availability : Availability) :
    DesiredCopy × DisclosureManifest :=
  let privacy := input.policy.privacy
  let content := input.source.content
  let details : Bool := privacy.preset = .privateDetails || privacy.preset = .sharedDetails
  let desired : DesiredCopy :=
    { timing
      summary := if details && privacy.copySummary then content.summary.getD ""
        else privacy.genericSummary
      description := if details && privacy.copyDescription then content.description else none
      location := if details && privacy.copyLocation then content.location else none
      conference := if details && privacy.copyConference then content.conference else none
      transparency := if availability = .free then .transparent else .opaque_
      visibility := if privacy.preset = .sharedDetails then .default_ else .private_
      color := input.policy.color
      provenance :=
        { policyRef := input.policy.policyRef
          projectionRef := input.projection.projectionRef.getD input.candidateProjectionRef
          generation := input.projection.generation.getD 1 } }
  let read := ["/availability", "/content/description", "/content/summary",
      "/destination_identity_invited", "/origin", "/relationship", "/timing"] ++
    (if input.source.recurrence.isSome then ["/recurrence"] else []) ++
    (if details && privacy.copyLocation then ["/content/location"] else []) ++
    (if details && privacy.copyConference then ["/content/conference"] else [])
  let disclosed := ["/timing"] ++
    (if details && privacy.copySummary then ["/content/summary"] else []) ++
    (if details && privacy.copyDescription then ["/content/description"] else []) ++
    (if details && privacy.copyLocation then ["/content/location"] else []) ++
    (if details && privacy.copyConference then ["/content/conference"] else [])
  (desired,
    { preset := privacy.preset
      sourceFieldsRead := sortedUnique read
      sourceFieldsDisclosed := sortedUnique disclosed
      -- The keys of a dictionary, in no order before they are sorted.
      destinationFieldsWritten := sortedUnique (destinationFields desired)
      sourceFieldsOmitted :=
        sortedUnique (omittedSourceFields.filter fun field => !disclosed.contains field) })

/-- `!=` on JSON values: strings are compared by canonical equivalence. -/
def differs (env : Platform) (observed desired : DesiredCopy) : Bool :=
  observed.canonical env.normalizeNFC ≠ desired.canonical env.normalizeNFC

/-! ## The evaluator -/

/-- From the look at the projection on. -/
def conclude (env : Platform) (input : PolicyEvaluationInput) (timing : EventTiming)
    (availability : Availability) (selectionReasons warnings : List ReasonCode) :
    PolicyEvaluationResult :=
  let projection := input.projection
  if projection.ownership = .detached then
    result .included .none .detachedNoAction (selectionReasons ++ [.detachedNoAction]) warnings
  else if projection.ownership = .ambiguous then
    result .held .none .ambiguousOwnership (selectionReasons ++ [.ambiguousOwnership]) warnings
  else
    let (desired, disclosure) := transform input timing availability
    let desiredFingerprint := sha256Canonical (desired.canonical env.normalizeNFC)
    let (operation, operationReason) : EvaluationOperation × ReasonCode :=
      if projection.ownership = .none then (.create, .createMissingCopy)
      else if projection.destinationExists = some false then (.create, .restoreDestinationMissing)
      else if projection.observedCopy.any fun observed => differs env observed desired then
        (.update, .restoreDestinationDrift)
      else if projection.desiredFingerprint.any fun previous => previous ≠ desiredFingerprint then
        (.update, .updateSourceChange)
      else (.none, .noChange)
    let privacyReason : ReasonCode :=
      match input.policy.privacy.preset with
      | .busyOnly => .privacyBusyOnly
      | .commitment => .privacyCommitment
      | .privateDetails => .privacyPrivateDetails
      | .sharedDetails => .privacySharedDetails
    { selection := .included
      operation
      primaryReasonCode := operationReason
      reasonCodes := unique (selectionReasons ++ [privacyReason, operationReason])
      warnings := unique warnings
      desiredCopy := some desired
      desiredFingerprint := some desiredFingerprint
      disclosureManifest := some disclosure }

def evaluate (env : Platform) (services : Services) (input : PolicyEvaluationInput) :
    PolicyEvaluationResult :=
  match validationReason env input with
  | some invalid => result .invalid .none invalid [invalid]
  | none =>
    let source := input.source
    let selection := input.policy.selection
    match input.policy.state with
    | .paused => result .held .none .policyPaused [.policyPaused]
    | .disabled => result .excluded .none .policyDisabled [.policyDisabled]
    | .reviewRequired => result .held .none .policyReviewRequired [.policyReviewRequired]
    | .active =>
      if source.lifecycle = .deleted then excluded input .sourceDeleted true
      else if source.lifecycle = .cancelled then excluded input .sourceCancelled true
      else if source.origin = .planipusManaged then excluded input .managedCopy
      else if selection.manualExclusions.any (sameText env source.sourceEventRef) then
        excluded input .manualExclusion
      else if containsNoSync env services input then excluded input .nosync
      else if selection.skipWhenDestinationIdentityInvited && source.destinationIdentityInvited then
        excluded input .alreadyInvited
      else
        match effectiveAvailability input, source.timing with
        | .error omitted, _ => excluded input omitted
        | .ok _, none => result .invalid .none .invalidSourceEvent [.invalidSourceEvent]
        | .ok (availability, reason), some timing =>
          if !overlaps (timingInterval services timing) input.horizon then
            excluded input .outsideHorizon
          else
            match admitKind input timing availability with
            | .error code => excluded input code
            | .ok kindReason =>
              match admitFree input availability with
              | .error code => excluded input code
              | .ok (copied, freeReasons, warnings) =>
                match admitHours services input timing with
                | .error code => excluded input code
                | .ok hoursReasons =>
                  conclude env input timing copied
                    (reason.toList ++ [kindReason] ++ freeReasons ++ hoursReasons) warnings

end Planipus.Native.Policy

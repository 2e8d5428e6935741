import Planipus.Native.Google
import Planipus.Native.Verify.PolicyAgreement
import Planipus.Provider.Verify.RoundTrip

/-!
# Copies and the other edition

Both editions mark what they write with private extended properties, and neither copies an event
that it finds marked. The server writes `planipus_version` and looks for it; the Mac edition writes
`planipus_managed` and looks for that. So an event is recognized by the edition that wrote it
(`skipped_iff`), and by that one alone.
-/

namespace Planipus.Native.LoopFreedom

open CalendarSync
open Provider.Google (Dates Properties Carries)

inductive Edition | server | mac
deriving DecidableEq

/-- The private extended properties of an event that an edition writes. -/
inductive Writes : Edition → Properties → Prop
  | copy {dates : Dates} {desired : CalendarSync.DesiredCopy} {eventId : Option String}
      {written : Provider.Google.GoogleEventWrite}
      (h : Provider.Google.serializeGoogleDesiredCopy dates desired eventId = .ok written) :
    Writes .server written.privateProperties
  | planning (dates : Dates) (desired : Provider.Google.ManagedPlanningEvent)
      (eventId : Option String) :
    Writes .server
      (Provider.Google.serializeGooglePlanningEvent dates desired eventId).privateProperties
  | native {formatters : Google.Formatters} {mutation : ProviderMutation}
      {written : Google.GoogleWriteEvent}
      (h : Google.GoogleWriteEvent.of formatters mutation = .ok written) :
    Writes .mac written.privateValues

/-- A source event as an edition has it. -/
inductive Source
  | observation (observation : SourceObservation)
  | event (event : SourceEvent)

/-- What the adapter of an edition makes of a resource. -/
inductive Reads : Edition → Provider.Google.GoogleEvent → Source → Prop
  | server {dates : Dates} {timezone : String} {resource : Provider.Google.GoogleEvent}
      {observation : SourceObservation}
      (h : Provider.Google.normalizeGoogleEvent dates resource timezone = .ok (some observation)) :
    Reads .server resource (.observation observation)
  | mac (env : Platform) (formatters : Google.Formatters) (calendarID : String)
      (identityEmail : Option String) {resource : Provider.Google.GoogleEvent}
      {event : Google.GoogleEvent} (h : Google.GoogleEvent.decode resource = some event) :
    Reads .mac resource (.event (event.sourceEvent env formatters calendarID identityEmail))

/-- The edition takes the event for one that Planipus manages, and no policy makes it create or
update a copy of it. `invited` is what the reconciler of the server adds to an observation. -/
def Skipped : Source → Prop
  | .observation observation => observation.origin = .planipusManaged ∧
      ∀ (env : Platform) (input : PolicyEvaluationInput) (invited : Bool),
        let output := evaluatePolicyText env
          { input with source := { observation with destinationIdentityInvited := invited } }
        output.operation ≠ .create ∧ output.operation ≠ .update
  | .event event => event.isManagedCopy = true ∧
      ∀ (env : Platform) (localDateString : Instant → String) (services : Policy.Services)
        (policy : SyncPolicy) (hasExistingProjection : Bool),
        (evaluate env localDateString services event policy hasExistingProjection).action ≠ .copy

/-! ## Markers -/

section Markers

variable {resource : Provider.Google.GoogleEvent} {properties : Properties}

theorem Writes.version {writer : Edition} (h : Writes writer properties) :
    properties.lookup "planipus_version" = if writer = .server then some "1" else none := by
  cases h with
  | copy h =>
    rw [Provider.Google.serializeGoogleDesiredCopy_properties h]
    rfl
  | planning => rfl
  | @native formatters mutation written h =>
    unfold Google.GoogleWriteEvent.of at h
    split at h
    · cases h
    · cases h
      rfl

theorem Writes.managed {writer : Edition} (h : Writes writer properties) :
    properties.lookup "planipus_managed" = if writer = .mac then some "1" else none := by
  cases h with
  | copy h =>
    rw [Provider.Google.serializeGoogleDesiredCopy_properties h]
    rfl
  | planning => rfl
  | @native formatters mutation written h =>
    unfold Google.GoogleWriteEvent.of at h
    split at h
    · cases h
    · cases h
      rfl

theorem decode_privateValue {event : Google.GoogleEvent}
    (h : Google.GoogleEvent.decode resource = some event) (key : String) :
    event.privateValue key = resource.marker key := by
  unfold Google.GoogleEvent.decode at h
  obtain ⟨id, -, h⟩ := Option.bind_eq_some_iff.1 h
  cases hattendees : resource.attendees with
  | none =>
    rw [hattendees] at h
    cases h
    rfl
  | some attendees =>
    rw [hattendees] at h
    obtain ⟨decoded, -, h⟩ := Option.bind_eq_some_iff.1 h
    cases h
    rfl

end Markers

/-! ## Decisions -/

theorem evaluatePolicyText_managed (env : Platform) (input : PolicyEvaluationInput)
    (h : input.source.origin = .planipusManaged) :
    (evaluatePolicyText env input).operation = .none ∨
      (evaluatePolicyText env input).operation = .delete := by
  obtain ⟨code, removed, hselect⟩ := Provider.Google.selectSource_managed env h
  unfold evaluatePolicyText
  split
  · exact .inl rfl
  · split
    · exact .inl rfl
    · exact .inl rfl
    · exact .inl rfl
    · rw [hselect]
      exact Provider.Google.excluded_operation input code removed

/-- The evaluator of the Mac edition desires no copy of a managed event. -/
theorem evaluate_managed (env : Platform) (services : Policy.Services)
    {input : PolicyEvaluationInput} (h : input.source.origin = .planipusManaged) :
    (Policy.evaluate env services input).desiredCopy = none := by
  have hexcluded : ∀ code removed, (Policy.excluded input code removed).desiredCopy = none := by
    intro code removed
    unfold Policy.excluded
    split <;> rfl
  unfold Policy.evaluate
  split
  · rfl
  · simp only
    split
    · rfl
    · rfl
    · rfl
    · split
      · exact hexcluded _ _
      · split
        · exact hexcluded _ _
        · exact hexcluded _ _

theorem decision_ne_copy {output : PolicyEvaluationResult} (h : output.desiredCopy = none)
    (event : SourceEvent) : (decision output event).action ≠ .copy := by
  unfold decision
  rw [h]
  split
  · simp
  · split
    · rename_i hsome
      cases hsome
    · simp

/-! ## The theorem -/

/-- **An event is skipped by the edition that wrote it, and by that one alone**, where the provider
returns the private extended properties unchanged. -/
theorem skipped_iff {writer reader : Edition} {properties : Properties}
    {resource : Provider.Google.GoogleEvent} {source : Source} (hwritten : Writes writer properties)
    (hresource : Carries resource properties) (hread : Reads reader resource source) :
    Skipped source ↔ writer = reader := by
  cases hread with
  | @server dates timezone _ observation h =>
    have hversion := (hresource "planipus_version").trans hwritten.version
    constructor
    · rintro ⟨hmanaged, -⟩
      by_contra hne
      rw [if_neg hne] at hversion
      rw [Provider.Google.normalizeGoogleEvent_origin_eq h, hversion] at hmanaged
      cases hmanaged
    · rintro rfl
      have hmanaged := Provider.Google.normalizeGoogleEvent_origin hversion h
      refine ⟨hmanaged, fun env input invited => ?_⟩
      rcases evaluatePolicyText_managed env
        { input with source := { observation with destinationIdentityInvited := invited } }
        hmanaged with hop | hop
      · simp [hop]
      · simp [hop]
  | @mac env formatters calendarID identityEmail _ event h =>
    have hmarker := (decode_privateValue h "planipus_managed").trans
      ((hresource "planipus_managed").trans hwritten.managed)
    constructor
    · rintro ⟨hmanaged, -⟩
      by_contra hne
      rw [if_neg hne] at hmarker
      simp [Google.GoogleEvent.sourceEvent, hmarker] at hmanaged
    · rintro rfl
      have hmanaged : (event.sourceEvent env formatters calendarID identityEmail).isManagedCopy =
          true := by
        rw [if_pos rfl] at hmarker
        simp [Google.GoogleEvent.sourceEvent, hmarker, Policy.sameText]
      refine ⟨hmanaged, fun env localDateString services policy hasExistingProjection => ?_⟩
      apply decision_ne_copy
      apply evaluate_managed
      simp [canonicalInput, canonicalSource, hmanaged]

section Example

open Native.Policy (asciiPlatform asciiServices)
open Provider.Google (firstDayDates)

/-- Foundation on the times of the example. -/
def firstDayFormatters : Google.Formatters where
  dateTimeText instant :=
    if instant = 3600000 then "1970-01-01T01:00:00Z" else "1970-01-01T02:00:00Z"
  readDateTime text :=
    if text = "1970-01-01T01:00:00Z" then some 3600000
    else if text = "1970-01-01T02:00:00Z" then some 7200000
    else none
  dateText _ := "1970-01-01"
  readDate text := if text = "1970-01-01" then some 0 else none

/-- A resource with the properties; the provider returns times without fractions of a second. -/
def returned (properties : Properties) : Provider.Google.GoogleEvent where
  id := some "pcopy11"
  status := some "confirmed"
  summary := some "meeting"
  start := some { dateTime := some "1970-01-01T01:00:00Z", timeZone := some "UTC" }
  finish := some { dateTime := some "1970-01-01T02:00:00Z", timeZone := some "UTC" }
  privateProperties := some properties

/-- A bridge of the Mac edition that copies every timed event. -/
def allTimesPolicy : SyncPolicy where
  id := "policy"
  revision := 1
  sourceEndpoint := ⟨"personal", "primary"⟩
  destinationEndpoint := ⟨"work", "primary"⟩
  hoursMode := .allTimes
  hoursProfile := ⟨"work-hours", "UTC", []⟩
  privacyPreset := .busyOnly
  allDayBehavior := .skip
  freeEventBehavior := .skipWhenRedacted
  needsActionBehavior := .includeFree
  tentativeBehavior := .busy

def meetingCopy : DesiredCopy where
  summary := "meeting"
  start := 3600000
  finish := 7200000
  isAllDay := false
  description := none
  location := none
  conferenceURL := none
  visibility := .private_
  transparency := .opaque_
  disclosure := []

/-- A copy by the Mac edition. -/
def copyMutation : ProviderMutation where
  idempotencyKey := ⟨.create, ⟨"work", "primary"⟩, "pcopy11", 1, "unversioned", ⟨meetingCopy⟩⟩
  operation := .create
  policyID := "policy"
  sourceEventID := "event"
  sourceOccurrenceID := none
  destinationEndpoint := ⟨"work", "primary"⟩
  destinationEventID := "pcopy11"
  expectedProviderRevision := none
  desiredCopy := some meetingCopy

theorem skipped_mac : ∃ written event,
    Google.GoogleWriteEvent.of firstDayFormatters copyMutation = .ok written ∧
      Google.GoogleEvent.decode (returned written.privateValues) = some event ∧
      Skipped (.event (event.sourceEvent asciiPlatform firstDayFormatters "primary" none)) := by
  obtain ⟨written, hwritten⟩ :
      ∃ written, Google.GoogleWriteEvent.of firstDayFormatters copyMutation = .ok written :=
    ⟨_, rfl⟩
  obtain ⟨event, hevent⟩ :
      ∃ event, Google.GoogleEvent.decode (returned written.privateValues) = some event :=
    ⟨_, rfl⟩
  have hread : Reads .mac (returned written.privateValues)
      (.event (event.sourceEvent asciiPlatform firstDayFormatters "primary" none)) :=
    .mac _ _ _ _ hevent
  exact ⟨written, event, hwritten, hevent,
    (skipped_iff (.native hwritten) (fun _ => rfl) hread).2 rfl⟩

/-- The server copies a meeting, and the Mac edition copies the copy. -/
theorem not_skipped_otherEdition : ∃ written event,
    Provider.Google.serializeGoogleDesiredCopy firstDayDates (Sync.plainCopy "meeting" 1)
        (some "pcopy11") = .ok written ∧
      Google.GoogleEvent.decode (returned written.privateProperties) = some event ∧
      (evaluate asciiPlatform firstDayFormatters.dateText asciiServices
        (event.sourceEvent asciiPlatform firstDayFormatters "primary" none) allTimesPolicy
        false).action = .copy ∧
      ¬ Skipped (.event (event.sourceEvent asciiPlatform firstDayFormatters "primary" none)) := by
  refine ⟨_, _, rfl, rfl, by decide +kernel, ?_⟩
  rintro ⟨hmanaged, -⟩
  exact absurd hmanaged (by decide +kernel)

end Example

end Planipus.Native.LoopFreedom

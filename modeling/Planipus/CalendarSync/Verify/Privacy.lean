import Planipus.Sync.Verify.Start

/-!
# What a copy can tell about its source

Two source events that agree on what the policy discloses are `Indistinguishable` under it. For an
event that the evaluator includes, everything it returns about the copy (the copy, its fingerprint,
the operation) is a function of the policy, the projection and that shared part: `selectSource`
reads the undisclosed fields, but only to decide whether the event is included
(`selectSource_ok`), and `transform` reads a content field only where it discloses it
(`transform_congr`). The manifest is then read back: the paths it lists as omitted are the content
fields that `transform` leaves alone.
-/

namespace Planipus.CalendarSync

/-! ## Content fields -/

inductive ContentField | summary | description | location | conference
deriving DecidableEq

namespace ContentField

/-- The path under which the manifest lists the field. -/
def path : ContentField → String
  | .summary => "/content/summary"
  | .description => "/content/description"
  | .location => "/content/location"
  | .conference => "/content/conference"

def get (content : EventContent) : ContentField → Option String
  | .summary => content.summary
  | .description => content.description
  | .location => content.location
  | .conference => content.conference

end ContentField

def PrivacyPolicy.selects (privacy : PrivacyPolicy) : ContentField → Bool
  | .summary => privacy.copySummary
  | .description => privacy.copyDescription
  | .location => privacy.copyLocation
  | .conference => privacy.copyConference

/-- A redacting preset discloses no content field, the others those that are selected. -/
def PrivacyPolicy.discloses (privacy : PrivacyPolicy) (field : ContentField) : Bool :=
  (privacy.preset = .privateDetails ∨ privacy.preset = .sharedDetails) && privacy.selects field

/-- What a copy shows in the place of a content field. -/
def DesiredCopy.shows (d : DesiredCopy) : ContentField → Option String
  | .summary => some d.summary
  | .description => d.description
  | .location => d.location
  | .conference => d.conference

/-- What a copy that discloses the field shows: a copy always has a summary. -/
def EventContent.disclosed (content : EventContent) : ContentField → Option String
  | .summary => some (content.summary.getD "")
  | .description => content.description
  | .location => content.location
  | .conference => content.conference

/-- Two source events that agree on their timing, on what decides the availability and on the
content fields that the policy discloses. References, revisions, recurrence, attendees, organizer,
attachments, the source URL, provider metadata and the rest of the content are free. -/
structure Indistinguishable (privacy : PrivacyPolicy) (a b : SourceObservation) : Prop where
  timing : a.timing = b.timing
  availability : a.availability = b.availability
  role : a.relationship.role = b.relationship.role
  response : a.relationship.response = b.relationship.response
  content : ∀ field : ContentField, privacy.discloses field = true →
    field.get a.content = field.get b.content

/-! ## What the selection passes on -/

/-- The availability of a copy, given the event's own. -/
def copiedAvailability (policy : SyncPolicy) (availability : Availability) : Availability :=
  if availability = .free ∧ policy.selection.freeEvents = .forceBusy then .busy else availability

section Selection

variable {env : Platform} {input : PolicyEvaluationInput}

theorem resolveFree_ok {chosen chosen' : Selected} (h : resolveFree input chosen = .ok chosen') :
    chosen'.timing = chosen.timing ∧
      chosen'.availability = copiedAvailability input.policy chosen.availability := by
  unfold resolveFree at h
  unfold copiedAvailability
  split at h
  · rename_i hfree
    split at h
    · rename_i hmode
      dsimp only at h
      split at h
      · cases h
      · cases h
        simp [hmode]
    · rename_i hmode
      cases h
      simp [hmode]
    · rename_i hmode
      cases h
      simp [hfree, hmode]
  · rename_i hbusy
    cases h
    simp [hbusy]

theorem selectTiming_ok {timing : EventTiming} {availability : Availability}
    {reasons : List ReasonCode} {chosen : Selected}
    (h : selectTiming env input timing availability reasons = .ok chosen) :
    chosen.timing = timing ∧
      chosen.availability = copiedAvailability input.policy availability := by
  unfold selectTiming at h
  split at h
  · split at h
    · cases h
    · split at h
      · cases h
      · rename_i resolved hr
        dsimp only at h
        split at h
        · cases h
        · cases h
          exact resolveFree_ok hr
  · split at h
    · cases h
    · split at h
      · cases h
      · exact resolveFree_ok h
    · exact resolveFree_ok h

/-- The undisclosed fields decide whether an event is selected, and nothing else. -/
theorem selectSource_ok {chosen : Selected} (h : selectSource env input = .ok chosen) :
    input.source.timing = some chosen.timing ∧
      ∃ availability reason, effectiveAvailability input = .ok (availability, reason) ∧
        chosen.availability = copiedAvailability input.policy availability := by
  unfold selectSource at h
  split at h
  · cases h
  · cases h
  · split at h
    · cases h
    split at h
    · cases h
    split at h
    · cases h
    split at h
    · cases h
    split at h
    · cases h
    · rename_i availability reason heff
      split at h
      · cases h
      · rename_i timing htiming
        split at h
        · cases h
        · obtain ⟨ht, ha⟩ := selectTiming_ok h
          exact ⟨by rw [htiming, ht], availability, reason, heff, ha⟩

theorem excluded_not_included (input : PolicyEvaluationInput) (code : ReasonCode)
    (removed : Bool) : (excluded input code removed).selection ≠ .included := by
  unfold excluded
  split <;> exact nofun

/-- An included event is one that was selected; it has a copy unless it was detached. -/
theorem evaluatePolicy_included (h : (evaluatePolicy env input).selection = .included) :
    ∃ chosen, selectSource env input = .ok chosen ∧
      (input.projection.ownership = .detached ∧
          (evaluatePolicy env input).desiredCopy = none ∧
          (evaluatePolicy env input).desiredFingerprint = none ∧
          (evaluatePolicy env input).disclosureManifest = none ∧
          (evaluatePolicy env input).operation = .none ∨
        input.projection.ownership ≠ .detached ∧
          (evaluatePolicy env input).desiredCopy =
            some (transform input chosen.timing chosen.availability).1 ∧
          (evaluatePolicy env input).desiredFingerprint =
            some (sha256Canonical (transform input chosen.timing chosen.availability).1) ∧
          (evaluatePolicy env input).disclosureManifest =
            some (transform input chosen.timing chosen.availability).2 ∧
          (evaluatePolicy env input).operation = (decideOperation input.projection
            (transform input chosen.timing chosen.availability).1).1) := by
  unfold evaluatePolicy at h ⊢
  cases hv : validate env input with
  | some code =>
    rw [hv] at h
    cases h
  | none =>
    simp only [hv] at h ⊢
    cases hstate : input.policy.state with
    | paused =>
      rw [hstate] at h
      cases h
    | disabled =>
      rw [hstate] at h
      cases h
    | reviewRequired =>
      rw [hstate] at h
      cases h
    | active =>
      simp only [hstate] at h ⊢
      rcases selectSource_cases hv with ⟨code, removed, hs⟩ | ⟨chosen, hs, -⟩
      · simp only [hs] at h
        exact absurd h (excluded_not_included input code removed)
      · simp only [hs] at h ⊢
        refine ⟨chosen, rfl, ?_⟩
        cases hown : input.projection.ownership with
        | detached => exact .inl ⟨rfl, rfl, rfl, rfl, rfl⟩
        | ambiguous =>
          rw [hown] at h
          cases h
        | none => exact .inr ⟨nofun, rfl, rfl, rfl, rfl⟩
        | attached => exact .inr ⟨nofun, rfl, rfl, rfl, rfl⟩

end Selection

/-! ## What the transform reads -/

section Transform

variable {privacy : PrivacyPolicy} {input : PolicyEvaluationInput} {a b : SourceObservation}
variable {timing : EventTiming} {availability : Availability}

/-- The copy has the content of the fields it discloses. -/
theorem transform_shows (input : PolicyEvaluationInput) (field : ContentField)
    (h : input.policy.privacy.discloses field = true) :
    (transform input timing availability).1.shows field =
      input.source.content.disclosed field := by
  cases field <;>
    simp only [PrivacyPolicy.discloses, PrivacyPolicy.selects] at h <;>
    simp only [transform, DesiredCopy.shows, EventContent.disclosed, h, if_true]

theorem Indistinguishable.disclosed (h : Indistinguishable privacy a b) {field : ContentField}
    (hf : privacy.discloses field = true) : a.content.disclosed field = b.content.disclosed field := by
  have hget := h.content field hf
  cases field <;> simp only [ContentField.get] at hget <;>
    simp only [EventContent.disclosed, hget]

/-- A field that is not disclosed has a value of the policy's in its place. -/
theorem transform_hides (input : PolicyEvaluationInput) (field : ContentField)
    (h : input.policy.privacy.discloses field = false) :
    (transform input timing availability).1.shows field =
      if field = .summary then some input.policy.privacy.genericSummary else none := by
  cases field <;>
    simp only [PrivacyPolicy.discloses, PrivacyPolicy.selects] at h <;>
    simp only [transform, DesiredCopy.shows, h] <;> rfl

/-- The rest of a copy is not made from the source's content. -/
theorem DesiredCopy.eq_of_shows {c d : DesiredCopy} (hshows : ∀ field, c.shows field = d.shows field)
    (htiming : c.timing = d.timing) (htransparency : c.transparency = d.transparency)
    (hvisibility : c.visibility = d.visibility) (hcolor : c.color = d.color)
    (hprovenance : c.provenance = d.provenance) : c = d := by
  have hsummary : c.summary = d.summary := Option.some.inj (hshows .summary)
  have hdescription : c.description = d.description := hshows .description
  have hlocation : c.location = d.location := hshows .location
  have hconference : c.conference = d.conference := hshows .conference
  cases c
  cases d
  simp_all

theorem transform_congr (h : Indistinguishable input.policy.privacy input.source b) :
    (transform { input with source := b } timing availability).1 =
      (transform input timing availability).1 := by
  apply DesiredCopy.eq_of_shows
  · intro field
    cases hf : input.policy.privacy.discloses field with
    | true =>
      rw [transform_shows { input with source := b } field hf, transform_shows input field hf]
      exact (h.disclosed hf).symm
    | false =>
      rw [transform_hides { input with source := b } field hf, transform_hides input field hf]
  · rfl
  · rfl
  · rfl
  · rfl
  · rfl

theorem effectiveAvailability_congr
    (h : Indistinguishable input.policy.privacy input.source b) :
    effectiveAvailability { input with source := b } = effectiveAvailability input := by
  simp only [effectiveAvailability, h.role, h.response, h.availability]

end Transform

/-! ## The manifest -/

theorem mem_insertSorted {value v : String} {values : List String} :
    v ∈ insertSorted value values ↔ v = value ∨ v ∈ values := by
  induction values with
  | nil => simp [insertSorted]
  | cons w ws ih =>
    unfold insertSorted
    split
    · simp
    · split
      · rename_i heq
        simp [heq]
      · simp only [List.mem_cons, ih]
        tauto

theorem mem_sortedUnique {v : String} {values : List String} :
    v ∈ sortedUnique values ↔ v ∈ values := by
  induction values with
  | nil => simp [sortedUnique]
  | cons w ws ih =>
    show v ∈ insertSorted w (sortedUnique ws) ↔ _
    rw [mem_insertSorted, ih, List.mem_cons]

theorem transform_disclosed (input : PolicyEvaluationInput) (timing : EventTiming)
    (availability : Availability) (field : ContentField) :
    field.path ∈ (transform input timing availability).2.sourceFieldsDisclosed ↔
      input.policy.privacy.discloses field = true := by
  simp only [transform, mem_sortedUnique, PrivacyPolicy.discloses]
  cases field <;> simp [ContentField.path, PrivacyPolicy.selects]

theorem transform_omitted (input : PolicyEvaluationInput) (timing : EventTiming)
    (availability : Availability) (field : ContentField) :
    field.path ∈ (transform input timing availability).2.sourceFieldsOmitted ↔
      input.policy.privacy.discloses field = false := by
  have hlisted : field.path ∈ omittedSourceFields := by
    cases field <;> decide
  have hdisclosed := transform_disclosed input timing availability field
  simp only [transform, mem_sortedUnique] at hdisclosed
  simp only [transform, mem_sortedUnique, List.mem_filter, hlisted, true_and, Bool.not_eq_true',
    List.contains_eq_mem, decide_eq_false_iff_not]
  rw [hdisclosed, Bool.not_eq_true]

/-! ## Noninterference -/

section Noninterference

variable {env : Platform} {input : PolicyEvaluationInput} {b : SourceObservation}

/-- What the evaluator says about the copy of an included event. -/
theorem evaluatePolicy_congr (h : Indistinguishable input.policy.privacy input.source b)
    (ha : (evaluatePolicy env input).selection = .included)
    (hb : (evaluatePolicy env { input with source := b }).selection = .included) :
    (evaluatePolicy env { input with source := b }).desiredCopy =
        (evaluatePolicy env input).desiredCopy ∧
      (evaluatePolicy env { input with source := b }).desiredFingerprint =
        (evaluatePolicy env input).desiredFingerprint ∧
      (evaluatePolicy env { input with source := b }).operation =
        (evaluatePolicy env input).operation := by
  obtain ⟨chosen, hs, hcase⟩ := evaluatePolicy_included ha
  obtain ⟨chosen', hs', hcase'⟩ := evaluatePolicy_included hb
  obtain ⟨htiming, availability, reason, heff, havail⟩ := selectSource_ok hs
  obtain ⟨htiming', availability', reason', heff', havail'⟩ := selectSource_ok hs'
  have heq : chosen'.timing = chosen.timing := by
    rw [h.timing] at htiming
    exact Option.some.inj (htiming'.symm.trans htiming)
  have haeq : chosen'.availability = chosen.availability := by
    rw [effectiveAvailability_congr h, heff] at heff'
    cases heff'
    rw [havail', havail]
  have hcopy : (transform { input with source := b } chosen'.timing chosen'.availability).1 =
      (transform input chosen.timing chosen.availability).1 := by
    rw [heq, haeq]
    exact transform_congr h
  rcases hcase with ⟨hown, hd, hp, -, ho⟩ | ⟨hown, hd, hp, -, ho⟩
  · rcases hcase' with ⟨-, hd', hp', -, ho'⟩ | ⟨hown', -⟩
    · rw [hd, hd', hp, hp', ho, ho']
      exact ⟨rfl, rfl, rfl⟩
    · exact absurd hown hown'
  · rcases hcase' with ⟨hown', -⟩ | ⟨-, hd', hp', -, ho'⟩
    · exact absurd hown' hown
    · rw [hd, hd', hp, hp', ho, ho', hcopy]
      exact ⟨rfl, rfl, rfl⟩

/-- An event under other content that agrees on every disclosed field. -/
theorem indistinguishable_content {privacy : PrivacyPolicy} {a : SourceObservation}
    {content : EventContent} (h : ∀ field : ContentField, privacy.discloses field = true →
      field.get a.content = field.get content) :
    Indistinguishable privacy a { a with content } :=
  ⟨rfl, rfl, rfl, rfl, h⟩

end Noninterference

/-- **Privacy noninterference**: the copy of an included event, its fingerprint and the operation
do not depend on what the policy does not disclose; the manifest lists every content field as either
omitted or disclosed, the omitted ones have no influence on the copy, and the disclosed ones are
what it shows. -/
theorem copy_noninterference (env : Platform) (input : PolicyEvaluationInput)
    (hincluded : (evaluatePolicy env input).selection = .included) :
    (∀ source : SourceObservation,
        Indistinguishable input.policy.privacy input.source source →
        (evaluatePolicy env { input with source }).selection = .included →
          (evaluatePolicy env { input with source }).desiredCopy =
              (evaluatePolicy env input).desiredCopy ∧
            (evaluatePolicy env { input with source }).desiredFingerprint =
              (evaluatePolicy env input).desiredFingerprint ∧
            (evaluatePolicy env { input with source }).operation =
              (evaluatePolicy env input).operation) ∧
      ∀ manifest, (evaluatePolicy env input).disclosureManifest = some manifest →
        (∀ field : ContentField, field.path ∈ manifest.sourceFieldsOmitted ↔
          field.path ∉ manifest.sourceFieldsDisclosed) ∧
        (∀ content : EventContent,
          (∀ field : ContentField, field.path ∉ manifest.sourceFieldsOmitted →
            field.get content = field.get input.source.content) →
          (evaluatePolicy env { input with source := { input.source with content } }).selection =
              .included →
            (evaluatePolicy env
              { input with source := { input.source with content } }).desiredCopy =
                (evaluatePolicy env input).desiredCopy) ∧
        ∃ copy, (evaluatePolicy env input).desiredCopy = some copy ∧
          input.source.timing = some copy.timing ∧
          ∀ field : ContentField, field.path ∈ manifest.sourceFieldsDisclosed →
            copy.shows field = input.source.content.disclosed field := by
  refine ⟨?_, ?_⟩
  · intro source hsame hsource
    exact evaluatePolicy_congr hsame hincluded hsource
  intro manifest hmanifest
  obtain ⟨chosen, hs, hcase⟩ := evaluatePolicy_included hincluded
  -- A detached projection has no manifest.
  rcases hcase with ⟨-, -, -, hnone, -⟩ | ⟨-, hd, -, hm, -⟩
  · rw [hnone] at hmanifest
    cases hmanifest
  rw [hm, Option.some.injEq] at hmanifest
  subst hmanifest
  refine ⟨?_, ?_, (transform input chosen.timing chosen.availability).1, hd,
    (selectSource_ok hs).1, ?_⟩
  · intro field
    rw [transform_omitted, transform_disclosed, Bool.not_eq_true]
  · intro content hagrees hcontent
    refine (evaluatePolicy_congr (indistinguishable_content ?_) hincluded hcontent).1
    intro field hf
    refine (hagrees field ?_).symm
    rw [transform_omitted, hf]
    exact Bool.noConfusion
  · intro field hf
    exact transform_shows input field ((transform_disclosed _ _ _ field).1 hf)

section Example

open Planipus.Sync

/-- A meeting between two calendars that share their details, in a policy that copies the summary
alone. -/
def noninterferenceInput : PolicyEvaluationInput where
  now := 0
  horizon := ⟨0, 86400000⟩
  candidateProjectionRef := "copy-1"
  policy := plainPolicy ⟨.restore, .restore⟩
  hoursProfile := none
  source := plainEvent "meeting" 1
  projection := { ownership := .none }
  destinationCapabilities := ⟨true, true, true, true⟩

/-- A location of the event leaves no trace in the copy. -/
theorem copy_noninterference_location :
    (evaluatePolicy plainPlatform { noninterferenceInput with
      source := { plainEvent "meeting" 1 with
        content := { summary := some "meeting", location := some "room 4" } } }).desiredCopy =
      (evaluatePolicy plainPlatform noninterferenceInput).desiredCopy :=
  ((copy_noninterference plainPlatform noninterferenceInput (by decide)).1 _
    (indistinguishable_content (fun field hf => by cases field <;> first | rfl | cases hf))
    (by decide)).1

end Example

end Planipus.CalendarSync

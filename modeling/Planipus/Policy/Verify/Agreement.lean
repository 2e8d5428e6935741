import Planipus.Library.Outcomes
import Planipus.Policy.Preview
import Planipus.Sync.Verify.Start

/-!
# A preview agrees with the first pass

Preview and pass build the evaluation inputs of an observation from different rows. Up to the names of
the policy, of the hours profile and of the projection, which decide nothing while an observation has no
projection, they differ in two places: the pass marks an event to which the destination's account is
invited, and it compares the saved profile's stored ID with the ID as the draft spells it.
`preview_agrees_iff` says that these are the only places.
-/

namespace Planipus.Policy

open CalendarSync Sync Provider Library

/-! ## Decisions without a projection -/

section Decisions

/-- Whether an observation is included and what is done with it. -/
def decision (r : PolicyEvaluationResult) : EvaluationSelection × EvaluationOperation :=
  (r.selection, r.operation)

/-- The policy selects the source event. -/
def selects (env : Platform) (input : PolicyEvaluationInput) : Bool :=
  match selectSource env input with
  | .ok _ => true
  | .error _ => false

variable {env : Platform} {input : PolicyEvaluationInput}

/-- Without a projection a valid input is included with a create or excluded. -/
theorem decision_evaluatePolicy (hactive : input.policy.state = .active)
    (hown : input.projection.ownership = .none) :
    decision (evaluatePolicy env input) =
      if (validate env input).isSome then (.invalid, .none)
      else if selects env input then (.included, .create)
      else (.excluded, .none) := by
  unfold evaluatePolicy
  cases hv : validate env input with
  | some code => rfl
  | none =>
    simp only [hactive, Option.isSome_none, Bool.false_eq_true, if_false]
    rcases selectSource_cases hv with ⟨code, removed, h⟩ | ⟨chosen, h, -⟩
    · simp only [h, selects, excluded, hown]
      rfl
    · simp only [h, selects, hown, decision, decideOperation, if_true]

/-- The reason for which the hours of a policy are invalid. -/
def hoursReason (input : PolicyEvaluationInput) : Option ReasonCode :=
  if input.policy.hours.mode ≠ .allTimes then
    match input.hoursProfile with
    | none => some .invalidHoursProfile
    | some profile =>
      if input.policy.hours.profileRef ≠ some profile.profileRef then some .invalidHoursProfile
      else none
  else none

/-- The input with the hours left out. -/
def withoutHours (input : PolicyEvaluationInput) : PolicyEvaluationInput :=
  { input with policy := { input.policy with hours := ⟨.allTimes, none⟩ }, hoursProfile := none }

/-- The hours are validated after everything else. -/
theorem validate_eq (env : Platform) (input : PolicyEvaluationInput) :
    validate env input = (validate env (withoutHours input) <|> hoursReason input) := by
  unfold validate withoutHours hoursReason
  dsimp only
  rw [Option.orElse_eq_orElse, Option.orElse_eq_or]
  iterate 9 apply ite_some_or
  rfl

/-- What the validation reads of an input, the hours apart. -/
theorem validate_withoutHours_congr {a b : PolicyEvaluationInput}
    (hsource : a.policy.sourceCalendarRef = b.policy.sourceCalendarRef)
    (hdestination : a.policy.destinationCalendarRef = b.policy.destinationCalendarRef)
    (hprivacy : a.policy.privacy = b.policy.privacy) (hcolor : a.policy.color = b.policy.color)
    (hcapabilities : a.destinationCapabilities = b.destinationCapabilities)
    (hlifecycle : a.source.lifecycle = b.source.lifecycle)
    (htiming : a.source.timing = b.source.timing) :
    validate env (withoutHours a) = validate env (withoutHours b) := by
  unfold validate withoutHours
  dsimp only
  rw [hsource, hdestination, hprivacy, hcolor, hcapabilities, hlifecycle, htiming]

/-- The profile without its name and revision. -/
def unnamed (profile : HoursProfile) : HoursProfile := { profile with profileRef := "", revision := 0 }

/-- The hours of an event do not depend on the name of the profile. -/
theorem evaluateHours_unnamed {zones : String → Option Zone} {mode : HoursMode}
    {event : InstantInterval} {profile profile' : Option HoursProfile}
    (h : profile.map unnamed = profile'.map unnamed) :
    evaluateHours (env.withZones zones) ⟨mode, event, profile⟩ =
      evaluateHours (env.withZones zones) ⟨mode, event, profile'⟩ := by
  cases profile with
  | none =>
    cases profile' with
    | none => rfl
    | some p' => cases h
  | some p =>
    cases profile' with
    | none => cases h
    | some p' =>
      have hp : unnamed p = unnamed p' := by simpa using h
      have hmatch : ∀ mode, matchProfile zones mode event p = matchProfile zones mode event p' := by
        intro mode
        rw [← matchProfile_rename zones mode event p "" 0, ← matchProfile_rename zones mode event p' "" 0]
        exact congrArg _ hp
      unfold evaluateHours
      split
      · rfl
      · cases mode with
        | allTimes => rfl
        | overlapsProfile => exact hmatch _
        | containedInProfile => exact hmatch _

/-- What the selection of an event reads of its input, the invitation of the destination's account and
the names apart. -/
structure SameSelection (a b : PolicyEvaluationInput) : Prop where
  source : { a.source with destinationIdentityInvited := false } =
    { b.source with destinationIdentityInvited := false }
  selection : a.policy.selection = b.policy.selection
  preset : a.policy.privacy.preset = b.policy.privacy.preset
  mode : a.policy.hours.mode = b.policy.hours.mode
  horizon : a.horizon = b.horizon
  profile : a.hoursProfile.map unnamed = b.hoursProfile.map unnamed

theorem resolveFree_toOption {a b : PolicyEvaluationInput} (h : SameSelection a b)
    (chosen : Selected) : (resolveFree a chosen).toOption = (resolveFree b chosen).toOption := by
  unfold resolveFree
  rw [h.preset, h.selection]
  split
  · cases b.policy.selection.freeEvents with
    | skipWhenRedacted =>
      dsimp only
      split <;> rfl
    | preserveFree => rfl
    | forceBusy => rfl
  · rfl

theorem selectTiming_toOption {zones : String → Option Zone} {a b : PolicyEvaluationInput}
    (h : SameSelection a b) (timing : EventTiming) (availability : Availability)
    (reasons : List ReasonCode) :
    (selectTiming (env.withZones zones) a timing availability reasons).toOption =
      (selectTiming (env.withZones zones) b timing availability reasons).toOption := by
  cases timing with
  | timed start finish tz₁ tz₂ =>
    have hhours : evaluateHours (env.withZones zones) ⟨a.policy.hours.mode, ⟨start, finish⟩, a.hoursProfile⟩ =
        evaluateHours (env.withZones zones) ⟨b.policy.hours.mode, ⟨start, finish⟩, b.hoursProfile⟩ := by
      rw [h.mode]
      exact evaluateHours_unnamed h.profile
    unfold selectTiming
    rw [h.selection]
    dsimp only
    rw [hhours]
    split
    · rfl
    · have hfree := resolveFree_toOption h
        ⟨.timed start finish tz₁ tz₂, availability, reasons ++ [.timedEventIncluded], []⟩
      revert hfree
      cases resolveFree a _ with
      | error r =>
        cases resolveFree b _ with
        | error r' => exact fun _ => rfl
        | ok c => exact fun h => nomatch h
      | ok c =>
        cases resolveFree b _ with
        | error r' => exact fun h => nomatch h
        | ok c' =>
          intro hc
          obtain rfl : c = c' := Option.some.inj hc
          dsimp only
          split <;> rfl
  | allDay start finish tz =>
    unfold selectTiming
    rw [h.selection]
    dsimp only
    cases b.policy.selection.allDay with
    | skip => rfl
    | busyOnly =>
      dsimp only
      split
      · rfl
      · exact resolveFree_toOption h _
    | all => exact resolveFree_toOption h _

/-- An event is selected alike, unless the destination's account is invited in one of the inputs and
the policy skips such events. -/
theorem selects_eq {zones : String → Option Zone} {a b : PolicyEvaluationInput}
    (h : SameSelection a b)
    (hinvited : a.policy.selection.skipWhenDestinationIdentityInvited = true →
      a.source.destinationIdentityInvited = b.source.destinationIdentityInvited) :
    selects (env.withZones zones) a = selects (env.withZones zones) b := by
  have hsome : ∀ x : Except PolicyEvaluationResult Selected,
      (match x with | .ok _ => true | .error _ => false) = x.toOption.isSome := by
    intro x
    cases x <;> rfl
  have hlifecycle := congrArg SourceObservation.lifecycle h.source
  have horigin := congrArg SourceObservation.origin h.source
  have href := congrArg SourceObservation.sourceEventRef h.source
  have hcontent := congrArg SourceObservation.content h.source
  have hrelationship := congrArg SourceObservation.relationship h.source
  have havailability := congrArg SourceObservation.availability h.source
  have htiming := congrArg SourceObservation.timing h.source
  dsimp only at hlifecycle horigin href hcontent hrelationship havailability htiming
  have hnosync : containsNoSync (env.withZones zones) a = containsNoSync (env.withZones zones) b := by
    unfold containsNoSync
    rw [h.selection, hcontent, hrelationship]
  have heffective : effectiveAvailability a = effectiveAvailability b := by
    unfold effectiveAvailability
    rw [h.selection, hrelationship, havailability]
  have hskip : (a.policy.selection.skipWhenDestinationIdentityInvited &&
      a.source.destinationIdentityInvited) = (b.policy.selection.skipWhenDestinationIdentityInvited &&
      b.source.destinationIdentityInvited) := by
    rw [← h.selection]
    cases hs : a.policy.selection.skipWhenDestinationIdentityInvited with
    | false => rfl
    | true => rw [hinvited hs]
  unfold selects
  rw [hsome, hsome]
  unfold selectSource
  rw [hlifecycle, horigin, href, hnosync, heffective, htiming, hskip, h.selection, h.horizon]
  cases b.source.lifecycle with
  | deleted => rfl
  | cancelled => rfl
  | confirmed =>
    dsimp only
    split; · rfl
    split; · rfl
    split; · rfl
    split; · rfl
    cases effectiveAvailability b with
    | error omitted => rfl
    | ok found =>
      dsimp only
      cases b.source.timing with
      | none => rfl
      | some timing =>
        dsimp only
        split
        · rfl
        · rw [selectTiming_toOption h]

theorem selects_invited (hskip : input.policy.selection.skipWhenDestinationIdentityInvited = true)
    (hinvited : input.source.destinationIdentityInvited = true) : selects env input = false := by
  unfold selects selectSource
  cases input.source.lifecycle with
  | deleted => rfl
  | cancelled => rfl
  | confirmed =>
    dsimp only
    by_cases h₁ : input.source.origin = .planipusManaged
    · rw [if_pos h₁]
    rw [if_neg h₁]
    by_cases h₂ : input.source.sourceEventRef ∈ input.policy.selection.manualExclusions
    · rw [if_pos h₂]
    rw [if_neg h₂]
    by_cases h₃ : containsNoSync env input = true
    · rw [if_pos h₃]
    rw [if_neg h₃, if_pos (by rw [hskip, hinvited]; rfl)]

end Decisions

/-! ## What preview and activation leave behind -/

section Steps

variable {rt : Runtime} {db db' : Database} {draft : PolicyDraft} {now : Instant}
  {source destination : CalendarRow} {hoursProfile : Option HoursProfile}

/-- What a preview that evaluates has checked. -/
structure Checked (rt : Runtime) (db : Database) (draft : PolicyDraft)
    (source destination : CalendarRow) (hoursProfile : Option HoursProfile)
    (inline : Option InlineHoursProfile) : Prop where
  inline_eq : validateInline rt draft.hoursProfile = .ok inline
  one : ¬(draft.hoursProfileId.isSome = true ∧ inline.isSome = true)
  needed : hoursMode draft ≠ .allTimes → hoursProfile.isSome = true
  unused : hoursMode draft = .allTimes → draft.hoursProfileId = none ∧ inline = none
  calendars : requirePolicyCalendars db.calendars draft.sourceCalendarId
    draft.destinationCalendarId = .ok (source, destination)
  profile : previewHoursProfile rt db draft inline = .ok hoursProfile

theorem validateInline_isSome {value inline : Option InlineHoursProfile}
    (h : validateInline rt value = .ok inline) : inline.isSome = value.isSome := by
  cases value with
  | none =>
    cases h
    rfl
  | some profile =>
    unfold validateInline at h
    dsimp only at h
    cases hv : validateInlineHoursProfile rt profile with
    | error e => rw [hv] at h; cases h
    | ok p =>
      rw [hv] at h
      cases h
      rfl

theorem previewHoursProfile_isSome {inline : Option InlineHoursProfile}
    (h : previewHoursProfile rt db draft inline = .ok hoursProfile) :
    hoursProfile.isSome = (inline.isSome || draft.hoursProfileId.isSome) := by
  unfold previewHoursProfile at h
  cases inline with
  | some p =>
    cases h
    rfl
  | none =>
    dsimp only at h
    cases hid : draft.hoursProfileId with
    | none =>
      rw [hid] at h
      cases h
      rfl
    | some id =>
      rw [hid] at h
      dsimp only at h
      split at h
      · cases h
      · cases h
        rfl

theorem previewChecks_ok (h : previewChecks rt db draft = .ok (source, destination, hoursProfile)) :
    ∃ inline, Checked rt db draft source destination hoursProfile inline := by
  unfold previewChecks at h
  split at h; · cases h
  split at h; · cases h
  split at h
  · cases h
  rename_i hone
  obtain ⟨inline, hinline, h⟩ := bind_eq_ok.1 h
  split at h; · cases h
  rename_i hneeded
  split at h; · cases h
  rename_i hunused
  obtain ⟨⟨source', destination'⟩, hcalendars, h⟩ := bind_eq_ok.1 h
  obtain ⟨_, -, h⟩ := bind_eq_ok.1 h
  obtain ⟨_, -, h⟩ := bind_eq_ok.1 h
  split at h
  · cases h
  obtain ⟨hoursProfile', hprofile, h⟩ := bind_eq_ok.1 h
  cases h
  refine ⟨inline, hinline, ?_, ?_, ?_, hcalendars, hprofile⟩
  · rw [validateInline_isSome hinline]
    simpa using hone
  · intro hmode
    rw [previewHoursProfile_isSome hprofile]
    cases inline with
    | some p => rfl
    | none =>
      cases hid : draft.hoursProfileId with
      | some id => rfl
      | none => exact absurd ⟨hmode, hid, rfl⟩ hneeded
  · intro hmode
    simpa [hmode] using hunused

/-- What an activation of the preview inserts. -/
structure Activated (db db' : Database) (draft : PolicyDraft) (policy : PolicyRow)
    (inline : Option InlineHoursProfile) (profileId : String) : Prop where
  calendars : db'.calendars = db.calendars
  observations : db'.observations = db.observations
  sourceId : policy.sourceCalendarId = draft.sourceCalendarId
  destinationId : policy.destinationCalendarId = draft.destinationCalendarId
  status : policy.status = .active
  document : policy.policyDocument = policyDraftForPersistence draft
    (if inline.isSome then some profileId else draft.hoursProfileId)
  hours : policy.hoursProfileId =
    (if inline.isSome then some profileId else draft.hoursProfileId).map storedUuid
  loaded : ∀ id, loadHoursProfile db' (some id) =
    if inline.isSome ∧ id = profileId then
      inline.map fun p => ⟨profileId, 1, p.timezone, p.ambiguous, p.nonexistent, p.weekly, p.exceptions⟩
    else loadHoursProfile db (some id)

theorem loadHoursProfile_insert {ids : NewIds db} {inline : Option InlineHoursProfile} (id : String) :
    loadHoursProfile
        { db with hoursProfiles :=
            db.hoursProfiles ++ (inline.map (·.row ids.hoursProfileId ids.stored)).toList } (some id) =
      if inline.isSome ∧ id = ids.hoursProfileId then
        inline.map fun p =>
          ⟨ids.hoursProfileId, 1, p.timezone, p.ambiguous, p.nonexistent, p.weekly, p.exceptions⟩
      else loadHoursProfile db (some id) := by
  cases inline with
  | none => simp [loadHoursProfile]
  | some p =>
    simp only [loadHoursProfile, Option.bind_some, Option.map_some, Option.toList_some,
      List.find?_append, Option.isSome_some, true_and]
    by_cases hid : id = ids.hoursProfileId
    · subst hid
      have hnone : db.hoursProfiles.find? (·.id = ids.hoursProfileId) = none := by
        rw [List.find?_eq_none]
        intro row hrow
        simpa using ids.fresh row hrow
      rw [if_pos rfl, hnone]
      simp [InlineHoursProfile.row, HoursProfileRow.profile]
    · rw [if_neg hid]
      simp [InlineHoursProfile.row, Ne.symm hid]

theorem activate_ok {stored : Preview} {ids : NewIds db} {policy : PolicyRow}
    {inline : Option InlineHoursProfile} (hdraft : stored.policyDocument = draft)
    (hinline : validateInline rt draft.hoursProfile = .ok inline)
    (h : activate rt db stored now ids = .ok (policy, db')) :
    Activated db db' draft policy inline ids.hoursProfileId := by
  unfold activate at h
  rw [hdraft] at h
  split at h
  · cases h
  obtain ⟨⟨source, destination⟩, -, h⟩ := bind_eq_ok.1 h
  obtain ⟨_, -, h⟩ := bind_eq_ok.1 h
  obtain ⟨_, -, h⟩ := bind_eq_ok.1 h
  split at h
  · cases h
  rw [hinline] at h
  cases h
  exact ⟨rfl, rfl, rfl, rfl, rfl, rfl, rfl, loadHoursProfile_insert⟩

end Steps

/-! ## The two evaluation inputs -/

section Inputs

/-- The evaluation input of the first pass for an observation. -/
def passInput (rt : Runtime) (db : Database) (policy : PolicyRow) (destination : CalendarRow)
    (now : Instant) (projectionId : String) (o : StoredObservation) : PolicyEvaluationInput :=
  evaluationInput (passSetup rt policy projectionId) (passContext db policy destination now)
    o.observation none

/-- The saved profile is named as its row is. -/
def SavedIdStored (draft : PolicyDraft) : Prop := ∀ id ∈ draft.hoursProfileId, storedUuid id = id

/-- The destination's account is invited to an event, and only the pass finds that. -/
def InvitationOverlooked (rt : Runtime) (destination : CalendarRow) (o : StoredObservation) : Prop :=
  o.observation.normalizedEvent.destinationIdentityInvited = false ∧
    (markDestinationIdentityInvitation rt.evaluator o.observation.normalizedEvent
      destination.accountLabel).destinationIdentityInvited = true

variable {rt : Runtime} {db db' : Database} {draft : PolicyDraft} {now : Instant}
  {source destination : CalendarRow} {hoursProfile : Option HoursProfile}
  {inline : Option InlineHoursProfile} {profileId : String} {policy : PolicyRow}
  {projectionId : String} {o : StoredObservation}

theorem hoursMode_persisted (hchecked : Checked rt db draft source destination hoursProfile inline)
    (profileId : String) :
    hoursMode (policyDraftForPersistence draft
      (if inline.isSome then some profileId else draft.hoursProfileId)) = hoursMode draft := by
  have hinline := validateInline_isSome hchecked.inline_eq
  unfold hoursMode policyDraftForPersistence
  cases draft.hours with
  | some hours => rfl
  | none =>
    dsimp only
    cases hi : inline.isSome with
    | true => simp [← hinline, hi]
    | false => simp [← hinline, hi]

/-- The pass loads the profile of the preview under the name of its row. -/
theorem loaded_profile (hchecked : Checked rt db draft source destination hoursProfile inline)
    (hactivated : Activated db db' draft policy inline profileId)
    (hid : storedUuid profileId = profileId) :
    (loadHoursProfile db' policy.hoursProfileId).map unnamed = hoursProfile.map unnamed ∧
      ∀ profile, loadHoursProfile db' policy.hoursProfileId = some profile →
        ((if inline.isSome then some profileId else draft.hoursProfileId) = some profile.profileRef ↔
          SavedIdStored draft) := by
  have hprofile := hchecked.profile
  unfold previewHoursProfile at hprofile
  rw [hactivated.hours]
  cases inline with
  | some p =>
    -- an inline profile is inserted under a new ID, which the column stores as it is
    have hnone : draft.hoursProfileId = none := by
      have hone := hchecked.one
      simpa using hone
    simp only [Option.isSome_some, if_true, Option.map_some, hid]
    rw [hactivated.loaded]
    cases hprofile
    simp [unnamed, SavedIdStored, hnone]
  | none =>
    cases hsaved : draft.hoursProfileId with
    | none =>
      rw [hsaved] at hprofile
      cases hprofile
      simp [loadHoursProfile]
    | some id =>
      rw [hsaved] at hprofile
      dsimp only at hprofile
      split at hprofile
      · cases hprofile
      · rename_i row hrow
        cases hprofile
        have hloaded : loadHoursProfile db' (some (storedUuid id)) = some row.profile := by
          rw [hactivated.loaded]
          simp [loadHoursProfile, hrow]
        have hrowid : row.id = storedUuid id := by simpa using List.find?_some hrow
        simp only [Option.isSome_none, Bool.false_eq_true, if_false, Option.map_some, hloaded,
          true_and]
        intro profile hp
        cases hp
        simp only [HoursProfileRow.profile, SavedIdStored, hsaved, Option.mem_some, forall_eq',
          hrowid, Option.some.injEq]
        exact eq_comm

theorem hoursReason_preview (hchecked : Checked rt db draft source destination hoursProfile inline) :
    hoursReason (previewInput draft hoursProfile destination now o) = none := by
  unfold hoursReason previewInput compilePolicyDraft
  dsimp only
  by_cases hmode : hoursMode draft = .allTimes
  · simp [hmode]
  · obtain ⟨profile, rfl⟩ := Option.isSome_iff_exists.1 (hchecked.needed hmode)
    simp [hmode]

theorem hoursReason_pass (hchecked : Checked rt db draft source destination hoursProfile inline)
    (hactivated : Activated db db' draft policy inline profileId)
    (hid : storedUuid profileId = profileId) :
    hoursReason (passInput rt db' policy destination now projectionId o) = none ↔
      SavedIdStored draft := by
  have hhours : (passInput rt db' policy destination now projectionId o).policy.hours =
      ⟨hoursMode draft, if hoursMode draft ≠ .allTimes then
        (if inline.isSome then some profileId else draft.hoursProfileId) else none⟩ := by
    have hmode := hoursMode_persisted hchecked profileId
    show PolicyHours.mk (hoursMode policy.policyDocument)
      (if hoursMode policy.policyDocument ≠ .allTimes then
        (none <|> policy.policyDocument.hours.bind (·.profileRef) <|>
          policy.policyDocument.hoursProfileId) else none) = _
    have hpersisted : ∀ id, (policyDraftForPersistence draft id).hours =
        some ⟨hoursMode (policyDraftForPersistence draft id),
          if hoursMode (policyDraftForPersistence draft id) ≠ .allTimes then id else none⟩ :=
      fun _ => rfl
    have hsaved : ∀ id, (policyDraftForPersistence draft id).hoursProfileId = id := fun _ => rfl
    rw [hactivated.document, hpersisted, hsaved, hmode]
    by_cases hall : hoursMode draft = .allTimes
    · simp [hall]
    · simp [hall]
  have hprofile : (passInput rt db' policy destination now projectionId o).hoursProfile =
      loadHoursProfile db' policy.hoursProfileId := rfl
  unfold hoursReason
  rw [hhours, hprofile]
  obtain ⟨hunnamed, hname⟩ := loaded_profile hchecked hactivated hid
  by_cases hmode : hoursMode draft = .allTimes
  · simp [hmode, SavedIdStored, (hchecked.unused hmode).1]
  · obtain ⟨profile, hp⟩ := Option.isSome_iff_exists.1 (hchecked.needed hmode)
    rw [hp, Option.map_some] at hunnamed
    cases hloaded : loadHoursProfile db' policy.hoursProfileId with
    | none =>
      rw [hloaded] at hunnamed
      cases hunnamed
    | some loaded =>
      rw [← hname loaded hloaded]
      simp [hmode]

theorem tombstone_of_mem (ho : o ∈ previewObservations db draft) :
    o.observation.tombstone = false ∧ o.managedCopy = false ∧
      o ∈ db.observationsOf draft.sourceCalendarId := by
  simpa [previewObservations, and_comm, and_assoc] using ho

theorem passInput_source (htombstone : o.observation.tombstone = false) :
    (passInput rt db' policy destination now projectionId o).source =
      markDestinationIdentityInvitation rt.evaluator o.observation.normalizedEvent
        destination.accountLabel := by
  simp [passInput, evaluationInput, observationForEvaluation, htombstone, passSetup, passContext]

theorem sameSelection (hchecked : Checked rt db draft source destination hoursProfile inline)
    (hactivated : Activated db db' draft policy inline profileId)
    (hid : storedUuid profileId = profileId) (htombstone : o.observation.tombstone = false) :
    SameSelection (previewInput draft hoursProfile destination now o)
      (passInput rt db' policy destination now projectionId o) where
  source := by
    rw [passInput_source htombstone]
    rfl
  selection := by
    show draft.selection = policy.policyDocument.selection
    rw [hactivated.document]
    rfl
  preset := by
    show draft.privacy.preset = policy.policyDocument.privacy.preset
    rw [hactivated.document]
    rfl
  mode := by
    show hoursMode draft = hoursMode policy.policyDocument
    rw [hactivated.document, hoursMode_persisted hchecked]
  horizon := by
    show InstantInterval.mk _ _ = InstantInterval.mk (now - (policy.policyDocument.horizon.getD ⟨30, 365⟩).pastDays * dayMilliseconds)
      (now + (policy.policyDocument.horizon.getD ⟨30, 365⟩).futureDays * dayMilliseconds)
    rw [hactivated.document]
    rfl
  profile := (loaded_profile hchecked hactivated hid).1.symm

theorem validate_withoutHours
    (hchecked : Checked rt db draft source destination hoursProfile inline)
    (hactivated : Activated db db' draft policy inline profileId)
    (htombstone : o.observation.tombstone = false) :
    validate rt.evaluator (withoutHours (passInput rt db' policy destination now projectionId o)) =
      validate rt.evaluator (withoutHours (previewInput draft hoursProfile destination now o)) := by
  have hwritable : destination.writable = true := by
    have husable := (requirePolicyCalendars_ok hchecked.calendars).2.2
    simp only [calendarsUsable, Bool.and_eq_true] at husable
    exact husable.1.2
  apply validate_withoutHours_congr
  · show policy.policyDocument.sourceCalendarId = draft.sourceCalendarId
    rw [hactivated.document]
    rfl
  · show policy.policyDocument.destinationCalendarId = draft.destinationCalendarId
    rw [hactivated.document]
    rfl
  · show policy.policyDocument.privacy = draft.privacy
    rw [hactivated.document]
    rfl
  · show policy.policyDocument.color = draft.color
    rw [hactivated.document]
    rfl
  · show DestinationCapabilities.mk true _ _ _ = destinationCapabilities destination.capabilities
      destination.writable
    rw [← hwritable]
    rfl
  · rw [passInput_source htombstone]
    rfl
  · rw [passInput_source htombstone]
    rfl

end Inputs

/-! ## Agreement -/

section Agreement

variable {rt : Runtime} {db db' : Database} {draft : PolicyDraft} {now : Instant}
  {source destination : CalendarRow} {hoursProfile : Option HoursProfile}
  {inline : Option InlineHoursProfile} {profileId : String} {policy : PolicyRow}
  {projectionId : String} {o : StoredObservation}

/-- A preview that evaluates the observation to a valid result takes it as the pass will: the saved
profile is named as its row is, and no event that it would copy has an invitation that only the pass
finds, unless the policy copies such events. -/
def Foreseen (rt : Runtime) (draft : PolicyDraft) (hoursProfile : Option HoursProfile)
    (destination : CalendarRow) (now : Instant) (o : StoredObservation) : Prop :=
  validate rt.evaluator (previewInput draft hoursProfile destination now o) = none →
    SavedIdStored draft ∧
      ¬(draft.selection.skipWhenDestinationIdentityInvited = true ∧
        InvitationOverlooked rt destination o ∧
        selects rt.evaluator (previewInput draft hoursProfile destination now o) = true)

/-- The pass selects what the preview selects, less the events with an invitation that only it
finds. -/
theorem selects_pass (hchecked : Checked rt db draft source destination hoursProfile inline)
    (hactivated : Activated db db' draft policy inline profileId)
    (hid : storedUuid profileId = profileId) (htombstone : o.observation.tombstone = false) :
    selects rt.evaluator (passInput rt db' policy destination now projectionId o) = true ↔
      selects rt.evaluator (previewInput draft hoursProfile destination now o) = true ∧
        ¬(draft.selection.skipWhenDestinationIdentityInvited = true ∧
          InvitationOverlooked rt destination o) := by
  have hsame : SameSelection (previewInput draft hoursProfile destination now o)
      (passInput rt db' policy destination now projectionId o) :=
    sameSelection hchecked hactivated hid htombstone
  by_cases hover : draft.selection.skipWhenDestinationIdentityInvited = true ∧
      InvitationOverlooked rt destination o
  · have hnot : selects rt.evaluator (passInput rt db' policy destination now projectionId o) = false := by
      apply selects_invited
      · rw [← hsame.selection]
        exact hover.1
      · rw [passInput_source htombstone]
        exact hover.2.2
    rw [hnot]
    simp [hover]
  · have heq : selects rt.evaluator (previewInput draft hoursProfile destination now o) =
        selects rt.evaluator (passInput rt db' policy destination now projectionId o) := by
      apply selects_eq hsame
      intro hskip
      rw [passInput_source htombstone]
      have hnot : ¬InvitationOverlooked rt destination o := fun h => hover ⟨hskip, h⟩
      show o.observation.normalizedEvent.destinationIdentityInvited = _
      cases hflag : o.observation.normalizedEvent.destinationIdentityInvited with
      | true => simp [markDestinationIdentityInvitation, hflag]
      | false =>
        rw [InvitationOverlooked, hflag] at hnot
        simpa using hnot
    rw [← heq]
    simp [hover]

theorem decision_eq_iff (hchecked : Checked rt db draft source destination hoursProfile inline)
    (hactivated : Activated db db' draft policy inline profileId)
    (hid : storedUuid profileId = profileId) (htombstone : o.observation.tombstone = false) :
    decision (evaluatePolicy rt.evaluator (previewInput draft hoursProfile destination now o)) =
        decision (evaluatePolicy rt.evaluator
          (passInput rt db' policy destination now projectionId o)) ↔
      Foreseen rt draft hoursProfile destination now o := by
  have hpass := validate_eq rt.evaluator (passInput rt db' policy destination now projectionId o)
  have hpreview := validate_eq rt.evaluator (previewInput draft hoursProfile destination now o)
  rw [validate_withoutHours hchecked hactivated htombstone] at hpass
  rw [hoursReason_preview hchecked] at hpreview
  have hreason : hoursReason (passInput rt db' policy destination now projectionId o) = none ↔
      SavedIdStored draft := hoursReason_pass hchecked hactivated hid
  have hselects : selects rt.evaluator (passInput rt db' policy destination now projectionId o) =
      true ↔ selects rt.evaluator (previewInput draft hoursProfile destination now o) = true ∧
        ¬(draft.selection.skipWhenDestinationIdentityInvited = true ∧
          InvitationOverlooked rt destination o) := selects_pass hchecked hactivated hid htombstone
  rw [decision_evaluatePolicy rfl rfl, decision_evaluatePolicy rfl rfl, hpass]
  unfold Foreseen
  rw [hpreview]
  cases validate rt.evaluator
      (withoutHours (previewInput draft hoursProfile destination now o)) with
  | some code => simp
  | none =>
    by_cases hsaved : SavedIdStored draft
    · rw [hreason.2 hsaved]
      cases hp : selects rt.evaluator (previewInput draft hoursProfile destination now o) with
      | false =>
        rw [hp] at hselects
        simpa [hsaved] using hselects
      | true =>
        rw [hp] at hselects
        simpa [hsaved] using hselects
    · have hinvalid : (hoursReason (passInput rt db' policy destination now projectionId o)).isSome := by
        rw [Option.isSome_iff_ne_none]
        exact fun h => hsaved (hreason.1 h)
      obtain ⟨code, hcode⟩ := Option.isSome_iff_exists.1 hinvalid
      rw [hcode]
      simp only [hsaved, false_and]
      cases selects rt.evaluator (previewInput draft hoursProfile destination now o) <;> simp

/-! ### Creates -/

/-- The evaluation asks for a copy to be created. -/
def creates (r : PolicyEvaluationResult) : Bool := decision r = (.included, .create)

theorem countKey_create (r : PolicyEvaluationResult) :
    (decide (resultCountKey r = .create)) = creates r := by
  obtain ⟨selection, operation, _, _, _, _, _, _⟩ := r
  cases selection <;> cases operation <;> rfl

/-- Tombstones and managed copies, which a preview leaves out, have no create. -/
theorem creates_pass_mem
    (h : creates (evaluatePolicy rt.evaluator
      (passInput rt db' policy destination now projectionId o)) = true) :
    o.observation.tombstone = false ∧ o.managedCopy = false := by
  have hselects : selects rt.evaluator
      (passInput rt db' policy destination now projectionId o) = true := by
    rw [creates, decision_evaluatePolicy rfl rfl] at h
    revert h
    split
    · exact fun h => nomatch h
    · split
      · intro _
        assumption
      · exact fun h => nomatch h
  have htombstone : o.observation.tombstone = false := by
    by_contra htomb
    rw [Bool.not_eq_false] at htomb
    have hlifecycle : (passInput rt db' policy destination now projectionId o).source.lifecycle ≠
        .confirmed := by
      show (observationForEvaluation o.observation.normalizedEvent
        o.observation.tombstone).lifecycle ≠ .confirmed
      have heq := o.observation.tombstone_eq
      rw [htomb] at heq
      have hne := of_decide_eq_true heq.symm
      simp [observationForEvaluation, hne]
    unfold selects selectSource at hselects
    cases hl : (passInput rt db' policy destination now projectionId o).source.lifecycle with
    | confirmed => exact hlifecycle hl
    | deleted => rw [hl] at hselects; cases hselects
    | cancelled => rw [hl] at hselects; cases hselects
  refine ⟨htombstone, ?_⟩
  by_contra hmanaged
  rw [Bool.not_eq_false, o.managed_eq, decide_eq_true_eq] at hmanaged
  have horigin : (passInput rt db' policy destination now projectionId o).source.origin =
      .planipusManaged := by
    rw [passInput_source htombstone]
    exact hmanaged
  have hlifecycle : (passInput rt db' policy destination now projectionId o).source.lifecycle =
      .confirmed := by
    rw [passInput_source htombstone]
    show o.observation.normalizedEvent.lifecycle = .confirmed
    have heq := o.observation.tombstone_eq
    rw [htombstone] at heq
    simpa using heq
  unfold selects selectSource at hselects
  rw [hlifecycle] at hselects
  dsimp only at hselects
  rw [if_pos horigin] at hselects
  cases hselects

/-- The effects of the first pass for an observation: one create, or none. -/
theorem firstEffects_countP {setup : Setup} {ctx : PassContext} {row : ObservationRow}
    {ins : Insertion} {s : State} (hprojection : s.projection = none) (heffects : s.effects = []) :
    (reconcileObservation setup ctx row ins s).effects.countP (·.operation = .create) =
      if creates (evaluate setup ctx row none) then 1 else 0 := by
  have hcases : ((evaluate setup ctx row none).operation = .create ∧
        creates (evaluate setup ctx row none) = true) ∨
      ((evaluate setup ctx row none).operation = .none ∧
        creates (evaluate setup ctx row none) = false) := by
    have hdecision : decision (evaluate setup ctx row none) = _ :=
      decision_evaluatePolicy setup.active rfl
    unfold creates
    have hoperation : (evaluate setup ctx row none).operation =
        (decision (evaluate setup ctx row none)).2 := rfl
    rw [hoperation, hdecision]
    split
    · exact Or.inr ⟨rfl, rfl⟩
    · split
      · exact Or.inl ⟨rfl, rfl⟩
      · exact Or.inr ⟨rfl, rfl⟩
  unfold reconcileObservation
  rw [hprojection]
  dsimp only
  rcases hcases with ⟨hop, hcreates⟩ | ⟨hop, hcreates⟩
  · rw [hop, hcreates]
    simp [Operation.ofEvaluation, State.insertEffect, heffects, intentFor]
  · rw [hop, hcreates]
    simp [Operation.ofEvaluation, heffects]

theorem countP_flatMap_of {α β : Type} {f : α → List β} {p : β → Bool} {q : α → Bool}
    (h : ∀ a, (f a).countP p = if q a then 1 else 0) (as : List α) :
    (as.flatMap f).countP p = as.countP q := by
  induction as with
  | nil => rfl
  | cons a as ih => rw [List.flatMap_cons, List.countP_append, List.countP_cons, h, ih, Nat.add_comm]

/-- What holds only of rows that a preview evaluates is counted among these. -/
theorem countP_previewObservations {q : StoredObservation → Bool}
    (h : ∀ o, q o = true → o.observation.tombstone = false ∧ o.managedCopy = false) :
    (db.observationsOf draft.sourceCalendarId).countP q =
      (previewObservations db draft).countP q := by
  rw [previewObservations, (List.perm_insertionSort _ _).countP_eq, List.countP_filter]
  apply List.countP_congr
  intro o _
  constructor
  · intro hq
    simp [hq, h o hq]
  · intro hq
    exact (Bool.and_eq_true_iff.1 hq).1

/-- The first pass goes through the rows of the source calendar. -/
theorem firstPass_eq (hchecked : Checked rt db draft source destination hoursProfile inline)
    (hactivated : Activated db db' draft policy inline profileId)
    (newRows : StoredObservation → NewRows) (calendar : Calendar) :
    firstPass rt db' policy now newRows calendar =
      (db.observationsOf draft.sourceCalendarId).map fun o =>
        ⟨o, evaluatePolicy rt.evaluator
            (passInput rt db' policy destination now (newRows o).projectionId o),
          (reconcileObservation (passSetup rt policy (newRows o).projectionId)
            (passContext db' policy destination now) o.observation (newRows o).insertion
            (newState source destination o.observation calendar)).effects⟩ := by
  obtain ⟨hsource, hdestination, husable⟩ := requirePolicyCalendars_ok hchecked.calendars
  unfold firstPass
  rw [hactivated.sourceId, hactivated.destinationId, hactivated.calendars, hsource, hdestination]
  dsimp only
  rw [hactivated.status, husable, if_pos (by rfl)]
  unfold Database.observationsOf
  rw [hactivated.observations]
  rfl

/-- **A preview agrees with the first pass exactly on the observations that it foresees**: it takes
every observation that it counts as the pass does, and counts as many creates as the pass queues. -/
theorem preview_agrees_iff {stored : Preview} {activatedAt : Instant} {ids : NewIds db}
    (newRows : StoredObservation → NewRows) (calendar : Calendar)
    (hchecks : previewChecks rt db draft = .ok (source, destination, hoursProfile))
    (hpreview : preview rt db draft now = .ok stored)
    (hactivate : activate rt db stored activatedAt ids = .ok (policy, db')) :
    ((∀ o ∈ previewObservations db draft,
        ∃ outcome ∈ firstPass rt db' policy now newRows calendar, outcome.observation = o ∧
          decision outcome.result =
            decision (previewResult rt draft hoursProfile destination now o)) ∧
      stored.counts .create =
        ((firstPass rt db' policy now newRows calendar).flatMap (·.effects)).countP
          (·.operation = .create)) ↔
      ∀ o ∈ previewObservations db draft, Foreseen rt draft hoursProfile destination now o := by
  obtain ⟨inline, hchecked⟩ := previewChecks_ok hchecks
  have hstored : stored.policyDocument = draft ∧
      stored.counts .create = (previewObservations db draft).countP fun o =>
        creates (previewResult rt draft hoursProfile destination now o) := by
    unfold preview at hpreview
    rw [hchecks] at hpreview
    cases hpreview
    refine ⟨rfl, ?_⟩
    dsimp only
    rw [List.countP_map]
    simp only [Function.comp_def, countKey_create]
  have hactivated := activate_ok hstored.1 hchecked.inline_eq hactivate
  have hdecision : ∀ o ∈ previewObservations db draft,
      decision (evaluatePolicy rt.evaluator
          (passInput rt db' policy destination now (newRows o).projectionId o)) =
        decision (previewResult rt draft hoursProfile destination now o) ↔
      Foreseen rt draft hoursProfile destination now o := by
    intro o ho
    rw [eq_comm]
    exact decision_eq_iff hchecked hactivated ids.stored (tombstone_of_mem ho).1
  rw [firstPass_eq hchecked hactivated, hstored.2]
  constructor
  · rintro ⟨hall, -⟩ o ho
    obtain ⟨outcome, hmem, hobs, heq⟩ := hall o ho
    obtain ⟨o', -, rfl⟩ := List.mem_map.1 hmem
    subst hobs
    exact (hdecision _ ho).1 heq
  · intro hforeseen
    refine ⟨?_, ?_⟩
    · intro o ho
      exact ⟨_, List.mem_map.2 ⟨o, (tombstone_of_mem ho).2.2, rfl⟩, rfl,
        (hdecision o ho).2 (hforeseen o ho)⟩
    · have hcounted : ∀ o, creates (evaluate (passSetup rt policy (newRows o).projectionId)
          (passContext db' policy destination now) o.observation none) = true →
            o.observation.tombstone = false ∧ o.managedCopy = false := by
        intro o hcreates
        exact creates_pass_mem hcreates
      rw [List.flatMap_map, countP_flatMap_of fun o => firstEffects_countP rfl rfl,
        countP_previewObservations hcounted]
      apply List.countP_congr
      intro o ho
      have heq := (hdecision o ho).2 (hforeseen o ho)
      show creates (previewResult rt draft hoursProfile destination now o) = true ↔
        creates (evaluatePolicy rt.evaluator
          (passInput rt db' policy destination now (newRows o).projectionId o)) = true
      unfold creates
      rw [heq]

/-! ### A bridge from work to home -/

def plainRuntime : Runtime where
  platform := plainPlatform
  zones := fun _ => none
  isUuid := fun text => text.length = 36
  isTimezone := fun _ => true
  isControlOrFormat := fun _ => false
  hash := fun _ => "sha256:"

def workId : String := "00000000-0000-7000-8000-00000000000a"
def homeId : String := "00000000-0000-7000-8000-00000000000b"

def plainCalendar (id remoteId accountLabel : String) (intendedRole : ConnectionRole) : CalendarRow where
  id
  connectionId := "connection of " ++ accountLabel
  remoteId
  readable := true
  writable := true
  capabilities := {}
  provider := .google
  intendedRole
  connectionStatus := .active
  accountLabel

def workCalendar : CalendarRow := plainCalendar workId "work" "me@work.example" .source
def homeCalendar : CalendarRow := plainCalendar homeId "home" "me@home.example" .destination

/-- A stored event of the work calendar. -/
def storedMeeting (attendees : List String) : StoredObservation where
  id := "00000000-0000-7000-8000-0000000000aa"
  calendarEndpointId := workId
  observedAt := 0
  observation := .ofEvent { plainEvent "meeting" 1 with attendees := some attendees }
  managedCopy := false
  managed_eq := rfl

def plainDatabase (attendees : List String) : Database where
  calendars := [workCalendar, homeCalendar]
  rules := []
  hoursProfiles := []
  cursors := [⟨workId, sha256Canonical ⟨.google, "work"⟩, 1, some "token", .ready⟩]
  observations := [storedMeeting attendees]

/-- Every timed event is copied, unless the home account is invited to it. -/
def workToHome : PolicyDraft where
  name := "work to home"
  sourceCalendarId := workId
  destinationCalendarId := homeId
  privacy := (plainPolicy ⟨.restore, .restore⟩).privacy
  selection :=
    { (plainPolicy ⟨.restore, .restore⟩).selection with skipWhenDestinationIdentityInvited := true }

def plainIds (attendees : List String) : NewIds (plainDatabase attendees) where
  policyId := "00000000-0000-7000-8000-0000000000cc"
  hoursProfileId := "00000000-0000-7000-8000-0000000000dd"
  stored := by decide +kernel
  fresh := fun _ h => nomatch h

def plainNewRows : StoredObservation → NewRows := fun _ => ⟨"copy-1", ⟨1, 0⟩⟩

theorem preview_agrees_meeting :
    ∃ stored policy db',
      preview plainRuntime (plainDatabase ["you@work.example"]) workToHome 0 = .ok stored ∧
        activate plainRuntime (plainDatabase ["you@work.example"]) stored 1
          (plainIds ["you@work.example"]) = .ok (policy, db') ∧
        stored.counts .create = 1 ∧
        ((firstPass plainRuntime db' policy 0 plainNewRows (emptyCalendar false)).flatMap
          (·.effects)).countP (·.operation = .create) = 1 := by
  have hsteps : ∃ stored policy db',
      preview plainRuntime (plainDatabase ["you@work.example"]) workToHome 0 = .ok stored ∧
        activate plainRuntime (plainDatabase ["you@work.example"]) stored 1
          (plainIds ["you@work.example"]) = .ok (policy, db') ∧ stored.counts .create = 1 :=
    ⟨_, _, _, rfl, rfl, by decide +kernel⟩
  obtain ⟨stored, policy, db', hpreview, hactivate, hcounts⟩ := hsteps
  have hchecks : previewChecks plainRuntime (plainDatabase ["you@work.example"]) workToHome =
      .ok (workCalendar, homeCalendar, none) := rfl
  have hobservations : previewObservations (plainDatabase ["you@work.example"]) workToHome =
      [storedMeeting ["you@work.example"]] := rfl
  have hagrees := (preview_agrees_iff plainNewRows (emptyCalendar false) hchecks hpreview
    hactivate).2 (by
      intro o ho _
      rw [hobservations, List.mem_singleton] at ho
      subst ho
      refine ⟨fun _ h => (nomatch h), ?_⟩
      rintro ⟨-, ⟨-, hinvited⟩, -⟩
      revert hinvited
      decide +kernel)
  exact ⟨stored, policy, db', hpreview, hactivate, hcounts, hagrees.2.symm.trans hcounts⟩

/-- The home account is invited, which the preview overlooks: it promises a create that the pass does
not queue. -/
theorem overlooked_invitation :
    ∃ stored policy db',
      preview plainRuntime (plainDatabase ["me@home.example"]) workToHome 0 = .ok stored ∧
        activate plainRuntime (plainDatabase ["me@home.example"]) stored 1
          (plainIds ["me@home.example"]) = .ok (policy, db') ∧
        stored.counts .create = 1 ∧
        ((firstPass plainRuntime db' policy 0 plainNewRows (emptyCalendar false)).flatMap
          (·.effects)).countP (·.operation = .create) = 0 := by
  refine ⟨_, _, _, rfl, rfl, by decide +kernel, by decide +kernel⟩

end Agreement

end Planipus.Policy

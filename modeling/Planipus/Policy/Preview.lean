import Planipus.CalendarSync.Hours
import Planipus.Policy.Calendars
import Planipus.Sync.Reconciliation

/-!
# Previewing and activating a policy

`PolicyService.preview` and `PolicyService.activate` of `server/src/policy/service.ts`, and the first
pass of `PolicyReconciler.reconcile` over the policy that the activation inserts. The preview builds
its evaluation inputs from the draft, the pass from the persisted draft and the stored rows; both call
the same evaluator.

IDs are texts. A `uuid` column stores the ID in lower case, which `storedUuid` is.
-/

namespace Planipus.Policy

open CalendarSync Sync Provider

/-! ## Drafts -/

structure InlineHoursProfile where
  name : String
  timezone : String
  ambiguous : AmbiguousResolution
  nonexistent : NonexistentResolution
  weekly : List WeeklyInterval
  exceptions : List HoursException
deriving DecidableEq

/-- `PolicyDraft`; an ID that is `null` is absent. The `destination` has a color or has none. -/
structure PolicyDraft where
  name : String
  sourceCalendarId : String
  destinationCalendarId : String
  hoursProfileId : Option String := none
  hours : Option PolicyHours := none
  hoursProfile : Option InlineHoursProfile := none
  privacy : PrivacyPolicy
  selection : SelectionPolicy
  color : Option String := none
  destinationEdits : Option DestinationEditPolicy := none
  horizon : Option Horizon := none
deriving DecidableEq

/-- What the service calls outside of its own code. -/
structure Runtime where
  platform : Platform
  zones : String → Option Zone
  /-- `validate` of the package `uuid`. -/
  isUuid : String → Bool
  /-- `Intl.DateTimeFormat` accepts the time zone. -/
  isTimezone : String → Bool
  /-- `\p{Cc}` or `\p{Cf}`. -/
  isControlOrFormat : Char → Bool
  /-- The text of the hash of an inline profile. -/
  hash : InlineHoursProfile → String

/-- The evaluator, with profiles materialized in the runtime's time zones. -/
def Runtime.evaluator (rt : Runtime) : Platform := rt.platform.withZones rt.zones

/-- The text of an ID that was stored in a `uuid` column. -/
def storedUuid (text : String) : String := String.ofList (text.toList.map Char.toLower)

def defaultDestinationEditPolicy : DestinationEditPolicy := ⟨.restoreAndNotify, .restoreAndNotify⟩

/-- `draft.hours?.mode`, or what the presence of a profile stands for. -/
def hoursMode (draft : PolicyDraft) : HoursMode :=
  match draft.hours with
  | some hours => hours.mode
  | none =>
    if draft.hoursProfileId.isSome || draft.hoursProfile.isSome then .overlapsProfile else .allTimes

def compilePolicyDraft (draft : PolicyDraft) (policyRef : String) (revision : Nat)
    (state : PolicyState) (resolvedHoursProfileRef : Option String) : SyncPolicy :=
  let profileRef := resolvedHoursProfileRef <|> draft.hours.bind (·.profileRef) <|>
    draft.hoursProfileId
  { policyRef
    revision
    state
    sourceCalendarRef := draft.sourceCalendarId
    destinationCalendarRef := draft.destinationCalendarId
    hours :=
      { mode := hoursMode draft
        profileRef := if hoursMode draft ≠ .allTimes then profileRef else none }
    privacy := draft.privacy
    selection := draft.selection
    color := draft.color
    destinationEdits := draft.destinationEdits.getD defaultDestinationEditPolicy }

/-! ## Inline hours profiles -/

def isLocalInterval (value : LocalInterval) : Bool :=
  (value.endDayOffset = 0 || value.endDayOffset = 1) && (localTime? value.start).isSome &&
    (localTime? value.finish).isSome &&
    (value.endDayOffset = 1 || value.start < value.finish)

def isWeeklyInterval (value : WeeklyInterval) : Bool :=
  1 ≤ value.weekday && value.weekday ≤ 7 && isLocalInterval value.toLocalInterval

def isHoursException (value : HoursException) : Bool :=
  (localDate? value.date).isSome && value.intervals.length ≤ 32 &&
    value.intervals.all isLocalInterval

def invalidHoursProfile (message : String) : PolicyInputError := ⟨.invalidHoursProfile, message⟩

/-- The checks of shapes are the type's. -/
def validateInlineHoursProfile (rt : Runtime) (value : InlineHoursProfile) :
    Except PolicyInputError InlineHoursProfile :=
  let name := rt.platform.trim (rt.platform.normalizeNFC value.name)
  let timezone := rt.platform.trim value.timezone
  if name.length < 1 ∨ 120 < name.length ∨ name.toList.any rt.isControlOrFormat then
    .error (invalidHoursProfile "hours profile name is invalid")
  else if !rt.isTimezone timezone then
    .error (invalidHoursProfile "hours profile timezone is invalid")
  else if 128 < value.weekly.length ∨ !value.weekly.all isWeeklyInterval then
    .error (invalidHoursProfile "hours profile weekly intervals are invalid")
  else if 366 < value.exceptions.length ∨ !value.exceptions.all isHoursException then
    .error (invalidHoursProfile "hours profile exceptions are invalid")
  else if ¬(value.exceptions.map (·.date)).Nodup then
    .error (invalidHoursProfile "hours profile contains duplicate exception dates")
  else .ok { value with name, timezone }

/-- `validateInlineHoursProfile` of a profile that is there. -/
def validateInline (rt : Runtime) (value : Option InlineHoursProfile) :
    Except PolicyInputError (Option InlineHoursProfile) :=
  match value with
  | none => .ok none
  | some profile => (validateInlineHoursProfile rt profile).map some

/-! ## Rows -/

/-- A row of `hours_profiles`. Rows are inserted by activations and never changed. -/
structure HoursProfileRow where
  id : String
  version : Nat
  timezone : String
  ambiguous : AmbiguousResolution
  nonexistent : NonexistentResolution
  weekly : List WeeklyInterval
  exceptions : List HoursException
  stored : storedUuid id = id

def HoursProfileRow.profile (row : HoursProfileRow) : HoursProfile :=
  { profileRef := row.id
    revision := row.version
    timezone := row.timezone
    ambiguous := row.ambiguous
    nonexistent := row.nonexistent
    weekly := row.weekly
    exceptions := row.exceptions }

/-- A row of `source_observations`. The column `managed_copy` repeats the origin. -/
structure StoredObservation where
  id : String
  calendarEndpointId : String
  observedAt : Instant
  observation : ObservationRow
  managedCopy : Bool
  managed_eq : managedCopy = decide (observation.normalizedEvent.origin = .planipusManaged)

inductive CursorState | fullRequired | syncing | ready | actionRequired
deriving DecidableEq

/-- What a query fingerprint hashes and can differ in. -/
structure SyncQuery where
  provider : CalendarProvider
  remoteCalendar : String
deriving DecidableEq

def calendarSyncQueryFingerprint (calendar : CalendarRow) : Digest SyncQuery :=
  sha256Canonical ⟨calendar.provider, calendar.remoteId⟩

structure CursorRow where
  calendarEndpointId : String
  queryFingerprint : Digest SyncQuery
  generation : Nat
  syncToken : Option String
  state : CursorState
deriving DecidableEq

/-- The tables that a preview, an activation and a pass read. -/
structure Database where
  calendars : List CalendarRow
  rules : List RuleRow
  hoursProfiles : List HoursProfileRow
  cursors : List CursorRow
  observations : List StoredObservation

/-- The columns that a preview hashes, of the cursors of the current query. -/
def Database.cursorsOf (db : Database) (source : CalendarRow) : List CursorRow :=
  db.cursors.filter fun c => c.calendarEndpointId = source.id &&
    c.queryFingerprint = calendarSyncQueryFingerprint source

def requireCompletedCursor (cursor : Option CursorRow) (code : PolicyErrorCode) :
    Except PolicyInputError Unit :=
  match cursor with
  | some ⟨_, _, _, some token, .ready⟩ =>
    if token = "" then
      .error ⟨code, "source calendar has not completed its current synchronization"⟩
    else .ok ()
  | _ => .error ⟨code, "source calendar has not completed its current synchronization"⟩

def Database.observationsOf (db : Database) (calendarId : String) : List StoredObservation :=
  db.observations.filter (·.calendarEndpointId = calendarId)

def previewObservationLimit : Nat := 5000

/-! ## Preview -/

/-- The hours profile that a preview evaluates with. -/
def previewHoursProfile (rt : Runtime) (db : Database) (draft : PolicyDraft)
    (inline : Option InlineHoursProfile) : Except PolicyInputError (Option HoursProfile) :=
  match inline with
  | some profile =>
    .ok (some
      { profileRef := "inline:" ++ rt.hash profile
        revision := 1
        timezone := profile.timezone
        ambiguous := profile.ambiguous
        nonexistent := profile.nonexistent
        weekly := profile.weekly
        exceptions := profile.exceptions })
  | none =>
    match draft.hoursProfileId with
    | none => .ok none
    | some id =>
      match db.hoursProfiles.find? (·.id = storedUuid id) with
      | none => .error ⟨.hoursProfileNotFound, "hours profile was not found"⟩
      | some row => .ok (some row.profile)

/-- The evaluation input of a preview for one observation. -/
def previewInput (draft : PolicyDraft) (hoursProfile : Option HoursProfile) (destination : CalendarRow)
    (now : Instant) (o : StoredObservation) : PolicyEvaluationInput :=
  let horizon := draft.horizon.getD ⟨30, 365⟩
  { now
    horizon := ⟨now - horizon.pastDays * dayMilliseconds, now + horizon.futureDays * dayMilliseconds⟩
    candidateProjectionRef := "preview:" ++ o.id
    policy := compilePolicyDraft draft "preview" 1 .active (hoursProfile.map (·.profileRef))
    hoursProfile
    source := o.observation.normalizedEvent
    projection := { ownership := .none }
    destinationCapabilities := destinationCapabilities destination.capabilities destination.writable }

/-- The rows that a preview evaluates, the last observed first. -/
def previewObservations (db : Database) (draft : PolicyDraft) : List StoredObservation :=
  ((db.observationsOf draft.sourceCalendarId).filter fun o =>
    o.observation.tombstone = false && o.managedCopy = false).insertionSort
      fun o o' => o'.observedAt ≤ o.observedAt

inductive CountKey | create | update | delete | unchanged | excluded
deriving DecidableEq

def resultCountKey (r : PolicyEvaluationResult) : CountKey :=
  match r.selection, r.operation with
  | .included, .none => .unchanged
  | .included, .create => .create
  | .included, .update => .update
  | .included, .delete => .delete
  | _, _ => .excluded

/-- One of the observations that a preview shows, without its details. -/
structure PreviewExample where
  observationHash : Digest SourceObservation
  decision : CountKey
  reasonCodes : List ReasonCode
  disclosure : Option DisclosureManifest
deriving DecidableEq

/-- What a preview stores and returns. -/
structure Preview where
  policyDocument : PolicyDraft
  sourceCursorFingerprint : Digest (List CursorRow)
  counts : CountKey → Nat
  excludedByReason : ReasonCode → Nat
  disclosure : Option DisclosureManifest
  examples : List PreviewExample
  expiresAt : Instant
  consumed : Bool

/-- Everything that a preview checks before it evaluates: the calendars and the hours profile. -/
def previewChecks (rt : Runtime) (db : Database) (draft : PolicyDraft) :
    Except PolicyInputError (CalendarRow × CalendarRow × Option HoursProfile) := do
  if !(rt.isUuid draft.sourceCalendarId && rt.isUuid draft.destinationCalendarId &&
      draft.hoursProfileId.all rt.isUuid) then
    .error ⟨.invalidPolicy, "policy identifiers are invalid"⟩
  else if draft.sourceCalendarId = draft.destinationCalendarId then
    .error ⟨.sameCalendar, "source and destination calendars must differ"⟩
  else if draft.hoursProfileId.isSome && draft.hoursProfile.isSome then
    .error (invalidHoursProfile "choose either a saved or inline hours profile")
  else
    let inline ← validateInline rt draft.hoursProfile
    if hoursMode draft ≠ .allTimes ∧ draft.hoursProfileId = none ∧ inline = none then
      .error (invalidHoursProfile "hours mode requires an hours profile")
    else if hoursMode draft = .allTimes ∧ (draft.hoursProfileId.isSome ∨ inline.isSome) then
      .error (invalidHoursProfile "all-times mode cannot use an hours profile")
    else
      let (source, destination) ←
        requirePolicyCalendars db.calendars draft.sourceCalendarId draft.destinationCalendarId
      requireNoConflictResponseRule db.rules
        [providerCalendarIdentity source, providerCalendarIdentity destination]
      requireCompletedCursor (db.cursorsOf source).head? .sourceSyncIncomplete
      if previewObservationLimit < (previewObservations db draft).length then
        .error ⟨.previewIncomplete,
          "policy preview exceeds the 5000-observation safety limit"⟩
      else
        let hoursProfile ← previewHoursProfile rt db draft inline
        return (source, destination, hoursProfile)

/-- What a preview evaluates an observation to. -/
def previewResult (rt : Runtime) (draft : PolicyDraft) (hoursProfile : Option HoursProfile)
    (destination : CalendarRow) (now : Instant) (o : StoredObservation) : PolicyEvaluationResult :=
  evaluatePolicy rt.evaluator (previewInput draft hoursProfile destination now o)

/-- `preview` at a clock value. The database does not change while it is calculated. -/
def preview (rt : Runtime) (db : Database) (draft : PolicyDraft) (now : Instant) :
    Except PolicyInputError Preview := do
  let (source, destination, hoursProfile) ← previewChecks rt db draft
  let observations := previewObservations db draft
  let results := observations.map (previewResult rt draft hoursProfile destination now)
  return {
    policyDocument := draft
    sourceCursorFingerprint := sha256Canonical (db.cursorsOf source)
    counts := fun key => results.countP (resultCountKey · = key)
    excludedByReason := fun reason =>
      ((results.filter (resultCountKey · = .excluded)).flatMap (·.reasonCodes)).count reason
    disclosure := results.findSome? (·.disclosureManifest)
    examples := (observations.zip results).take 3 |>.map fun (o, r) =>
      ⟨o.observation.observationHash, resultCountKey r, r.reasonCodes, r.disclosureManifest⟩
    expiresAt := now + 15 * 60000
    consumed := false }

/-! ## Activation -/

/-- A row of `sync_policies`. -/
structure PolicyRow where
  id : String
  sourceCalendarId : String
  destinationCalendarId : String
  sourceProviderIdentity : String
  destinationProviderIdentity : String
  hoursProfileId : Option String
  status : PolicyStatus
  revision : Nat
  policyDocument : PolicyDraft

/-- The IDs that `newId` makes in an activation. -/
structure NewIds (db : Database) where
  policyId : String
  hoursProfileId : String
  stored : storedUuid hoursProfileId = hoursProfileId
  fresh : ∀ row ∈ db.hoursProfiles, row.id ≠ hoursProfileId

def policyDraftForPersistence (draft : PolicyDraft) (hoursProfileId : Option String) : PolicyDraft :=
  let mode := match draft.hours with
    | some hours => hours.mode
    | none => if hoursProfileId.isSome then .overlapsProfile else .allTimes
  { draft with
    hoursProfile := none
    hoursProfileId
    hours := some ⟨mode, if mode ≠ .allTimes then hoursProfileId else none⟩
    destinationEdits := some (draft.destinationEdits.getD defaultDestinationEditPolicy) }

/-- The row of an inline profile. -/
def InlineHoursProfile.row (profile : InlineHoursProfile) (id : String) (stored : storedUuid id = id) :
    HoursProfileRow :=
  { id
    version := 1
    timezone := profile.timezone
    ambiguous := profile.ambiguous
    nonexistent := profile.nonexistent
    weekly := profile.weekly
    exceptions := profile.exceptions
    stored }

/-- `activate` of a preview at a clock value, with the policy that it inserts. -/
def activate (rt : Runtime) (db : Database) (stored : Preview) (now : Instant) (ids : NewIds db) :
    Except PolicyInputError (PolicyRow × Database) := do
  if stored.consumed || stored.expiresAt ≤ now then
    .error ⟨.previewStale, "preview is missing, expired, or already consumed"⟩
  else
    let draft := stored.policyDocument
    let (source, destination) ←
      requirePolicyCalendars db.calendars draft.sourceCalendarId draft.destinationCalendarId
    requireNoConflictResponseRule db.rules
      [providerCalendarIdentity source, providerCalendarIdentity destination]
    requireCompletedCursor (db.cursorsOf source).head? .previewStale
    if sha256Canonical (db.cursorsOf source) ≠ stored.sourceCursorFingerprint then
      .error ⟨.previewStale, "source cursor changed after preview"⟩
    else
      let inline ← validateInline rt draft.hoursProfile
      let hoursProfileId := if inline.isSome then some ids.hoursProfileId else draft.hoursProfileId
      let inserted := inline.map (·.row ids.hoursProfileId ids.stored)
      return (
        { id := ids.policyId
          sourceCalendarId := draft.sourceCalendarId
          destinationCalendarId := draft.destinationCalendarId
          sourceProviderIdentity := providerCalendarIdentity source
          destinationProviderIdentity := providerCalendarIdentity destination
          hoursProfileId := hoursProfileId.map storedUuid
          status := .active
          revision := 1
          policyDocument := policyDraftForPersistence draft hoursProfileId },
        { db with hoursProfiles := db.hoursProfiles ++ inserted.toList })

/-! ## The first pass -/

def loadHoursProfile (db : Database) (profileId : Option String) : Option HoursProfile :=
  profileId.bind fun id => (db.hoursProfiles.find? (·.id = id)).map (·.profile)

/-- The compiled policy of a pass, for the projection with the given ID. -/
def passSetup (rt : Runtime) (policy : PolicyRow) (projectionId : String) : Setup :=
  { platform := rt.evaluator
    policy := compilePolicyDraft policy.policyDocument policy.id policy.revision .active none
    projectionId
    configuredHorizon := policy.policyDocument.horizon
    active := rfl }

def passContext (db : Database) (policy : PolicyRow) (destination : CalendarRow) (now : Instant) :
    PassContext :=
  let capabilities := destinationCapabilities destination.capabilities destination.writable
  { now
    privateVisibility := capabilities.privateVisibility
    conferenceCopy := capabilities.conferenceCopy
    color := capabilities.color
    hoursProfile := loadHoursProfile db policy.hoursProfileId
    destinationIdentity := destination.accountLabel }

/-- The state of an observation under a policy that has no rows yet. -/
def newState (source destination : CalendarRow) (observation : ObservationRow) (calendar : Calendar) :
    State where
  policyStatus := .active
  source := ⟨source.readable, source.connectionStatus, source.intendedRole⟩
  destination := ⟨destination.writable, destination.connectionStatus, destination.intendedRole⟩
  observation
  projection := none
  effects := []
  notices := []
  jobs := []
  calendar
  passOpen := true
  reads := [observation]
  targets := []
  lookups := []
  crashed := []

/-- The IDs and times of the rows that a pass inserts for an observation. -/
structure NewRows where
  projectionId : String
  insertion : Insertion

/-- What the pass did with one observation. -/
structure PassOutcome where
  observation : StoredObservation
  result : PolicyEvaluationResult
  effects : List EffectRow

/-- The first pass over a policy at a clock value. It stops at once if the calendars cannot be used;
otherwise it goes through all rows of the source calendar, tombstones and managed copies included. -/
def firstPass (rt : Runtime) (db : Database) (policy : PolicyRow) (now : Instant)
    (newRows : StoredObservation → NewRows) (calendar : Calendar) : List PassOutcome :=
  match db.calendars.find? (·.id = policy.sourceCalendarId),
    db.calendars.find? (·.id = policy.destinationCalendarId) with
  | some source, some destination =>
    if policy.status = .active && calendarsUsable source destination then
      (db.observationsOf policy.sourceCalendarId).map fun o =>
        let setup := passSetup rt policy (newRows o).projectionId
        let ctx := passContext db policy destination now
        { observation := o
          result := evaluate setup ctx o.observation none
          effects := (reconcileObservation setup ctx o.observation (newRows o).insertion
            (newState source destination o.observation calendar)).effects }
    else []
  | _, _ => []

end Planipus.Policy

import Planipus.Ingest.State
import Planipus.Planning.Rows
import Planipus.Policy.Calendars

/-!
# The planning service

`server/src/planning/service.ts`: what a plan is made from (`prepare`), previews and their activation,
the resolution of suggestions, and the life cycle of a rule. A preview stores the hash of its
snapshot and the reference time of its plan; an activation reads the tables again, plans again at
that time and goes on only if the snapshot has the same hash.

The rows are those of one organization. Every query reads the tables in an order of its own, so what
a query returns is a list in any order. A transaction that would break a constraint of the tables
ends with an exception and changes nothing. Jobs and audit facts are left out: the steps of the
coordinator may come at any time.
-/

namespace Planipus.Planning

open CalendarSync Sync Library
open Provider.Google (PlanningRuleKind PlanningProvenance)

/-! ## Errors -/

/-- The codes of `PlanningInputError` that the service throws. -/
inductive PlanningErrorCode
  | calendarCapability | availabilityNotReady | previewStale | suggestionStale | notFound
deriving DecidableEq

inductive Failure
  | input (code : PlanningErrorCode) (message : String)
  | exception
deriving DecidableEq

/-! ## What a plan is made from -/

/-- A row of `sync_cursors`. -/
structure CursorRow where
  calendarEndpointId : String
  state : Ingest.CursorState
  lastSuccessAt : Option Instant
deriving DecidableEq

/-- A row of `source_observations` with its calendar. -/
structure ObservedEvent where
  calendarEndpointId : String
  observation : ObservationRow
deriving DecidableEq

/-- The tables as `prepare` reads them. -/
structure Tables where
  calendars : List Policy.CalendarRow
  cursors : List CursorRow
  observations : List ObservedEvent
  rules : List PlanningRule
  plannedEvents : List PlannedEvent

structure TargetState where
  id : String
  writable : Bool
  status : ConnectionStatus
  intendedRole : ConnectionRole
deriving DecidableEq

structure CalendarState where
  id : String
  readable : Bool
  status : ConnectionStatus
deriving DecidableEq

/-- The document of `planningSnapshotDocument`. -/
structure PlanningSnapshot where
  target : TargetState
  calendars : List CalendarState
  availabilityCalendarIds : List String
  busy : List PlanningBusyInterval
deriving DecidableEq

def compareText (left right : String) : Ordering :=
  if left < right then .lt else if right < left then .gt else .eq

def compareInstantText (left right : InstantText) : Ordering :=
  if left.before right then .lt else if right.before left then .gt else .eq

def compareBusy (left right : PlanningBusyInterval) : Ordering :=
  (compareText left.calendarId right.calendarId).then
    ((compareInstantText left.start right.start).then
      (compareInstantText left.finish right.finish))

def planningSnapshotDocument (target : Policy.CalendarRow) (calendars : List Policy.CalendarRow)
    (known : List String) (busy : List PlanningBusyInterval) : PlanningSnapshot where
  target := ⟨target.id, target.writable, target.connectionStatus, target.intendedRole⟩
  calendars := (calendars.map fun calendar =>
    (⟨calendar.id, calendar.readable, calendar.connectionStatus⟩ : CalendarState)).insertionSort
      fun left right => (compareText left.id right.id).isLE
  availabilityCalendarIds := known.insertionSort fun left right => (compareText left right).isLE
  busy := busy.insertionSort fun left right => (compareBusy left right).isLE

structure Prepared where
  input : PlanningInput
  snapshotHash : Digest PlanningSnapshot

def availabilityMaxAge : Int := 30 * 60000

def fullDayProfile (timezone : String) : HoursProfile :=
  hoursProfile "planning-all-day-busy" timezone ([1, 2, 3, 4, 5, 6, 7].map fun weekday =>
    { weekday, start := "00:00:00", finish := "00:00:00", endDayOffset := 1 })

/-- The entry `planipus_rule_ref` of the metadata: it may be missing, null or a text. -/
def planipusRuleRef (event : SourceObservation) : Option (Option String) :=
  event.providerMetadata.bind fun metadata => metadata.lookup "planipus_rule_ref"

def PlanningDraft.requestedCalendars : PlanningDraft → List String
  | .availabilityBoundary _ => []
  | .smartMeeting draft => draft.availabilityCalendarIds

def writableTarget (target : Policy.CalendarRow) : Bool :=
  target.writable && target.connectionStatus = .active &&
    (target.intendedRole = .destination || target.intendedRole = .both)

/-- The calendars that were read successfully within the last half hour. -/
def knownCalendars (read : Tables) (requested : List String) (now : Instant) : List String :=
  ((read.calendars.filter fun calendar => calendar.id ∈ requested).filter fun calendar =>
    calendar.readable && calendar.connectionStatus = .active &&
      read.cursors.any fun cursor => cursor.calendarEndpointId = calendar.id &&
        cursor.calendarEndpointId ∈ requested && cursor.state = .ready &&
        cursor.lastSuccessAt.any (now - availabilityMaxAge ≤ ·)).map (·.id)

section Zones

variable (zones : String → Option Zone)

/-- The busy time of one observation. -/
def observedBusy (excludeRuleId : Option String) (row : ObservedEvent) :
    Except Failure (List PlanningBusyInterval) :=
  let event := row.observation.normalizedEvent
  if event.lifecycle = .confirmed ∧ event.availability ≠ some .free ∧
      event.relationship.response ≠ .declined ∧
      planipusRuleRef event ≠ excludeRuleId.map some then
    match event.timing with
    | some (.timed start finish _ _) =>
      .ok [{ start := toISOString start, finish := toISOString finish
             calendarId := row.calendarEndpointId }]
    | some (.allDay startDate endDate timezone) =>
      let materialized := materializeHours zones (fullDayProfile timezone) startDate endDate
      if .dstResolutionRejected ∈ materialized.diagnostics then
        .error (.input .availabilityNotReady "an all-day busy event has invalid timezone data")
      else
        .ok (materialized.concreteIntervals.map fun interval =>
          { interval with calendarId := row.calendarEndpointId })
    | none => .ok []
  else .ok []

/-- The rows of other smart meetings that take time on the calendars. -/
def plannedBusy (read : Tables) (calendarIds : List String) (excludeRuleId : Option String) :
    List PlanningBusyInterval :=
  (read.plannedEvents.filter fun row =>
    (read.rules.any fun rule => rule.id = row.ruleId && rule.status = .active &&
      rule.draft.kind = .smartMeeting) &&
    row.destinationCalendarId ∈ calendarIds &&
    (row.status = .pendingCreate || row.status = .pendingUpdate || row.status = .converged ||
      row.status = .held) &&
    some row.ruleId ≠ excludeRuleId).filterMap fun row =>
      row.desiredState.map fun event =>
        { start := event.timing.startInstant, finish := event.timing.endInstant
          calendarId := row.destinationCalendarId }

def prepare (read : Tables) (draft : PlanningDraft) (now : Instant)
    (excludeRuleId : Option String) : Except Failure Prepared := do
  match read.calendars.find? (·.id = draft.targetCalendarId) with
  | none => .error (.input .calendarCapability "target calendar is not writable")
  | some target =>
    if !writableTarget target then
      .error (.input .calendarCapability "target calendar is not writable")
    else
      let requested := draft.requestedCalendars
      let calendars := read.calendars.filter fun calendar => calendar.id ∈ requested
      let known := knownCalendars read requested now
      if draft.kind = .smartMeeting ∧ requested.dedup.length ≠ known.dedup.length then
        .error (.input .availabilityNotReady
          "one or more selected calendars have not completed a recent sync")
      else
        let observations := read.observations.filter fun row =>
          row.calendarEndpointId ∈ known && !row.observation.tombstone
        let observed ← observations.mapM (observedBusy zones excludeRuleId)
        let planned :=
          if draft.kind = .smartMeeting then
            plannedBusy read (requested ++ [draft.targetCalendarId]) excludeRuleId
          else []
        let busy := observed.flatten ++ planned
        return {
          input := { draft, now, busy, knownAvailabilityCalendarIds := known }
          snapshotHash := sha256Canonical (planningSnapshotDocument target calendars known busy) }

def prepareForReconcile (read : Tables) (draft : PlanningDraft) (now : Instant)
    (excludeRuleId : String) : Except Failure Prepared := do
  match rollingDraft zones draft now with
  | none => .error .exception
  | some draft => prepare zones read draft now (some excludeRuleId)

/-- The plan, and the draft that it is for. -/
def planForReconcile (read : Tables) (draft : PlanningDraft) (now : Instant)
    (excludeRuleId : String) : Except Failure (PlanningDraft × PlanningResult) := do
  let prepared ← prepareForReconcile zones read draft now excludeRuleId
  match planScheduling zones prepared.input with
  | none => .error .exception
  | some result => .ok (prepared.input.draft, result)

end Zones

/-! ## State -/

/-- A row of `planning_previews`. -/
structure PlanningPreview where
  id : String
  principalId : String
  draft : PlanningDraft
  inputSnapshotHash : Digest PlanningSnapshot
  result : PlanningResult
  planningReferenceAt : Instant
  expiresAt : Instant
  consumedAt : Option Instant
deriving DecidableEq

/-- A live event at the provider, as it was written last. -/
structure RemotePlanningEvent where
  eventId : RemoteEventId
  event : ManagedPlanningEvent
deriving DecidableEq

/-- The tables that planning writes and the events at the provider. `skips` and `history` are kept
for statements only: the planned events whose skip was accepted, and those that were closed after
their time had passed. -/
structure State where
  clock : Instant
  previews : List PlanningPreview
  rules : List PlanningRule
  plannedEvents : List PlannedEvent
  suggestions : List Suggestion
  remote : List RemotePlanningEvent
  skips : List String
  history : List String
deriving DecidableEq

namespace State

/-- The constraints of the tables. -/
structure Constraints (s : State) : Prop where
  previewIds : (s.previews.map (·.id)).Nodup
  ruleIds : (s.rules.map (·.id)).Nodup
  plannedIds : (s.plannedEvents.map (·.id)).Nodup
  keys : (s.plannedEvents.map fun row => (row.ruleId, row.occurrenceKey)).Nodup
  checked : ∀ row ∈ s.plannedEvents, row.Checked
  suggestionIds : (s.suggestions.map (·.id)).Nodup

instance (s : State) : Decidable s.Constraints :=
  decidable_of_iff
    ((s.previews.map (·.id)).Nodup ∧ (s.rules.map (·.id)).Nodup ∧
      (s.plannedEvents.map (·.id)).Nodup ∧
      (s.plannedEvents.map fun row => (row.ruleId, row.occurrenceKey)).Nodup ∧
      (∀ row ∈ s.plannedEvents, row.Checked) ∧ (s.suggestions.map (·.id)).Nodup)
    ⟨fun ⟨h₁, h₂, h₃, h₄, h₅, h₆⟩ => ⟨h₁, h₂, h₃, h₄, h₅, h₆⟩,
      fun h => ⟨h.1, h.2, h.3, h.4, h.5, h.6⟩⟩

def commit (s : State) : Except Failure State :=
  if s.Constraints then .ok s else .error .exception

def updateRule (s : State) (ruleId : String) (f : PlanningRule → PlanningRule) : State :=
  { s with rules := updateRow (·.id) ruleId f s.rules }

/-- The rows of a rule. -/
def eventsOf (s : State) (ruleId : String) : List PlannedEvent :=
  s.plannedEvents.filter fun row => row.ruleId = ruleId

end State

/-! ## Previews -/

section Operations

variable (zones : String → Option Zone)

def preview (s : State) (principalId newId : String) (draft : PlanningDraft) (read : Tables) :
    Except Failure State := do
  let prepared ← prepare zones read draft s.clock none
  match planScheduling zones prepared.input with
  | none => .error .exception
  | some result =>
    let row : PlanningPreview :=
      { id := newId
        principalId
        draft
        inputSnapshotHash := prepared.snapshotHash
        result
        planningReferenceAt := s.clock
        expiresAt := s.clock + 10 * 60000
        consumedAt := none }
    State.commit { s with previews := s.previews ++ [row] }

/-- Of a draft that was accepted before, the parser changes at most the addresses: it puts them into
normal form and then into lower case, and the result need not be in normal form again. -/
def parsePlanningDraft (emailText : String → String) : PlanningDraft → PlanningDraft
  | .availabilityBoundary draft => .availabilityBoundary draft
  | .smartMeeting draft => .smartMeeting
      { draft with
        attendees := draft.attendees.map fun attendee =>
          { attendee with email := emailText attendee.email } }

/-- A proposed meeting has started. -/
def startedBy (now : Instant) (result : PlanningResult) : Bool :=
  result.occurrences.any fun occurrence =>
    occurrence.event.any fun event => event.timing.startInstant.instant ≤ now

/-- The tables after an activation. -/
def State.activated (s : State) (previewId : String) (draft : PlanningDraft)
    (result : PlanningResult) (newId : Nat → String) : State :=
  { s with
    rules := s.rules ++ [⟨newId 0, .active, 1, draft⟩]
    plannedEvents := s.plannedEvents ++ result.occurrences.zipIdx.map fun (occurrence, n) =>
      insertOccurrence (newId 0) (newId (n + 1)) draft occurrence
    previews := updateRow (·.id) previewId
      (fun preview => { preview with consumedAt := some s.clock }) s.previews }

def activate (emailText : String → String) (s : State) (principalId previewId : String)
    (read : Tables) (newId : Nat → String) : Except Failure State := do
  match s.previews.find? fun preview =>
      preview.principalId = principalId && preview.id = previewId with
  | none => .error (.input .previewStale "planning preview has expired or was already used")
  | some preview =>
    if preview.consumedAt.isSome ∨ preview.expiresAt ≤ s.clock then
      .error (.input .previewStale "planning preview has expired or was already used")
    else
      let draft := parsePlanningDraft emailText preview.draft
      let prepared ← prepare zones read draft preview.planningReferenceAt none
      if prepared.snapshotHash ≠ preview.inputSnapshotHash then
        .error (.input .previewStale "calendar availability changed after preview")
      else
        match planScheduling zones prepared.input with
        | none => .error .exception
        | some result =>
          if draft.kind = .smartMeeting ∧ startedBy s.clock result then
            .error (.input .previewStale "a proposed meeting time has already started")
          else
            (s.activated previewId draft result newId).commit

/-! ## Suggestions -/

/-- The row after its suggestion is accepted. -/
def acceptProposal (proposed : Option ManagedPlanningEvent) (row : PlannedEvent) : PlannedEvent :=
  let intent := row.intentSequence + 1
  match proposed with
  | some event =>
    let writeProposed := withIntent event intent
    { row with
      intentSequence := intent
      desiredState := some writeProposed
      desiredHash := some (sha256Canonical writeProposed)
      status := if row.destinationEventId.isSome then .pendingUpdate else .pendingCreate
      sendUpdates := writeProposed.sendUpdates
      reasonCode := "suggestion_accepted"
      safeErrorCode := none }
  | none =>
    { row with
      intentSequence := intent
      desiredState := none
      desiredHash := none
      status := if row.destinationEventId.isSome then .pendingDelete else .skipped
      reasonCode := "suggestion_skip_accepted"
      safeErrorCode := none }

def lockBeforeMinutes : PlanningDraft → Nat
  | .availabilityBoundary _ => 0
  | .smartMeeting draft => draft.lockBeforeMinutes

/-- What the latest plan proposes for the row, under its own generation and intent. -/
def latestProposal (result : PlanningResult) (rule : PlanningRule) (row : PlannedEvent) :
    Option ManagedPlanningEvent :=
  (result.occurrences.find? (·.occurrenceKey = row.occurrenceKey)).bind fun occurrence =>
    occurrence.event.map fun event =>
      withProvenance event rule.draft.kind rule.id row.id row.occurrenceKey row.generation
        row.intentSequence

/-- The suggestions after one of them is accepted: the others for the same event expire. -/
def resolveAccepted (suggestion : Suggestion) (suggestions : List Suggestion) : List Suggestion :=
  (updateRow (·.id) suggestion.id (fun other => { other with status := .accepted }) suggestions).map
    fun other =>
      if other.plannedEventId = suggestion.plannedEventId ∧ other.status = .pending then
        { other with status := .expired }
      else other

/-- The tables after an acceptance. -/
def State.accepted (s : State) (suggestion : Suggestion) : State :=
  { s with
    plannedEvents := updateRow (·.id) suggestion.plannedEventId
      (acceptProposal suggestion.proposedState) s.plannedEvents
    suggestions := resolveAccepted suggestion s.suggestions
    skips := if suggestion.proposedState.isNone then s.skips ++ [suggestion.plannedEventId]
      else s.skips }

/-- The checks of an acceptance, in their order. -/
def acceptSuggestion (s : State) (suggestion : Suggestion) (rule : PlanningRule)
    (row : PlannedEvent) (read : Tables) : Except Failure State := do
  let basis : SuggestionBasis :=
    ⟨row.desiredHash, suggestion.proposedState.map sha256Canonical, rule.revision⟩
  if sha256Canonical basis ≠ suggestion.basisHash then
    .error (.input .suggestionStale "calendar state changed after this suggestion was made")
  else if insideNoMoveWindow row.desiredState s.clock (lockBeforeMinutes rule.draft) then
    .error (.input .suggestionStale "this meeting is now inside its no-move window")
  else
    let (_, result) ← planForReconcile zones read rule.draft s.clock rule.id
    if (latestProposal result rule row).map sha256Canonical ≠
        suggestion.proposedState.map sha256Canonical then
      .error (.input .suggestionStale "availability changed after this suggestion was made")
    else
      (s.accepted suggestion).commit

inductive SuggestionDecision | accept | dismiss
deriving DecidableEq

def resolveSuggestion (s : State) (suggestionId : String) (decision : SuggestionDecision)
    (read : Tables) : Except Failure State :=
  match s.suggestions.find? (·.id = suggestionId) with
  | none => .error (.input .suggestionStale "that suggested change is no longer available")
  | some suggestion =>
    match s.rules.find? (·.id = suggestion.ruleId),
        s.plannedEvents.find? (·.id = suggestion.plannedEventId) with
    | some rule, some row =>
      if suggestion.status ≠ .pending then
        .error (.input .suggestionStale "that suggested change is no longer available")
      else if suggestion.expiresAt ≤ s.clock ∨ rule.status ≠ .active then
        .error (.input .suggestionStale "that suggested change has expired")
      else
        match decision with
        | .dismiss => .ok
            { s with
              suggestions := updateRow (·.id) suggestion.id
                (fun other => { other with status := .dismissed }) s.suggestions }
        | .accept => acceptSuggestion zones s suggestion rule row read
    | _, _ => .error (.input .suggestionStale "that suggested change is no longer available")

end Operations

/-- The cleanup of the scheduler. -/
def expireSuggestions (s : State) : State :=
  { s with
    suggestions := s.suggestions.map fun suggestion =>
      if suggestion.status = .pending ∧ suggestion.expiresAt < s.clock then
        { suggestion with status := .expired }
      else suggestion }

/-! ## The life cycle of a rule -/

def setPaused (s : State) (ruleId : String) (paused : Bool) : Except Failure State :=
  match s.rules.find? fun rule =>
      rule.id = ruleId && (rule.status = .active || rule.status = .paused) with
  | none => .error (.input .notFound "planning rule was not found")
  | some _ => .ok (s.updateRule ruleId fun rule =>
      { rule with status := if paused then .paused else .active })

/-- A cleanup is pending already, or the event is not over and may be at the provider. -/
def needsCleanup (row : PlannedEvent) (now : Instant) : Bool :=
  row.status = .pendingDelete ||
    ((row.desiredState.any fun event => now < event.timing.endInstant.instant) &&
      (row.destinationEventId.isSome || row.status = .pendingCreate || row.status = .pendingUpdate))

/-- The row after its rule is removed. -/
def removeRow (now : Instant) (row : PlannedEvent) : PlannedEvent :=
  if needsCleanup row now then
    { row with
      intentSequence := row.intentSequence + 1
      desiredState := none
      desiredHash := none
      status := .pendingDelete
      reasonCode := "rule_removed"
      safeErrorCode := none }
  else
    { row with
      desiredState := none
      desiredHash := none
      status := .deleted
      reasonCode := "rule_removed" }

/-- The tables after a removal. -/
def State.removed (s : State) (ruleId : String) : State :=
  let events := s.eventsOf ruleId
  let cleanupCount := events.countP (needsCleanup · s.clock)
  { s with
    rules := updateRow (·.id) ruleId
      (fun rule => { rule with
        status := if cleanupCount = 0 then .deleted else .deleting
        revision := rule.revision + 1 }) s.rules
    plannedEvents := s.plannedEvents.map fun row =>
      if row.ruleId = ruleId then removeRow s.clock row else row
    suggestions := s.suggestions.map fun suggestion =>
      if suggestion.ruleId = ruleId ∧ suggestion.status = .pending then
        { suggestion with status := .expired }
      else suggestion
    history := s.history ++ (events.filter fun row =>
      eventHasEnded row.desiredState s.clock && !needsCleanup row s.clock).map (·.id) }

def remove (s : State) (ruleId : String) : Except Failure State :=
  match s.rules.find? fun rule => rule.id = ruleId && rule.status ≠ .deleted with
  | none => .error (.input .notFound "planning rule was not found")
  | some _ => (s.removed ruleId).commit

end Planipus.Planning

import Planipus.Library.Machine
import Planipus.Planning.Service

/-!
# The planning coordinator

`server/src/planning/coordinator.ts`. `reconcile` plans a rule again and brings its rows to the new
plan: one update for a row whose occurrence is in the plan (`updateOccurrence`), one for a row whose
occurrence is not (`closeStale`), and new rows. `apply` brings one row to the provider, with the row
and its rule locked from the first read to the commit, so that a pass is one step.

The environment of a pass is part of its event: what the unlocked reads of a reconciliation return,
and what becomes of the requests of an application. A request is answered, lost with or without
effect, or refused. A pass may also end before its commit: its rows are as before then, and what it
has done at the provider stays. Only Planipus writes these events, and a deleted event is not found.
-/

namespace Planipus.Planning

open CalendarSync Sync Library
open Provider.Google (PlanningRuleKind PlanningProvenance)

/-! ## Reconciliation -/

/-- The conflict policy of a smart meeting. -/
def conflictPolicy? : PlanningDraft → Option ConflictPolicy
  | .availabilityBoundary _ => none
  | .smartMeeting draft => some draft.conflictPolicy

/-- What the plan wants for a row, under the generation and intent of the row. -/
def desiredFor (draft : PlanningDraft) (current : PlannedEvent)
    (occurrence : PlannedOccurrenceTemplate) : Option ManagedPlanningEvent :=
  occurrence.event.map fun event =>
    withProvenance event draft.kind current.ruleId current.id occurrence.occurrenceKey
      current.generation current.intentSequence

/-- The cases of `updateOccurrence`, in their order. -/
inductive Outcome
  | unchanged
  /-- A row that was held because of its target is tried again. -/
  | retry
  | lock
  | suggestion
  | keep
  | noTime
  | write
deriving DecidableEq

def updateOutcome (draft : PlanningDraft) (current : PlannedEvent)
    (occurrence : PlannedOccurrenceTemplate) (now : Instant) : Outcome :=
  let desired := desiredFor draft current occurrence
  let moving := draft.kind = .smartMeeting ∧ current.destinationEventId.isSome
  if current.status = .skipped then .unchanged
  else if desired.map sha256Canonical = current.desiredHash ∧ current.status ≠ .unmet then
    if current.status = .held ∧ current.safeErrorCode = some "target_unavailable" then .retry
    else .unchanged
  else if moving ∧ insideNoMoveWindow current.desiredState now (lockBeforeMinutes draft) then .lock
  else if moving ∧ conflictPolicy? draft = some .suggest ∧ current.status = .converged then
    .suggestion
  else if moving ∧ conflictPolicy? draft = some .keepWithWarning then .keep
  else if moving ∧ desired = none then .noTime
  else .write

/-- A row that is held where it is. -/
def heldAs (row : PlannedEvent) (reasonCode safeErrorCode : String) : PlannedEvent :=
  { row with status := .held, reasonCode, safeErrorCode := some safeErrorCode }

/-- The status of a row that is written again. -/
def pendingWrite (row : PlannedEvent) : PlannedStatus :=
  if row.destinationEventId.isSome then .pendingUpdate else .pendingCreate

/-- The row with the desired state of a new intent. -/
def writeRow (desired : Option ManagedPlanningEvent) (reasonCode : String) (current : PlannedEvent) :
    PlannedEvent :=
  let intent := current.intentSequence + 1
  let writeDesired := desired.map (withIntent · intent)
  { current with
    intentSequence := intent
    desiredHash := writeDesired.map sha256Canonical
    desiredState := writeDesired
    status := if writeDesired.isSome then pendingWrite current else .unmet
    sendUpdates := writeDesired.any fun event => event.sendUpdates
    reasonCode
    safeErrorCode := if writeDesired.isSome then none else some "planning_window_unmet" }

def updateOccurrence (draft : PlanningDraft) (occurrence : PlannedOccurrenceTemplate)
    (now : Instant) (current : PlannedEvent) : PlannedEvent :=
  match updateOutcome draft current occurrence now with
  | .unchanged | .suggestion => current
  | .retry => { current with status := pendingWrite current, safeErrorCode := none }
  | .lock => heldAs current "inside_no_move_window" "meeting_locked"
  | .keep => heldAs current "conflict_kept_for_manual_resolution" "meeting_conflict"
  | .noTime => heldAs current "no_mutual_time_inside_meeting_hours" "planning_window_unmet"
  | .write => writeRow (desiredFor draft current occurrence) occurrence.reasonCode current

/-- A row whose occurrence has left the plan. -/
def closeStale (now : Instant) (stale : PlannedEvent) : PlannedEvent :=
  if stale.status = .pendingDelete then stale
  else if eventHasEnded stale.desiredState now then
    { stale with
      desiredHash := none
      desiredState := none
      status := .deleted
      reasonCode := "historical_event_preserved"
      safeErrorCode := none }
  else if stale.destinationEventId.isSome then
    if stale.status = .deleted then stale
    else
      { stale with
        intentSequence := stale.intentSequence + 1
        desiredHash := none
        desiredState := none
        status := .pendingDelete
        reasonCode := "outside_rolling_horizon"
        safeErrorCode := none }
  else
    { stale with
      desiredHash := none
      desiredState := none
      status := .deleted
      reasonCode := "outside_rolling_horizon" }

def occurrenceFor (result : PlanningResult) (row : PlannedEvent) :
    Option PlannedOccurrenceTemplate :=
  result.occurrences.find? (·.occurrenceKey = row.occurrenceKey)

/-- What a reconciliation does to a row of its rule. -/
def reconcileRow (draft : PlanningDraft) (result : PlanningResult) (now : Instant)
    (row : PlannedEvent) : PlannedEvent :=
  match occurrenceFor result row with
  | some occurrence => updateOccurrence draft occurrence now row
  | none => closeStale now row

/-- The suggestion for a row, where the outcome is one. -/
def suggestionFor (draft : PlanningDraft) (result : PlanningResult) (now : Instant)
    (revision : Nat) (newId : String → String) (row : PlannedEvent) : Option Suggestion := do
  let occurrence ← occurrenceFor result row
  if updateOutcome draft row occurrence now = .suggestion then
    let desired := desiredFor draft row occurrence
    return {
      id := newId row.id
      ruleId := row.ruleId
      plannedEventId := row.id
      basisHash := sha256Canonical ⟨row.desiredHash, desired.map sha256Canonical, revision⟩
      proposedState := desired
      status := .pending
      expiresAt := now + 14 * 86400000 }
  else none

/-- `on conflict do nothing`: the IDs are unique, and so are the bases of a planned event. -/
def insertSuggestion (suggestions : List Suggestion) (suggestion : Suggestion) : List Suggestion :=
  if suggestions.any fun row => row.id = suggestion.id || (row.basisHash = suggestion.basisHash &&
      row.plannedEventId = suggestion.plannedEventId) then suggestions
  else suggestions ++ [suggestion]

/-- The occurrences that find no row: each row is taken by the first occurrence of its key. -/
def newOccurrences : List String → List PlannedOccurrenceTemplate → List PlannedOccurrenceTemplate
  | _, [] => []
  | keys, occurrence :: rest =>
    if occurrence.occurrenceKey ∈ keys then newOccurrences (keys.erase occurrence.occurrenceKey) rest
    else occurrence :: newOccurrences keys rest

/-- The rows of `history` that a reconciliation adds and takes back. -/
def reconcileHistory (s : State) (ruleId : String) (draft : PlanningDraft)
    (result : PlanningResult) : List String :=
  let closed := (s.eventsOf ruleId).filter fun row => (occurrenceFor result row).isNone &&
    row.status ≠ .pendingDelete && eventHasEnded row.desiredState s.clock
  let revived := (s.eventsOf ruleId).filter fun row =>
    (reconcileRow draft result s.clock row).desiredState.isSome
  (s.history ++ closed.map (·.id)).filter (· ∉ revived.map (·.id))

/-- The tables after a reconciliation. -/
def State.reconciled (s : State) (rule : PlanningRule) (draft : PlanningDraft)
    (result : PlanningResult) (newId : String → String) : State :=
  let rows := s.eventsOf rule.id
  let fresh := newOccurrences (rows.map (·.occurrenceKey)) result.occurrences
  { s with
    plannedEvents :=
      (s.plannedEvents.map fun row =>
        if row.ruleId = rule.id then reconcileRow draft result s.clock row else row) ++
      fresh.map fun occurrence =>
        insertOccurrence rule.id (newId occurrence.occurrenceKey) draft occurrence
    suggestions := (rows.filterMap (suggestionFor draft result s.clock rule.revision newId)).foldl
      insertSuggestion s.suggestions
    history := reconcileHistory s rule.id draft result }

def reconcile (zones : String → Option Zone) (s : State) (ruleId : String) (read : Tables)
    (newId : String → String) : Except Failure State := do
  match s.rules.find? (·.id = ruleId) with
  | none => .ok s
  | some rule =>
    if rule.status ≠ .active then .ok s
    else
      let (draft, result) ← planForReconcile zones read rule.draft s.clock ruleId
      (s.reconciled rule draft result newId).commit

/-! ## Application -/

/-- What becomes of a request: it is answered, it is lost with or without effect, or it is refused
with a code. -/
inductive Delivery
  | answered
  | lost (effect : Bool)
  | refused (code : String)
deriving DecidableEq

/-- The code of the error for a request that was not answered. -/
def Delivery.failure (write : Bool) : Delivery → Option String
  | answered => none
  | lost _ => some (if write then "ambiguous_network_error" else "provider_network_error")
  | refused code => some code

/-- Whether a write takes effect. -/
def Delivery.effective : Delivery → Bool
  | answered => true
  | lost effect => effect
  | refused _ => false

/-- The environment of an application. -/
structure Conversation where
  /-- The calendar is writable, its connection active and in a destination role. -/
  targetUsable : Bool
  /-- The access token was issued. -/
  authorized : Bool
  lookup : Delivery
  write : Delivery
  committed : Bool
deriving DecidableEq

def hold (code : String) (preservePendingDelete : Bool) (row : PlannedEvent) : PlannedEvent :=
  { row with
    status := if preservePendingDelete then .pendingDelete else .held
    safeErrorCode := some code }

def belongs (identity : PlanningProvenance) (rule : PlanningRule) (target : PlannedEvent) : Bool :=
  identity.kind = rule.draft.kind && identity.ruleRef = target.ruleId &&
    identity.plannedEventRef = target.id && identity.occurrenceKey = target.occurrenceKey &&
    identity.generation = target.generation

/-- What the `catch` of `apply` does to the row. -/
def failWith (code : String) (row : PlannedEvent) : PlannedEvent :=
  if code = "precondition_failed" then
    hold "ownership_ambiguous" (row.status = .pendingDelete) row
  else { row with safeErrorCode := some code }

def getPlanningEvent (s : State) (eventId : RemoteEventId) : Option RemotePlanningEvent :=
  s.remote.find? (·.eventId = eventId)

def deletePlanningEvent (eventId : RemoteEventId) (remote : List RemotePlanningEvent) :
    List RemotePlanningEvent :=
  remote.filter (·.eventId ≠ eventId)

/-- A create or an update. -/
def putPlanningEvent (eventId : RemoteEventId) (event : ManagedPlanningEvent)
    (remote : List RemotePlanningEvent) : List RemotePlanningEvent :=
  deletePlanningEvent eventId remote ++ [⟨eventId, event⟩]

/-- The ID under which the row looks for its event. -/
def PlannedEvent.remoteId (row : PlannedEvent) : RemoteEventId :=
  row.destinationEventId.getD (planningEventId row.id row.generation)

/-- What an application leaves behind: the row, and the events at the provider. -/
structure Applied where
  row : PlannedEvent
  remote : List RemotePlanningEvent

/-- The row after its event is gone from the provider. -/
def deletedRow (row : PlannedEvent) : PlannedEvent :=
  { row with
    destinationEventId := none
    status := if row.reasonCode = "suggestion_skip_accepted" then .skipped else .deleted
    safeErrorCode := none }

def applyDelete (s : State) (rule : PlanningRule) (target : PlannedEvent) (c : Conversation) :
    Applied :=
  match c.lookup.failure false with
  | some code => ⟨failWith code target, s.remote⟩
  | none =>
    match getPlanningEvent s target.remoteId with
    | none => ⟨deletedRow target, s.remote⟩
    | some found =>
      if !belongs found.event.provenance rule target then
        ⟨hold "ownership_mismatch" true target, s.remote⟩
      else
        let remote :=
          if c.write.effective then deletePlanningEvent found.eventId s.remote else s.remote
        match c.write.failure true with
        | some code => ⟨failWith code target, remote⟩
        | none => ⟨deletedRow target, remote⟩

/-- The row after its event was found or written under the ID. -/
def convergedRow (eventId : RemoteEventId) (row : PlannedEvent) : PlannedEvent :=
  { row with destinationEventId := some eventId, status := .converged, safeErrorCode := none }

/-- The row whose event has vanished goes on with a new generation. -/
def nextGeneration (row : PlannedEvent) : PlannedEvent :=
  let desired := row.desiredState.map (withGeneration · (row.generation + 1))
  { row with
    generation := row.generation + 1
    destinationEventId := none
    desiredState := desired
    desiredHash := desired.map sha256Canonical }

/-- The write of a row, under the ID of the found event or of the generation of the row. -/
def writeEvent (s : State) (rule : PlanningRule) (target : PlannedEvent)
    (eventId : RemoteEventId) (c : Conversation) : Applied :=
  match target.desiredState with
  | none => ⟨failWith "invalid_desired_state" target, s.remote⟩
  | some desired =>
    if rule.draft.kind = .smartMeeting ∧ desired.timing.startInstant.instant ≤ s.clock then
      ⟨hold "meeting_start_too_close" false target, s.remote⟩
    else
      let remote :=
        if c.write.effective then putPlanningEvent eventId desired s.remote else s.remote
      match c.write.failure true with
      | some code => ⟨failWith code target, remote⟩
      | none => ⟨convergedRow eventId target, remote⟩

def applyWrite (s : State) (rule : PlanningRule) (target : PlannedEvent) (c : Conversation) :
    Applied :=
  match target.desiredState with
  | none => ⟨failWith "invalid_desired_state" target, s.remote⟩
  | some _ =>
    match c.lookup.failure false with
    | some code => ⟨failWith code target, s.remote⟩
    | none =>
      match getPlanningEvent s target.remoteId with
      | some found =>
        if !belongs found.event.provenance rule target then
          ⟨hold "ownership_mismatch" false target, s.remote⟩
        else if found.event.provenance.intentSequence = target.intentSequence then
          ⟨convergedRow found.eventId target, s.remote⟩
        else if target.intentSequence < found.event.provenance.intentSequence then
          ⟨hold "remote_intent_ahead" false target, s.remote⟩
        else writeEvent s rule target found.eventId c
      | none =>
        let target := if target.destinationEventId.isSome then nextGeneration target else target
        writeEvent s rule target (planningEventId target.id target.generation) c

/-- Once a removed rule has no cleanup left, it is deleted. -/
def finishRemoval (ruleId : String) (s : State) : State :=
  if (s.eventsOf ruleId).any fun row => row.status = .pendingDelete then s
  else s.updateRule ruleId fun rule => { rule with status := .deleted }

/-- What the row and the provider become, unless the pass ends with an exception before that. -/
def converse (s : State) (rule : PlanningRule) (target : PlannedEvent) (c : Conversation) :
    Option Applied :=
  if !c.targetUsable then
    some ⟨hold "target_unavailable" (target.status = .pendingDelete) target, s.remote⟩
  else if !c.authorized then none
  else if target.status = .pendingDelete then some (applyDelete s rule target c)
  else some (applyWrite s rule target c)

/-- The state after an application: what was done at the provider stays also without a commit. -/
def State.applied (s : State) (rule : PlanningRule) (target : PlannedEvent) (applied : Applied)
    (committed : Bool) : State :=
  if committed then
    let s' :=
      { s with
        plannedEvents := updateRow (·.id) target.id (fun _ => applied.row) s.plannedEvents
        remote := applied.remote }
    if target.status = .pendingDelete ∧ applied.row.status ≠ .pendingDelete ∧
        rule.status = .deleting then
      finishRemoval rule.id s'
    else s'
  else { s with remote := applied.remote }

def apply (s : State) (plannedEventId : String) (expectedIntent : Nat) (c : Conversation) : State :=
  match s.plannedEvents.find? (·.id = plannedEventId) with
  | none => s
  | some target =>
    match s.rules.find? (·.id = target.ruleId) with
    | none => s
    | some rule =>
      if rule.status ≠ .active ∧ target.status ≠ .pendingDelete then s
      else if target.intentSequence ≠ expectedIntent ∨ !target.status.pending then s
      else
        match converse s rule target c with
        | none => s
        | some applied => s.applied rule target applied c.committed

/-! ## The machine -/

inductive Event
  | tick (elapsed : Nat)
  | preview (principalId newId : String) (draft : PlanningDraft) (read : Tables)
  | activate (principalId previewId : String) (read : Tables) (newId : Nat → String)
  | reconcile (ruleId : String) (read : Tables) (newId : String → String)
  | apply (plannedEventId : String) (expectedIntent : Nat) (c : Conversation)
  | resolveSuggestion (suggestionId : String) (decision : SuggestionDecision) (read : Tables)
  | expireSuggestions
  | setPaused (ruleId : String) (paused : Bool)
  | remove (ruleId : String)

/-- An operation that throws leaves the state as it is. -/
def State.orKeep (s : State) : Except Failure State → State
  | .ok s' => s'
  | .error _ => s

section Machine

variable (zones : String → Option Zone) (emailText : String → String)

def step (s : State) : Event → State
  | .tick elapsed => { s with clock := s.clock + elapsed }
  | .preview principalId newId draft read => s.orKeep (preview zones s principalId newId draft read)
  | .activate principalId previewId read newId =>
    s.orKeep (activate zones emailText s principalId previewId read newId)
  | .reconcile ruleId read newId => s.orKeep (reconcile zones s ruleId read newId)
  | .apply plannedEventId expectedIntent c => apply s plannedEventId expectedIntent c
  | .resolveSuggestion suggestionId decision read =>
    s.orKeep (resolveSuggestion zones s suggestionId decision read)
  | .expireSuggestions => expireSuggestions s
  | .setPaused ruleId paused => s.orKeep (setPaused s ruleId paused)
  | .remove ruleId => s.orKeep (remove s ruleId)

/-- Before the first preview. -/
def Initial (s : State) : Prop :=
  s.previews = [] ∧ s.rules = [] ∧ s.plannedEvents = [] ∧ s.suggestions = [] ∧ s.remote = [] ∧
    s.skips = [] ∧ s.history = []

def planning : Machine State Event where
  Init := Initial
  step := step zones emailText

/-! ## Late transactions -/

/-- An operation takes the time when it begins; its transaction may come later, after others. -/
structure Delayed where
  delay : Nat
  event : Event

/-- The tables, with the time of an operation that began before. -/
def State.before (s : State) (delay : Nat) : State := { s with clock := s.clock - delay }

def stepDelayed (s : State) (d : Delayed) : State :=
  match d.event with
  | .tick _ => step zones emailText s d.event
  | event => { step zones emailText (s.before d.delay) event with clock := s.clock }

/-- The operations of several workers, whose transactions come in any order. -/
def delayedPlanning : Machine State Delayed where
  Init := Initial
  step := stepDelayed zones emailText

end Machine

end Planipus.Planning

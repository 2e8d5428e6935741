import Planipus.Planning.Engine

/-!
# Rows of the planning tables

`planning_rules`, `planned_events` and `planning_suggestions` (`server/migrations/0004_planning_rules.sql`),
with the columns that planning reads. A planned event is the desired state of one occurrence of a
rule; its `destination_event_id` is null until a provider write has been acknowledged.
-/

namespace Planipus.Planning

open CalendarSync
open Provider.Google (PlanningRuleKind PlanningProvenance)

/-! ## Managed events -/

structure ManagedPlanningEvent extends EventTemplate where
  provenance : PlanningProvenance
deriving DecidableEq

def withProvenance (event : EventTemplate) (kind : PlanningRuleKind)
    (ruleId plannedEventId occurrenceKey : String) (generation intentSequence : Nat) :
    ManagedPlanningEvent :=
  { event with
    provenance :=
      { kind
        ruleRef := ruleId
        plannedEventRef := plannedEventId
        occurrenceKey
        generation
        intentSequence } }

def withIntent (event : ManagedPlanningEvent) (intentSequence : Nat) : ManagedPlanningEvent :=
  { event with provenance := { event.provenance with intentSequence } }

def withGeneration (event : ManagedPlanningEvent) (generation : Nat) : ManagedPlanningEvent :=
  { event with provenance := { event.provenance with generation } }

@[simp] theorem withProvenance_toEventTemplate (event : EventTemplate) (kind : PlanningRuleKind)
    (ruleId plannedEventId occurrenceKey : String) (generation intentSequence : Nat) :
    (withProvenance event kind ruleId plannedEventId occurrenceKey generation
      intentSequence).toEventTemplate = event := rfl

@[simp] theorem withIntent_toEventTemplate (event : ManagedPlanningEvent) (n : Nat) :
    (withIntent event n).toEventTemplate = event.toEventTemplate := rfl

@[simp] theorem withGeneration_toEventTemplate (event : ManagedPlanningEvent) (n : Nat) :
    (withGeneration event n).toEventTemplate = event.toEventTemplate := rfl

/-! ## Rules -/

inductive RuleStatus | active | paused | deleting | deleted
deriving DecidableEq

structure PlanningRule where
  id : String
  status : RuleStatus
  revision : Nat
  draft : PlanningDraft
deriving DecidableEq

/-! ## Planned events -/

inductive PlannedStatus
  | pendingCreate | pendingUpdate | pendingDelete | converged | held | unmet | skipped | deleted
deriving DecidableEq

namespace PlannedStatus

/-- The statuses in which a row has no desired state. -/
def closed : PlannedStatus → Bool
  | unmet | skipped | pendingDelete | deleted => true
  | pendingCreate | pendingUpdate | converged | held => false

/-- The statuses that the application of a planned event handles. -/
def pending : PlannedStatus → Bool
  | pendingCreate | pendingUpdate | pendingDelete => true
  | converged | held | unmet | skipped | deleted => false

end PlannedStatus

/-- `planningEventId`: the digest of the ID of a planned event and a generation. -/
abbrev RemoteEventId := Digest (String × Nat)

def planningEventId (plannedEventId : String) (generation : Nat) : RemoteEventId :=
  sha256Canonical (plannedEventId, generation)

structure PlannedEvent where
  id : String
  ruleId : String
  occurrenceKey : String
  destinationCalendarId : String
  generation : Nat
  intentSequence : Nat
  destinationEventId : Option RemoteEventId
  desiredHash : Option (Digest ManagedPlanningEvent)
  desiredState : Option ManagedPlanningEvent
  status : PlannedStatus
  sendUpdates : Bool
  reasonCode : String
  safeErrorCode : Option String
deriving DecidableEq

namespace PlannedEvent

/-- The check constraint of the table. -/
def Checked (row : PlannedEvent) : Prop :=
  if row.status.closed then row.desiredState = none
  else row.desiredState.isSome ∧ row.desiredHash.isSome

instance (row : PlannedEvent) : Decidable row.Checked := by
  unfold Checked
  infer_instance

def timing (row : PlannedEvent) : Option PlannedTiming :=
  row.desiredState.map fun desired => desired.timing

end PlannedEvent

/-- The row of an occurrence that is planned for the first time, by an activation or by a
reconciliation. -/
def insertOccurrence (ruleId newId : String) (draft : PlanningDraft)
    (occurrence : PlannedOccurrenceTemplate) : PlannedEvent :=
  let desired := occurrence.event.map fun event =>
    withProvenance event draft.kind ruleId newId occurrence.occurrenceKey 1 1
  { id := newId
    ruleId
    occurrenceKey := occurrence.occurrenceKey
    destinationCalendarId := draft.targetCalendarId
    generation := 1
    intentSequence := if desired.isSome then 1 else 0
    destinationEventId := none
    desiredHash := desired.map sha256Canonical
    desiredState := desired
    status := if desired.isSome then .pendingCreate else .unmet
    sendUpdates := desired.any fun event => event.sendUpdates
    reasonCode := occurrence.reasonCode
    safeErrorCode := none }

/-! ## Time -/

def insideNoMoveWindow (desired : Option ManagedPlanningEvent) (now : Instant)
    (lockBeforeMinutes : Nat) : Bool :=
  desired.any fun event =>
    event.timing.startInstant.instant > now &&
      event.timing.startInstant.instant ≤ now + lockBeforeMinutes * 60000

def eventHasEnded (desired : Option ManagedPlanningEvent) (now : Instant) : Bool :=
  desired.any fun event => event.timing.endInstant.instant ≤ now

/-! ## Suggestions -/

inductive SuggestionStatus | pending | accepted | dismissed | expired
deriving DecidableEq

/-- What a suggestion was made from. -/
structure SuggestionBasis where
  current : Option (Digest ManagedPlanningEvent)
  proposed : Option (Digest ManagedPlanningEvent)
  revision : Nat
deriving DecidableEq

structure Suggestion where
  id : String
  ruleId : String
  plannedEventId : String
  basisHash : Digest SuggestionBasis
  proposedState : Option ManagedPlanningEvent
  status : SuggestionStatus
  expiresAt : Instant
deriving DecidableEq

end Planipus.Planning

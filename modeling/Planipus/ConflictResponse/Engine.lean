import Mathlib.Algebra.GroupWithZero.Nat
import Planipus.Ingest.State
import Planipus.Policy.Protection

/-!
# Invitations and private availability

The pure part of conflict response (`server/src/conflict-response/engine.ts`) and the reading of
free/busy answers (`queryOpaqueAvailability` in `server/src/conflict-response/inputs.ts`). A free/busy
answer is what the provider adapter returned; instants that do not parse are `none`.
-/

namespace Planipus.ConflictResponse

open CalendarSync Sync Library Policy.Protection

structure ConflictResponseDraft extends ConflictDraft where
  declineMessage : String
  horizonDays : Nat
deriving DecidableEq

def maxAutomaticDeclinesPer24Hours : Nat := 20
def maxDeclinableInvitationMilliseconds : Int := 7 * 24 * 60 * 60000
def freebusyIntervalLimit : Nat := 50000

/-! ## Invitations -/

/-- A row of `source_observations` of the response calendar. -/
structure WorkObservation where
  id : Nat
  remoteEventId : String
  recurrenceIdentity : String
  remoteEtag : Option String
  observation : ObservationRow
  managedCopy : Bool
deriving DecidableEq

structure WorkInvitation where
  observationId : Nat
  remoteEventId : String
  recurrenceIdentity : String
  observationHash : Digest SourceObservation
  remoteRevision : Option String
  startAt : Instant
  endAt : Instant
deriving DecidableEq

def isEligibleWorkInvitation (event : SourceObservation) (now horizonEnd : Instant) : Bool :=
  event.lifecycle = .confirmed && event.origin = .providerOriginal &&
    event.availability = some .busy &&
    event.relationship.role = .attendee && event.relationship.response = .needsAction &&
    match event.timing with
    | some (.timed start finish _ _) =>
      start < finish && now < start && start < horizonEnd && finish ≤ horizonEnd &&
        finish - start ≤ maxDeclinableInvitationMilliseconds
    | _ => false

def workInvitationCandidate (row : WorkObservation) (now horizonEnd : Instant) :
    Option WorkInvitation :=
  let event := row.observation.normalizedEvent
  if isEligibleWorkInvitation event now horizonEnd && event.sourceEventRef = row.remoteEventId then
    match event.timing with
    | some (.timed start finish _ _) => some
        { observationId := row.id
          remoteEventId := row.remoteEventId
          recurrenceIdentity := row.recurrenceIdentity
          observationHash := row.observation.observationHash
          remoteRevision := row.remoteEtag
          startAt := start
          endAt := finish }
    | _ => none
  else none

def horizonEnd (now : Instant) (draft : ConflictResponseDraft) : Instant :=
  now + draft.horizonDays * 86400000

/-! ## Private availability -/

structure BusyInterval where
  calendarId : String
  start : Instant
  finish : Instant
deriving DecidableEq

def intervalsOverlap (leftStart leftEnd rightStart rightEnd : Instant) : Bool :=
  leftStart < leftEnd && rightStart < rightEnd && leftStart < rightEnd && rightStart < leftEnd

def overlappingBusyIntervals (invitation : WorkInvitation) (busy : List BusyInterval) :
    List BusyInterval :=
  busy.filter fun interval =>
    intervalsOverlap invitation.startAt invitation.endAt interval.start interval.finish

structure FreeBusyCalendar where
  calendarId : String
  busy : List (Option Instant × Option Instant)
deriving DecidableEq

/-- What `queryFreeBusy` returns. -/
structure FreeBusyAnswer where
  timeMin : Option Instant
  timeMax : Option Instant
  calendars : List FreeBusyCalendar
deriving DecidableEq

/-- An error of a provider or of the input checks, by its code. -/
structure SafeError where
  code : String
  retryable : Bool
  ambiguous : Bool := false
deriving DecidableEq

/-- The calendars of one connection, which are asked for together. -/
def groupKey (calendar : EndpointRow) : Policy.CalendarProvider × String :=
  (calendar.provider, calendar.connectionId)

/-- The groups, in the order of their first calendars. -/
def groups : List EndpointRow → List (List EndpointRow)
  | [] => []
  | calendar :: rest =>
    match (groups rest).partition fun group => group.any fun c => groupKey c = groupKey calendar with
    | (same, others) => (calendar :: same.flatten) :: others

/-- An interval of an answer, checked and with the local ID of its calendar. -/
def checkedInterval (calendarId : String) (timeMin timeMax : Instant) :
    Option Instant × Option Instant → Except SafeError BusyInterval
  | (some start, some finish) =>
    if start ≥ finish then .error ⟨"freebusy_invalid", true, false⟩
    else if start < timeMin ∨ finish > timeMax then .error ⟨"freebusy_bounds_invalid", false, false⟩
    else .ok ⟨calendarId, start, finish⟩
  | _ => .error ⟨"freebusy_invalid", true, false⟩

/-- The answer is about the calendars of the group, and all of them. -/
def FreeBusyAnswer.complete (answer : FreeBusyAnswer) (group : List EndpointRow) : Bool :=
  answer.calendars.length = group.length && (answer.calendars.map (·.calendarId)).Nodup &&
    answer.calendars.all fun calendar => group.any fun local' => local'.remoteId = calendar.calendarId

/-- The intervals of a group with their number, or the error of its answer. -/
def readGroup (group : List EndpointRow) (timeMin timeMax : Instant) (count : Nat)
    (answer : Except SafeError FreeBusyAnswer) : Except SafeError (Nat × List BusyInterval) := do
  let result ← answer
  if result.timeMin ≠ some timeMin ∨ result.timeMax ≠ some timeMax then
    throw ⟨"freebusy_bounds_invalid", false, false⟩
  if !result.complete group then throw ⟨"freebusy_incomplete", true, false⟩
  let total := count + (result.calendars.map (·.busy.length)).sum
  if total > freebusyIntervalLimit then throw ⟨"freebusy_too_large", false, false⟩
  let intervals ← result.calendars.mapM fun calendar =>
    calendar.busy.mapM (checkedInterval
      (((group.find? (·.remoteId = calendar.calendarId)).map (·.id)).getD "") timeMin timeMax)
  return (total, intervals.flatten)

/-- The answers of the groups in their order; every group needs one. -/
def readGroups (timeMin timeMax : Instant) :
    List (List EndpointRow) → Nat → List (Except SafeError FreeBusyAnswer) →
      Except SafeError (List BusyInterval)
  | [], _, _ => .ok []
  | _ :: _, _, [] => .error ⟨"freebusy_unavailable", true, false⟩
  | group :: rest, count, answer :: answers => do
    let (count, intervals) ← readGroup group timeMin timeMax count answer
    return intervals ++ (← readGroups timeMin timeMax rest count answers)

def BusyInterval.before (a b : BusyInterval) : Bool :=
  a.calendarId < b.calendarId || (a.calendarId = b.calendarId &&
    (a.start < b.start || (a.start = b.start && a.finish ≤ b.finish)))

/-- The intervals of all availability calendars, sorted. -/
def queryOpaqueAvailability (calendars : List EndpointRow) (timeMin timeMax : Instant)
    (answers : List (Except SafeError FreeBusyAnswer)) : Except SafeError (List BusyInterval) :=
  (readGroups timeMin timeMax (groups calendars) 0 answers).map fun busy =>
    busy.insertionSort fun a b => a.before b

/-! ## Conflicts -/

structure Conflict where
  invitation : WorkInvitation
  overlappingBusy : List BusyInterval
deriving DecidableEq

/-- What `conflictActionBasisDocument` and the private hash keep apart. -/
structure ConflictBasis where
  ruleId : Nat
  ruleRevision : Nat
  workObservationHash : Digest SourceObservation
  workStartAt : Instant
  workEndAt : Instant
  busy : List BusyInterval
deriving DecidableEq

def conflictsOf (invitations : List WorkInvitation) (busy : List BusyInterval) : List Conflict :=
  (invitations.map fun invitation =>
    (⟨invitation, overlappingBusyIntervals invitation busy⟩ : Conflict)).filter fun conflict =>
      !conflict.overlappingBusy.isEmpty

/-! ## Preview -/

def previewExampleLimit : Nat := 3

/-- Nothing guards a reply against a change of the invitation. -/
def WorkInvitation.unguarded (invitation : WorkInvitation) : Bool :=
  (invitation.remoteRevision.filter (· ≠ "")).isNone

structure ConflictTimeExample where
  startAt : Instant
  endAt : Instant
deriving DecidableEq

structure ConflictPreviewResult where
  invitationCount : Nat
  conflictCount : Nat
  heldCount : Nat
  budgetHeldCount : Nat
  examples : List ConflictTimeExample
  warnings : List String
deriving DecidableEq

def conflictPreviewResult (invitations : List WorkInvitation) (busy : List BusyInterval)
    (automaticDeclinesAppliedLast24Hours : Nat := 0) : ConflictPreviewResult :=
  let conflicts := conflictsOf invitations busy
  let revisionGuardHeldCount := (conflicts.filter (·.invitation.unguarded)).length
  let guardedConflictCount := conflicts.length - revisionGuardHeldCount
  let remainingBudget := maxAutomaticDeclinesPer24Hours - automaticDeclinesAppliedLast24Hours
  let budgetHeldCount := guardedConflictCount - remainingBudget
  { invitationCount := invitations.length
    conflictCount := conflicts.length
    heldCount := revisionGuardHeldCount + budgetHeldCount
    budgetHeldCount
    examples := (conflicts.take previewExampleLimit).map fun conflict =>
      ⟨conflict.invitation.startAt, conflict.invitation.endAt⟩
    warnings :=
      ["This private-reply rule creates no event copies or event-detail copies; existing paused-bridge copies may remain.",
        "Only future invitations that are still awaiting your response can be declined."] ++
      if budgetHeldCount > 0 then ["automatic_decline_budget_will_hold_excess"] else [] }

end Planipus.ConflictResponse

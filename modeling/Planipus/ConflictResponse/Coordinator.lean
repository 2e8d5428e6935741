import Planipus.ConflictResponse.Engine
import Planipus.Library.Rolling

/-!
# Automatic declines

`ConflictResponseCoordinator` (`server/src/conflict-response/coordinator.ts`) with the requests that
change its rules, over one organization. `apply` is one transaction: it locks the action with its rule
and then the observation, asks for free/busy times and declines at the provider before it commits, and
a crash or an error on the way rolls it back while the provider keeps what it has done. A decline is
three requests (`declineInvitation` in `server/src/providers/google/calendar.ts`): a read, a write
that names the revision it has read, and a read that verifies it. `reconcile` reads first and then
decides in one transaction under the lock of its rule; what it reads are rows that somebody has
committed at some time, so they are a part of the event.

`effects` is no table: it is what automatic declines have changed at the provider, with the time at
which a fact of the budget was written for it.
-/

namespace Planipus.ConflictResponse

open CalendarSync Sync Library Policy.Protection

abbrev RuleStatus := Policy.RuleStatus

/-! ## Tables -/

/-- A row of `conflict_response_rules`. `ruleDocument` is `none` where it does not parse. -/
structure Rule where
  id : Nat
  responseProviderIdentity : String
  status : RuleStatus
  revision : Nat
  ruleDocument : Option ConflictResponseDraft
deriving DecidableEq

inductive ActionStatus | pending | applied | superseded | held
deriving DecidableEq

/-- A row of `invitation_response_actions`. -/
structure Action where
  id : Nat
  ruleId : Nat
  ruleRevision : Nat
  responseCalendarId : String
  observationId : Nat
  remoteEventId : String
  recurrenceIdentity : String
  observationHash : Digest SourceObservation
  basis : ConflictBasis
  expectedRevision : Option String
  comment : String
  status : ActionStatus
  safeErrorCode : Option String
deriving DecidableEq

/-- A row of `audit_facts` with the action `invitation_response.declined`. -/
structure DeclineFact where
  actionId : Nat
  createdAt : Instant
deriving DecidableEq

structure Database where
  endpoints : List EndpointRow
  policies : List BridgeRow
  rules : List Rule
  actions : List Action
  observations : List WorkObservation
  facts : List DeclineFact

/-! ## The provider -/

inductive AttendeeStatus | needsAction | declined | accepted | tentative
deriving DecidableEq

/-- An event of the response calendar at the provider, as far as a decline reads it. -/
structure RemoteInvitation where
  cancelled : Bool
  organizerSelf : Bool
  /-- The attendee that is the account itself, with an address: its response and its comment. -/
  self : Option (AttendeeStatus × String)
  etag : String
  /-- The revisions that the event has had, with the present one. -/
  revisions : List String
deriving DecidableEq

/-- An automatic decline that has taken effect. -/
structure Effect where
  identity : String
  actionId : Nat
  at_ : Instant
  recordedAt : Option Instant
deriving DecidableEq

/-! ## Passes -/

/-- What `apply` knows of its action after the locks. -/
structure Attempt where
  action : Action
  rule : Rule
  draft : ConflictResponseDraft
  now : Instant

/-- What it knows after the observation has been looked at. -/
structure Target extends Attempt where
  row : WorkObservation
  invitation : WorkInvitation

/-- What it knows when it declines. -/
structure Declining extends Target where
  response : EndpointRow
  availability : List EndpointRow
  answers : List (Except SafeError FreeBusyAnswer)
  answeredAt : Instant
  busy : List BusyInterval

inductive Pass
  | apply (actionId : Nat) (basis : ConflictBasis) (now : Instant)
  | observing (attempt : Attempt)
  | selecting (target : Target)
  | querying (target : Target) (response : EndpointRow) (availability : List EndpointRow)
  /-- The next step is the first request of `declineInvitation`. -/
  | declining (declining : Declining)
  | patching (declining : Declining) (revision : String)
  | verifying (declining : Declining) (error : SafeError)
  /-- `reconcile` has read its rule. -/
  | preparing (rule : Rule) (draft : ConflictResponseDraft) (now : Instant)
  | deciding (rule : Rule) (draft : ConflictResponseDraft) (now : Instant)
      (conflicts : List Conflict)
  | failing (ruleId : Nat) (code : String)

abbrev PassId := Nat

inductive RowKey | rule (id : Nat) | action (id : Nat) | observation (id : Nat)
deriving DecidableEq

structure State where
  db : Database
  remote : String → String → Option RemoteInvitation
  effects : List Effect
  clock : Instant
  passes : PassId → Option Pass
  locks : LockTable RowKey PassId
  nextId : Nat

namespace State

def goto (s : State) (p : PassId) (pass : Pass) : State :=
  { s with passes := Function.update s.passes p (some pass) }

/-- The end of a pass. -/
def close (s : State) (p : PassId) : State :=
  { s with passes := Function.update s.passes p none, locks := s.locks.release p }

def setRemote (s : State) (calendarIdentity eventId : String)
    (invitation : Option RemoteInvitation) : State :=
  let calendar := Function.update (s.remote calendarIdentity) eventId invitation
  { s with remote := Function.update s.remote calendarIdentity calendar }

/-- The action has a decline that no fact of the budget counts. -/
def unrecorded (s : State) (actionId : Nat) : Bool :=
  s.effects.any fun e => e.actionId = actionId && e.recordedAt.isNone

end State

/-! ## `apply` -/

/-- What a step of `apply` decides. -/
inductive Verdict
  | wait
  | goto (pass : Pass)
  /-- The pass locks the rows and goes on. -/
  | lock (keys : List RowKey) (pass : Pass)
  /-- `return`, or a rollback. -/
  | done
  | hold (action : Action) (code : String)
  | supersede (action : Action) (code : String)
  | applied (declining : Declining) (commentRetained : Bool)

section Apply

variable (organizationId : String) (writesEnabled : Bool)

/-- The locks of the action and its rule, and what is checked under them. -/
def lockVerdict (s : State) (p : PassId) (actionId : Nat) (basis : ConflictBasis) (now : Instant) :
    Verdict :=
  match s.db.actions.find? (·.id = actionId) with
  | none => .done
  | some action =>
    match s.db.rules.find? (·.id = action.ruleId) with
    | none => .done
    | some rule =>
      if s.locks.available (.action action.id) p && s.locks.available (.rule rule.id) p then
        if action.status ≠ .pending ∨ rule.status ≠ .active ∨ action.ruleRevision ≠ rule.revision ∨
            action.basis ≠ basis then
          .done
        else if !writesEnabled then .hold action "invitation_writes_disabled"
        else
          match rule.ruleDocument with
          | none => .hold action "invalid_conflict_response_rule"
          | some draft =>
            if draft.responseCalendarId ≠ action.responseCalendarId then
              .hold action "response_calendar_changed"
            else .lock [.action action.id, .rule rule.id] (.observing ⟨action, rule, draft, now⟩)
      else .wait

def observeVerdict (s : State) (p : PassId) (attempt : Attempt) : Verdict :=
  match s.db.observations.find? (·.id = attempt.action.observationId) with
  | none => .supersede attempt.action "work_invitation_no_longer_eligible"
  | some row =>
    if s.locks.available (.observation row.id) p then
      match workInvitationCandidate row attempt.now (horizonEnd attempt.now attempt.draft) with
      | none => .supersede attempt.action "work_invitation_no_longer_eligible"
      | some invitation =>
        if row.managedCopy ∨ row.observation.tombstone ∨
            invitation.observationHash ≠ attempt.action.observationHash ∨
            invitation.remoteEventId ≠ attempt.action.remoteEventId ∨
            invitation.recurrenceIdentity ≠ attempt.action.recurrenceIdentity then
          .supersede attempt.action "work_invitation_no_longer_eligible"
        else if (invitation.remoteRevision.filter (· ≠ "")).isNone ∨
            invitation.remoteRevision ≠ attempt.action.expectedRevision then
          .hold attempt.action "work_invitation_changed"
        else .lock [.observation row.id] (.selecting { attempt with row, invitation })
    else .wait

def conflictErrorText : ConflictErrorCode → String
  | .calendarNotFound => "calendar_not_found"
  | .responseCalendarUnavailable => "response_calendar_unavailable"
  | .sameProviderCalendar => "same_provider_calendar"
  | .availabilityCalendarUnavailable => "availability_calendar_unavailable"
  | .availabilityScopeMissing => "availability_scope_missing"
  | .availabilityCopyFeedback => "availability_copy_feedback"
  | .copyPolicyConflict => "copy_policy_conflict"

def selectVerdict (s : State) (target : Target) : Verdict :=
  match loadConflictCalendarSelection s.db.endpoints organizationId target.draft.toConflictDraft with
  | .error e => .hold target.action (conflictErrorText e.code)
  | .ok (response, availability) =>
    match requireNoCopyPolicies s.db.policies organizationId availability with
    | .error e => .hold target.action (conflictErrorText e.code)
    | .ok _ => .goto (.querying target response availability)

def queryVerdict (s : State) (target : Target) (response : EndpointRow)
    (availability : List EndpointRow) (answers : List (Except SafeError FreeBusyAnswer)) :
    Verdict :=
  match queryOpaqueAvailability availability target.invitation.startAt target.invitation.endAt
      answers with
  | .error e => if e.retryable then .done else .hold target.action e.code
  | .ok busy =>
    if overlappingBusyIntervals target.invitation busy = [] then
      .supersede target.action "conflict_no_longer_present"
    else
      .goto (.declining
        { target with response, availability, answers, answeredAt := s.clock, busy })

/-! ## `declineInvitation` -/

/-- The `catch` around `declineInvitation`. -/
def declineError (declining : Declining) (e : SafeError) : Verdict :=
  if !e.retryable && !e.ambiguous then .hold declining.action e.code else .done

/-- `requireRespondableInvitation`. -/
def respondable (invitation : RemoteInvitation) : Except SafeError (AttendeeStatus × String) :=
  if invitation.cancelled then .error ⟨"invitation_cancelled", false, false⟩
  else
    match invitation.organizerSelf, invitation.self with
    | false, some self => .ok self
    | _, _ => .error ⟨"not_invitation", false, false⟩

/-- The event that the action is about. -/
def remoteOf (s : State) (declining : Declining) : Option RemoteInvitation :=
  s.remote (identity declining.response) declining.action.remoteEventId

/-- A read of the event: it arrives, or fails. -/
def readInvitation (s : State) (declining : Declining) (reply : Except SafeError Unit) :
    Except SafeError RemoteInvitation :=
  match reply, remoteOf s declining with
  | .error e, _ => .error e
  | .ok (), none => .error ⟨"not_found", false, false⟩
  | .ok (), some invitation => .ok invitation

/-- The first read. -/
def declineVerdict (s : State) (declining : Declining) (reply : Except SafeError Unit) : Verdict :=
  match readInvitation s declining reply with
  | .error e => declineError declining e
  | .ok invitation =>
    match respondable invitation with
    | .error e => declineError declining e
    | .ok (.declined, comment) => .applied declining (comment = declining.action.comment)
    | .ok (.needsAction, _) =>
      if declining.invitation.remoteRevision ≠ some invitation.etag then
        declineError declining ⟨"precondition_failed", false, false⟩
      else .goto (.patching declining invitation.etag)
    | .ok (_, _) => declineError declining ⟨"invitation_already_answered", false, false⟩

/-- The write answers. -/
def patchVerdict (declining : Declining) : Except SafeError Unit → Verdict
  | .ok () => .goto (.verifying declining ⟨"ambiguous_decline_verification", true, true⟩)
  | .error e => if e.ambiguous then .goto (.verifying declining e) else declineError declining e

/-- The read that verifies. -/
def verifyVerdict (s : State) (declining : Declining) (error : SafeError)
    (reply : Except SafeError Unit) : Verdict :=
  match readInvitation s declining reply with
  | .error _ => declineError declining error
  | .ok invitation =>
    match respondable invitation with
    | .error e => declineError declining e
    | .ok (.declined, comment) => .applied declining (comment = declining.action.comment)
    | .ok (.needsAction, _) => declineError declining error
    | .ok (_, _) => declineError declining ⟨"invitation_already_answered", false, false⟩

/-- The answer does not say that the write has been refused. -/
def maybeWritten : Except SafeError Unit → Bool
  | .ok () => true
  | .error e => e.ambiguous

/-- The write reaches the event, whose revision it names. -/
def patchReaches (s : State) (declining : Declining) (revision newEtag : String) : Bool :=
  (remoteOf s declining).any fun invitation =>
    invitation.etag = revision && newEtag ∉ invitation.revisions

/-- The event after the decline. -/
def RemoteInvitation.decline (comment newEtag : String) (invitation : RemoteInvitation) :
    RemoteInvitation :=
  { invitation with
    self := some (.declined, comment)
    etag := newEtag
    revisions := newEtag :: invitation.revisions }

def takeEffect (s : State) (declining : Declining) (newEtag : String) : State :=
  let calendarIdentity := identity declining.response
  let invitation := (remoteOf s declining).map (·.decline declining.action.comment newEtag)
  let effect : Effect := ⟨calendarIdentity, declining.action.id, s.clock, none⟩
  { s.setRemote calendarIdentity declining.action.remoteEventId invitation with
    effects := s.effects ++ [effect] }

end Apply

/-! ## Statuses -/

def setActionStatus (status : ActionStatus) (code : Option String) (action : Action) : Action :=
  { action with status, safeErrorCode := code }

/-- The actions of a rule in the statuses take another one. -/
def settleActions (ruleId : Nat) (statuses : List ActionStatus) (status : ActionStatus)
    (code : String) (actions : List Action) : List Action :=
  actions.map fun action =>
    if action.ruleId = ruleId ∧ action.status ∈ statuses then setActionStatus status (some code) action
    else action

/-- The end of `apply` after a verified decline. -/
def recordDecline (s : State) (declining : Declining) (commentRetained : Bool) : State :=
  { s with
    db := { s.db with
      actions := updateRow (·.id) declining.action.id
        (setActionStatus .applied
          (if commentRetained then none else some "decline_comment_not_retained")) s.db.actions
      facts := s.db.facts ++ [⟨declining.action.id, s.clock⟩] }
    effects := s.effects.map fun e =>
      if e.actionId = declining.action.id ∧ e.recordedAt = none then
        { e with recordedAt := some s.clock }
      else e }

def setStatus (s : State) (action : Action) (status : ActionStatus) (code : String) : State :=
  { s with db := { s.db with
    actions := updateRow (·.id) action.id (setActionStatus status (some code)) s.db.actions } }

def perform (s : State) (p : PassId) : Verdict → State
  | .wait => s
  | .goto pass => s.goto p pass
  | .lock keys pass =>
    ({ s with locks := s.locks.acquireAll keys p }).goto p pass
  | .done => s.close p
  | .hold action code => (setStatus s action .held code).close p
  | .supersede action code => (setStatus s action .superseded code).close p
  | .applied declining commentRetained => (recordDecline s declining commentRetained).close p

/-! ## `reconcile` -/

/-- `countRecentAppliedDeclines`: the facts whose action is of a rule with the identity. -/
def countRecentAppliedDeclines (db : Database) (responseProviderIdentity : String) (now : Instant) :
    Nat :=
  (db.facts.filter fun fact => decide (now - 24 * 60 * 60000 ≤ fact.createdAt) &&
    db.actions.any fun action => action.id = fact.actionId && db.rules.any fun rule =>
      rule.id = action.ruleId && rule.responseProviderIdentity = responseProviderIdentity).length

def basisOf (rule : Rule) (conflict : Conflict) : ConflictBasis :=
  { ruleId := rule.id
    ruleRevision := rule.revision
    workObservationHash := conflict.invitation.observationHash
    workStartAt := conflict.invitation.startAt
    workEndAt := conflict.invitation.endAt
    busy := conflict.overlappingBusy }

/-- The conflict has been declined already, as it is. -/
def answered (rule : Rule) (draft : ConflictResponseDraft) (conflict : Conflict) (prior : Action) :
    Bool :=
  prior.status = .applied && prior.ruleRevision = rule.revision &&
    prior.observationHash = conflict.invitation.observationHash &&
    prior.basis = basisOf rule conflict && prior.comment = draft.declineMessage

/-- The action of the rule for the observation of the conflict. -/
def priorAction (actions : List Action) (rule : Rule) (conflict : Conflict) : Option Action :=
  actions.find? fun action =>
    action.ruleId = rule.id && action.observationId = conflict.invitation.observationId

/-- The status that a conflict gets while `reserved` declines are counted or planned. -/
def decidedStatus (reserved : Nat) (conflict : Conflict) : ActionStatus × Option String :=
  if (conflict.invitation.remoteRevision.filter (· ≠ "")).isNone then
    (.held, some "work_revision_missing")
  else if reserved < maxAutomaticDeclinesPer24Hours then (.pending, none)
  else (.held, some "automatic_decline_budget_exceeded")

def decidedAction (rule : Rule) (draft : ConflictResponseDraft) (conflict : Conflict) (id : Nat)
    (status : ActionStatus × Option String) : Action :=
  { id
    ruleId := rule.id
    ruleRevision := rule.revision
    responseCalendarId := draft.responseCalendarId
    observationId := conflict.invitation.observationId
    remoteEventId := conflict.invitation.remoteEventId
    recurrenceIdentity := conflict.invitation.recurrenceIdentity
    observationHash := conflict.invitation.observationHash
    basis := basisOf rule conflict
    expectedRevision := conflict.invitation.remoteRevision
    comment := draft.declineMessage
    status := status.1
    safeErrorCode := status.2 }

/-- The loop over the conflicts. -/
structure Decisions where
  actions : List Action
  /-- The observations whose actions are current. -/
  current : List Nat
  reserved : Nat
  nextId : Nat

def decideConflict (existing : List Action) (rule : Rule) (draft : ConflictResponseDraft)
    (d : Decisions) (conflict : Conflict) : Decisions :=
  let prior := priorAction existing rule conflict
  let current := conflict.invitation.observationId :: d.current
  if prior.any (answered rule draft conflict) then { d with current }
  else
    let status := decidedStatus d.reserved conflict
    { actions := upsertRow (fun a : Action => (a.ruleId, a.observationId))
        (decidedAction rule draft conflict ((prior.map (·.id)).getD d.nextId) status) d.actions
      current
      reserved := if status.1 = .pending then d.reserved + 1 else d.reserved
      nextId := d.nextId + 1 }

def decideConflicts (s : State) (rule : Rule) (draft : ConflictResponseDraft) (now : Instant)
    (conflicts : List Conflict) : Decisions :=
  conflicts.foldl (decideConflict s.db.actions rule draft)
    ⟨s.db.actions, [], countRecentAppliedDeclines s.db rule.responseProviderIdentity now, s.nextId⟩

/-- What the loop reports in the audit fact of `reconcile`. -/
structure ReconcileCounts where
  pending : Nat
  held : Nat
  budgetHeld : Nat
deriving DecidableEq

def ReconcileCounts.add (counts : ReconcileCounts) : ActionStatus × Option String → ReconcileCounts
  | (.pending, _) => { counts with pending := counts.pending + 1 }
  | (_, reason) =>
    { counts with
      held := counts.held + 1
      budgetHeld := if reason = some "automatic_decline_budget_exceeded" then counts.budgetHeld + 1
        else counts.budgetHeld }

/-- The loop with its counts. -/
def countConflict (existing : List Action) (rule : Rule) (draft : ConflictResponseDraft)
    (d : Decisions × ReconcileCounts) (conflict : Conflict) : Decisions × ReconcileCounts :=
  (decideConflict existing rule draft d.1 conflict,
    if (priorAction existing rule conflict).any (answered rule draft conflict) then d.2
    else d.2.add (decidedStatus d.1.reserved conflict))

def countConflicts (s : State) (rule : Rule) (draft : ConflictResponseDraft) (now : Instant)
    (conflicts : List Conflict) : Decisions × ReconcileCounts :=
  conflicts.foldl (countConflict s.db.actions rule draft)
    (⟨s.db.actions, [], countRecentAppliedDeclines s.db rule.responseProviderIdentity now, s.nextId⟩,
      ⟨0, 0, 0⟩)

/-- What is no conflict any more is superseded. -/
def supersedeStale (ruleId : Nat) (current : List Nat) (actions : List Action) : List Action :=
  actions.map fun action =>
    if action.ruleId = ruleId ∧ (action.status = .pending ∨ action.status = .held) ∧
        action.observationId ∉ current then
      setActionStatus .superseded (some "conflict_no_longer_present") action
    else action

def reconciled (s : State) (rule : Rule) (draft : ConflictResponseDraft) (now : Instant)
    (conflicts : List Conflict) : State :=
  let d := decideConflicts s rule draft now conflicts
  { s with
    db := { s.db with actions := supersedeStale rule.id d.current d.actions }
    nextId := d.nextId }

/-- The rows that a transaction on a rule and its actions locks are free. -/
def ruleFree (s : State) (p : PassId) (ruleId : Nat) : Bool :=
  s.locks.available (.rule ruleId) p && s.db.actions.all fun action =>
    action.ruleId ≠ ruleId || s.locks.available (.action action.id) p

/-- The rule is still what `reconcile` has read. -/
def stillCurrent (s : State) (rule : Rule) : Bool :=
  s.db.rules.any fun current =>
    current.id = rule.id && current.status = .active && current.revision = rule.revision

/-- What `prepareConflictResponseInput` makes of the rows and answers it has read. -/
def preparedConflicts (draft : ConflictResponseDraft) (now : Instant)
    (rows : List WorkObservation) (availability : List EndpointRow)
    (answers : List (Except SafeError FreeBusyAnswer)) : Except SafeError (List Conflict) :=
  let invitations := rows.filterMap fun row =>
    if row.managedCopy || row.observation.tombstone then none
    else workInvitationCandidate row now (horizonEnd now draft)
  let availabilityEnd := invitations.foldl (fun m i => max m i.endAt) (horizonEnd now draft)
  (queryOpaqueAvailability availability now availabilityEnd answers).map
    (conflictsOf invitations)

/-! ## The machine -/

inductive Event
  | tick (milliseconds : Nat)
  | startApply (p : PassId) (actionId : Nat) (basis : ConflictBasis)
  | startReconcile (p : PassId) (ruleId : Nat)
  | run (p : PassId)
  /-- What `reconcile` has read: rows of the table, each once, and the answers. -/
  | prepare (p : PassId) (rows : List WorkObservation) (availability : List EndpointRow)
      (answers : List (Except SafeError FreeBusyAnswer))
  | freeBusy (p : PassId) (answers : List (Except SafeError FreeBusyAnswer))
  | read (p : PassId) (reply : Except SafeError Unit)
  /-- The write of a decline reaches the provider or not, and answers or not. -/
  | patch (p : PassId) (delivered : Bool) (newEtag : String) (reply : Except SafeError Unit)
  | stop (p : PassId)
  | activateRule (draft : ConflictResponseDraft)
  | pauseRule (ruleId : Nat)
  | resumeRule (ruleId : Nat)
  | removeRule (ruleId : Nat)
  /-- A page of `syncCalendar` writes a row. -/
  | observe (row : WorkObservation)
  | discover (endpoint : EndpointRow)
  | setPolicies (policies : List BridgeRow)
  /-- Somebody else changes an event. -/
  | changeRemote (calendarIdentity eventId : String) (invitation : RemoteInvitation)

section Machine

variable (organizationId : String) (writesEnabled : Bool)

/-- The verdict of the next step of `apply`, for the steps that decide. -/
def verdictOf (s : State) : Event → Option (PassId × Verdict)
  | .run p =>
    match s.passes p with
    | some (.apply actionId basis now) => some (p, lockVerdict writesEnabled s p actionId basis now)
    | some (.observing attempt) => some (p, observeVerdict s p attempt)
    | some (.selecting target) => some (p, selectVerdict organizationId s target)
    | _ => none
  | .freeBusy p answers =>
    match s.passes p with
    | some (.querying target response availability) =>
      some (p, queryVerdict s target response availability answers)
    | _ => none
  | .read p reply =>
    match s.passes p with
    | some (.declining declining) => some (p, declineVerdict s declining reply)
    | some (.verifying declining error) => some (p, verifyVerdict s declining error reply)
    | _ => none
  | .patch p _ _ reply =>
    match s.passes p with
    | some (.patching declining _) => some (p, patchVerdict declining reply)
    | _ => none
  | _ => none

/-- What the write of a decline changes before it is answered. -/
def patched (s : State) : Event → State
  | .patch p delivered newEtag reply =>
    match s.passes p with
    | some (.patching declining revision) =>
      if delivered && maybeWritten reply && patchReaches s declining revision newEtag then
        takeEffect s declining newEtag
      else s
    | _ => s
  | _ => s

def setRuleStatus (s : State) (ruleId : Nat) (status : RuleStatus) : State :=
  { s with db := { s.db with
    rules := updateRow (·.id) ruleId ({ · with status }) s.db.rules } }

/-- The rule is live and nobody has locked it or one of its actions. -/
def ruleChangeable (s : State) (ruleId : Nat) : Bool :=
  s.locks (.rule ruleId) = none && s.db.actions.all (fun action =>
    action.ruleId ≠ ruleId || s.locks (.action action.id) = none) &&
    s.db.rules.any (fun rule => rule.id = ruleId && rule.status ≠ .deleted)

def ruleActive (s : State) (ruleId : Nat) : Bool :=
  s.db.rules.any fun rule => rule.id = ruleId && rule.status = .active

def runReconcile (s : State) (p : PassId) : Pass → State
  | .deciding rule draft now conflicts =>
    if ruleFree s p rule.id then
      if stillCurrent s rule then (reconciled s rule draft now conflicts).close p else s.close p
    else s
  | .failing ruleId code =>
    if ruleFree s p ruleId then
      if ruleActive s ruleId then
        ({ s with db := { s.db with
          actions := settleActions ruleId [.pending] .held code s.db.actions } }).close p
      else s.close p
    else s
  | _ => s

/-- The calendars of the draft are usable and no bridge takes from them. -/
def selectable (db : Database) (draft : ConflictResponseDraft) : Bool :=
  match loadConflictCalendarSelection db.endpoints organizationId draft.toConflictDraft with
  | .error _ => false
  | .ok (_, availability) =>
    match requireNoCopyPolicies db.policies organizationId availability with
    | .error _ => false
    | .ok _ => true

def request (s : State) : Event → State
  | .startApply p actionId basis =>
    match s.passes p with
    | none => s.goto p (.apply actionId basis s.clock)
    | some _ => s
  | .startReconcile p ruleId =>
    match s.passes p, s.db.rules.find? (·.id = ruleId) with
    | none, some rule =>
      if rule.status = .active then
        match rule.ruleDocument with
        | some draft => s.goto p (.preparing rule draft s.clock)
        | none => s.goto p (.failing rule.id "invalid_conflict_response_rule")
      else s
    | _, _ => s
  | .prepare p rows availability answers =>
    match s.passes p with
    | some (.preparing rule draft now) =>
      if (rows.map (·.id)).Nodup then
        match preparedConflicts draft now rows availability answers with
        | .ok conflicts => s.goto p (.deciding rule draft now conflicts)
        | .error e => s.goto p (.failing rule.id e.code)
      else s
    | _ => s
  | .run p =>
    match s.passes p with
    | some pass => runReconcile s p pass
    | none => s
  | .stop p => s.close p
  | .tick milliseconds => { s with clock := s.clock + milliseconds }
  | .activateRule draft =>
    match loadConflictCalendarSelection s.db.endpoints organizationId draft.toConflictDraft with
    | .error _ => s
    | .ok (response, _) =>
      -- One live rule for a provider calendar: the unique index.
      if !writesEnabled || !selectable organizationId s.db draft || (s.db.rules.any fun rule =>
          rule.status ≠ .deleted && rule.responseProviderIdentity = identity response) then
        s
      else
        { s with
          db := { s.db with
            rules := s.db.rules ++ [⟨s.nextId, identity response, .active, 1, some draft⟩] }
          nextId := s.nextId + 1 }
  | .pauseRule ruleId =>
    if ruleChangeable s ruleId then
      setRuleStatus { s with db := { s.db with
        actions := settleActions ruleId [.pending] .held "rule_paused" s.db.actions } } ruleId .paused
    else s
  | .resumeRule ruleId =>
    if writesEnabled && s.locks (.rule ruleId) = none &&
        s.db.rules.any (fun rule => rule.id = ruleId && rule.status ≠ .deleted &&
          rule.ruleDocument.any (selectable organizationId s.db)) then
      setRuleStatus s ruleId .active
    else s
  | .removeRule ruleId =>
    if ruleChangeable s ruleId then
      setRuleStatus { s with db := { s.db with
        actions := settleActions ruleId [.pending, .held] .superseded "rule_deleted" s.db.actions } }
        ruleId .deleted
    else s
  | .observe row =>
    if s.locks (.observation row.id) = none then
      { s with db := { s.db with observations := upsertRow (·.id) row s.db.observations } }
    else s
  | .discover endpoint =>
    { s with db := { s.db with
      endpoints := (discover ⟨s.db.endpoints, [], []⟩ endpoint).endpoints } }
  | .setPolicies policies => { s with db := { s.db with policies } }
  | .changeRemote calendarIdentity eventId invitation =>
    -- A change has a revision of its own.
    let before := (s.remote calendarIdentity eventId).elim [] (·.revisions)
    if invitation.etag ∉ before ∧ invitation.revisions = invitation.etag :: before then
      s.setRemote calendarIdentity eventId (some invitation)
    else s
  | _ => s

def step (s : State) (event : Event) : State :=
  match verdictOf organizationId writesEnabled s event with
  | some (p, verdict) => perform (patched s event) p verdict
  | none => request organizationId writesEnabled s event

/-- An installation without rules. -/
def coordinator : Machine State Event where
  Init s := s.db.rules = [] ∧ s.db.actions = [] ∧ s.db.facts = [] ∧ s.effects = [] ∧
    s.passes = (fun _ => none) ∧ s.locks = LockTable.empty ∧
    ∀ calendarIdentity eventId, ∀ invitation ∈ s.remote calendarIdentity eventId,
      invitation.etag ∈ invitation.revisions
  step := step organizationId writesEnabled

end Machine

end Planipus.ConflictResponse

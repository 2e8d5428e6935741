import Mathlib.Data.List.Sort
import Planipus.Library.Locks
import Planipus.Library.Machine
import Planipus.Library.Rows
import Planipus.Policy.Calendars

/-!
# Bridges and protection rules under concurrent requests

A calendar that a conflict-response rule protects must not take part in a bridge, and the rows that
say so are in two tables. `PolicyService.activate` and `setPaused` (`server/src/policy/service.ts`)
and `ConflictResponseService.activate`, `setPaused` and `remove`
(`server/src/conflict-response/service.ts`) are transactions here: each runs statement by statement,
a statement reads what is committed when it runs (READ COMMITTED), writes become visible with the
commit, and advisory locks and row locks are kept until the end. Between any two statements any other
transaction may run.

A request that fails on something else (a stale preview, an incomplete sync, a lost connection) rolls
back, which it may do at any point. Statements that only read what never changes are joined with the
one after them.
-/

namespace Planipus.Policy.Protection

open CalendarSync Sync Library

/-! ## Tables -/

/-- A row of `calendar_endpoints` with what the selection of a rule reads of it. -/
structure EndpointRow extends CalendarRow where
  organizationId : String
  /-- `capabilities["freebusy_readable"]`, where it is a boolean. -/
  freebusyReadable : Option Bool
  scopes : List String
deriving DecidableEq

/-- A row of `sync_policies`. -/
structure BridgeRow where
  id : String
  organizationId : String
  sourceCalendarId : String
  destinationCalendarId : String
  sourceProviderIdentity : String
  destinationProviderIdentity : String
  status : PolicyStatus
deriving DecidableEq

structure ConflictDraft where
  responseCalendarId : String
  availabilityCalendarIds : List String
deriving DecidableEq

/-- A row of `conflict_response_rules` with its rows of `conflict_response_availability_calendars`. -/
structure ProtectionRule extends RuleRow where
  organizationId : String
  responseProviderIdentity : String
  ruleDocument : ConflictDraft
  availabilityCalendarIds : List String
deriving DecidableEq

structure Database where
  endpoints : List EndpointRow
  policies : List BridgeRow
  rules : List ProtectionRule
deriving DecidableEq

/-! ## Errors of conflict-response requests -/

inductive ConflictErrorCode
  | calendarNotFound | responseCalendarUnavailable | sameProviderCalendar
  | availabilityCalendarUnavailable | availabilityScopeMissing | availabilityCopyFeedback
  | copyPolicyConflict
deriving DecidableEq

structure ConflictResponseInputError where
  code : ConflictErrorCode
  message : String
deriving DecidableEq

/-! ## The calendars of a rule -/

def isFreeBusyReadable (calendar : EndpointRow) : Bool :=
  calendar.readable || calendar.freebusyReadable = some true

def hasGoogleFreeBusyScope (scopes : List String) : Bool :=
  scopes.any fun scope =>
    ["https://www.googleapis.com/auth/calendar.freebusy",
      "https://www.googleapis.com/auth/calendar.events.freebusy",
      "https://www.googleapis.com/auth/calendar.readonly",
      "https://www.googleapis.com/auth/calendar"].contains scope

def identity (calendar : EndpointRow) : String := providerCalendarIdentity calendar.toCalendarRow

def requireDistinctProviderCalendars (response : EndpointRow) (availability : List EndpointRow) :
    Except ConflictResponseInputError Unit :=
  let availabilityIdentities := availability.map identity
  if identity response ∈ availabilityIdentities ∨ ¬availabilityIdentities.Nodup then
    .error ⟨.sameProviderCalendar,
      "response and availability selections must refer to distinct provider calendars"⟩
  else .ok ()

def responseUsable (response : EndpointRow) : Bool :=
  response.readable && response.writable && response.connectionStatus = .active &&
    response.intendedRole = .both

def availabilityUsable (calendar : EndpointRow) : Bool :=
  isFreeBusyReadable calendar && calendar.connectionStatus = .active &&
    (calendar.intendedRole = .availability || calendar.intendedRole = .source ||
      calendar.intendedRole = .both)

def loadConflictCalendarSelection (endpoints : List EndpointRow) (organizationId : String)
    (draft : ConflictDraft) : Except ConflictResponseInputError (EndpointRow × List EndpointRow) :=
  let selectedIds := draft.responseCalendarId :: draft.availabilityCalendarIds
  let rows := endpoints.filter fun row => row.organizationId = organizationId && row.id ∈ selectedIds
  if rows.length ≠ selectedIds.length then
    .error ⟨.calendarNotFound, "one or more selected calendars were not found"⟩
  else
    match (rows.find? (·.id = draft.responseCalendarId)).filter responseUsable,
        draft.availabilityCalendarIds.mapM fun id => rows.find? (·.id = id) with
    | none, _ => .error ⟨.responseCalendarUnavailable,
        "the response calendar must belong to an active connection configured for both reading and writing"⟩
    | some _, none => .error ⟨.calendarNotFound, "an availability calendar was not found"⟩
    | some response, some availability =>
      match requireDistinctProviderCalendars response availability with
      | .error e => .error e
      | .ok () =>
        if !availability.all availabilityUsable then .error ⟨.availabilityCalendarUnavailable,
          "availability calendars must belong to active readable connections"⟩
        else if availability.any fun calendar =>
            calendar.provider = .google && !hasGoogleFreeBusyScope calendar.scopes then
          .error ⟨.availabilityScopeMissing,
            "reconnect the availability account to grant Google's free/busy-only scope"⟩
        else .ok (response, availability.insertionSort fun a b => a.id ≤ b.id)

/-- Whether a paused bridge leaves one of the calendars. -/
def requireNoCopyPolicies (policies : List BridgeRow) (organizationId : String)
    (availability : List EndpointRow) : Except ConflictResponseInputError Bool :=
  let protectedIdentities := availability.map identity
  let copyPolicies := policies.filter fun policy =>
    policy.organizationId = organizationId &&
      (policy.status = .active || policy.status = .paused) &&
      (policy.sourceProviderIdentity ∈ protectedIdentities ||
        policy.destinationProviderIdentity ∈ protectedIdentities)
  if copyPolicies.any fun policy => policy.destinationProviderIdentity ∈ protectedIdentities then
    .error ⟨.availabilityCopyFeedback,
      "availability calendars cannot contain inbound bridge copies because those copies can create self-conflicts"⟩
  else if copyPolicies.any fun policy =>
      policy.status = .active && policy.sourceProviderIdentity ∈ protectedIdentities then
    .error ⟨.copyPolicyConflict,
      "a selected availability calendar has an active outbound bridge; pause every such bridge before enabling no-copy conflict response"⟩
  else .ok (copyPolicies.any fun policy =>
    policy.status = .paused && policy.sourceProviderIdentity ∈ protectedIdentities)

/-! ## The calendars of a bridge -/

def loadPolicyCalendarCapabilities (endpoints : List EndpointRow) (organizationId : String)
    (sourceId destinationId : String) : List CalendarRow :=
  (endpoints.filter fun row =>
    row.organizationId = organizationId && (row.id = sourceId || row.id = destinationId)).map
      (·.toCalendarRow)

/-! ## Locks -/

/-- `JSON.stringify` of a text. -/
def jsonString (text : String) : String :=
  let hex (n : Nat) : String := String.ofList [Nat.digitChar (n / 16), Nat.digitChar (n % 16)]
  let escape (c : Char) : String :=
    match c.toNat with
    | 0x8 => "\\b"
    | 0x9 => "\\t"
    | 0xA => "\\n"
    | 0xC => "\\f"
    | 0xD => "\\r"
    | 0x22 => "\\\""
    | 0x5C => "\\\\"
    | n => if n < 0x20 then "\\u00" ++ hex n else String.singleton c
  "\"" ++ String.join (text.toList.map escape) ++ "\""

/-- The text whose hash is the number of an advisory lock. -/
def lockKey (organizationId calendarId : String) : String :=
  "[" ++ ",".intercalate
    (["planipus:no-copy-source:v1", organizationId, calendarId].map jsonString) ++ "]"

/-- The keys that `lockProtectedSourceCalendars` locks, one after the other. -/
def lockKeys (organizationId : String) (calendarIds : List String) : List String :=
  (calendarIds.map (lockKey organizationId)).dedup.insertionSort (· ≤ ·)

def ruleLockKeys (organizationId responseIdentity responseCalendarId : String)
    (availabilityIds availabilityIdentities : List String) : List String :=
  lockKeys organizationId
    (("response-provider:" ++ responseIdentity) :: responseCalendarId ::
      (availabilityIds ++ availabilityIdentities.map providerCalendarProtectionKey))

def policyLockKeys (row : BridgeRow) : List String :=
  lockKeys row.organizationId
    [row.sourceCalendarId, row.destinationCalendarId,
      providerCalendarProtectionKey row.sourceProviderIdentity,
      providerCalendarProtectionKey row.destinationProviderIdentity]

/-! ## Transactions -/

/-- The requests; an activation brings the ID of the row it inserts. -/
inductive Command
  | activatePolicy (id sourceCalendarId destinationCalendarId : String)
  | pausePolicy (id : String)
  | resumePolicy (id : String)
  | activateRule (id : String) (draft : ConflictDraft)
  | pauseRule (id : String)
  | resumeRule (id : String)
  | removeRule (id : String)

/-- What a transaction takes advisory locks for. -/
inductive Plan
  | insertPolicy (row : BridgeRow)
  | resumePolicy (row : BridgeRow)
  | insertRule (rule : ProtectionRule)
  | resumeRule (rule : ProtectionRule) (availability : List EndpointRow)
  | removeRule (rule : ProtectionRule)

inductive Write
  | insertPolicy (row : BridgeRow)
  | policyStatus (row : BridgeRow) (status : PolicyStatus)
  | insertRule (rule : ProtectionRule)
  | ruleStatus (rule : ProtectionRule) (status : RuleStatus)

inductive Stage
  | begun (command : Command)
  /-- The rule's row is locked, its calendars are not loaded. -/
  | selected (rule : ProtectionRule)
  | locking (plan : Plan) (keys : List String)
  /-- Between the first check and the second read. -/
  | verifying (plan : Plan)
  | writing (write : Write)

structure Transaction where
  organizationId : String
  stage : Stage

abbrev TransactionId := Nat

structure State where
  db : Database
  transactions : TransactionId → Option Transaction
  advisory : LockTable Int TransactionId
  policyLocks : LockTable String TransactionId
  ruleLocks : LockTable String TransactionId

namespace State

def setStage (s : State) (t : TransactionId) (organizationId : String) (stage : Stage) : State :=
  { s with transactions := Function.update s.transactions t (some ⟨organizationId, stage⟩) }

/-- The end of a transaction, by rollback or after the commit. -/
def close (s : State) (t : TransactionId) : State :=
  { s with
    transactions := Function.update s.transactions t none
    advisory := s.advisory.release t
    policyLocks := s.policyLocks.release t
    ruleLocks := s.ruleLocks.release t }

variable {s : State} {t u : TransactionId} {organizationId : String} {stage : Stage}

theorem setStage_self : (s.setStage t organizationId stage).transactions t =
    some ⟨organizationId, stage⟩ :=
  Function.update_self ..

theorem setStage_of_ne (hne : u ≠ t) :
    (s.setStage t organizationId stage).transactions u = s.transactions u :=
  Function.update_of_ne hne ..

theorem close_self : (s.close t).transactions t = none :=
  Function.update_self ..

theorem close_of_ne (hne : u ≠ t) : (s.close t).transactions u = s.transactions u :=
  Function.update_of_ne hne ..

end State

/-- An insert fails on a primary key that exists. -/
def Write.apply (db : Database) : Write → Database
  | .insertPolicy row => { db with policies := insertRow (·.id) row db.policies }
  | .policyStatus row status =>
    { db with policies := updateRow (·.id) row.id ({ · with status }) db.policies }
  | .insertRule rule => { db with rules := insertRow (·.id) rule db.rules }
  | .ruleStatus rule status =>
    { db with
      rules := updateRow (fun r => (r.organizationId, r.id)) (rule.organizationId, rule.id)
        (fun r => { r with status }) db.rules }

section Statements

variable (hash : String → Int)

/-- `select ... for update` of a policy that is not deleted. -/
def lockPolicy (s : State) (t : TransactionId) (organizationId id : String)
    (next : BridgeRow → Stage) : State :=
  if s.policyLocks.available id t then
    match s.db.policies.find? fun p =>
        p.organizationId = organizationId && p.id = id && p.status ≠ .deleted with
    | none => s.close t
    | some row =>
      ({ s with policyLocks := s.policyLocks.acquire id t }).setStage t organizationId (next row)
  else s

/-- `select ... for update` of a rule; `remove` looks for deleted ones too. -/
def lockRule (s : State) (t : TransactionId) (organizationId id : String) (withDeleted : Bool)
    (next : ProtectionRule → Stage) : State :=
  if s.ruleLocks.available id t then
    match s.db.rules.find? fun r =>
        r.organizationId = organizationId && r.id = id && (withDeleted || r.status ≠ .deleted) with
    | none => s.close t
    | some rule =>
      -- A rule that is deleted already is left alone.
      if rule.status = .deleted then s.close t
      else ({ s with ruleLocks := s.ruleLocks.acquire id t }).setStage t organizationId (next rule)
  else s

def begin (s : State) (t : TransactionId) (organizationId : String) : Command → State
  | .activatePolicy id sourceId destinationId =>
    match requirePolicyCalendars
        (loadPolicyCalendarCapabilities s.db.endpoints organizationId sourceId destinationId)
        sourceId destinationId with
    | .error _ => s.close t
    | .ok (source, destination) =>
      let row : BridgeRow :=
        { id
          organizationId
          sourceCalendarId := sourceId
          destinationCalendarId := destinationId
          sourceProviderIdentity := providerCalendarIdentity source
          destinationProviderIdentity := providerCalendarIdentity destination
          status := .active }
      s.setStage t organizationId (.locking (.insertPolicy row) (policyLockKeys row))
  | .pausePolicy id =>
    lockPolicy s t organizationId id fun row => .writing (.policyStatus row .paused)
  | .resumePolicy id =>
    lockPolicy s t organizationId id fun row => .locking (.resumePolicy row) (policyLockKeys row)
  | .activateRule id draft =>
    match loadConflictCalendarSelection s.db.endpoints organizationId draft with
    | .error _ => s.close t
    | .ok (response, availability) =>
      let rule : ProtectionRule :=
        { id
          status := .active
          availabilityIdentities := availability.map identity
          organizationId
          responseProviderIdentity := identity response
          ruleDocument := draft
          availabilityCalendarIds := availability.map (·.id) }
      s.setStage t organizationId (.locking (.insertRule rule)
        (ruleLockKeys organizationId (identity response) draft.responseCalendarId
          draft.availabilityCalendarIds (availability.map identity)))
  | .pauseRule id =>
    lockRule s t organizationId id false fun rule => .writing (.ruleStatus rule .paused)
  | .resumeRule id => lockRule s t organizationId id false .selected
  | .removeRule id =>
    lockRule s t organizationId id true fun rule => .locking (.removeRule rule)
      (ruleLockKeys organizationId rule.responseProviderIdentity rule.ruleDocument.responseCalendarId
        rule.availabilityCalendarIds rule.availabilityIdentities)

/-- What follows the last advisory lock. -/
def check (s : State) (t : TransactionId) (organizationId : String) (plan : Plan) : State :=
  let rules := (s.db.rules.filter fun r => r.organizationId = organizationId).map (·.toRuleRow)
  match plan with
  | .insertPolicy row | .resumePolicy row =>
    match requireNoConflictResponseRule rules
        [row.sourceProviderIdentity, row.destinationProviderIdentity] with
    | .error _ => s.close t
    | .ok () => s.setStage t organizationId (.verifying plan)
  | .insertRule rule =>
    -- One live rule for a response calendar.
    if s.db.rules.any fun r => r.organizationId = organizationId && r.status ≠ .deleted &&
        r.responseProviderIdentity = rule.responseProviderIdentity then
      s.close t
    else s.setStage t organizationId (.verifying plan)
  | .resumeRule rule availability =>
    match requireNoCopyPolicies s.db.policies organizationId availability with
    | .error _ => s.close t
    | .ok _ => s.setStage t organizationId (.writing (.ruleStatus rule .active))
  | .removeRule rule => s.setStage t organizationId (.writing (.ruleStatus rule .deleted))

/-- The calendars of the row still have the identities it was locked under. -/
def sameIdentities (db : Database) (row : BridgeRow) : Bool :=
  match requirePolicyCalendars
      (loadPolicyCalendarCapabilities db.endpoints row.organizationId row.sourceCalendarId
        row.destinationCalendarId)
      row.sourceCalendarId row.destinationCalendarId with
  | .error _ => false
  | .ok (source, destination) =>
    providerCalendarIdentity source = row.sourceProviderIdentity &&
      providerCalendarIdentity destination = row.destinationProviderIdentity

def verify (s : State) (t : TransactionId) (organizationId : String) : Plan → State
  | .insertPolicy row =>
    if sameIdentities s.db row then s.setStage t organizationId (.writing (.insertPolicy row))
    else s.close t
  | .resumePolicy row =>
    if sameIdentities s.db row then
      s.setStage t organizationId (.writing (.policyStatus row .active))
    else s.close t
  | .insertRule rule =>
    match loadConflictCalendarSelection s.db.endpoints organizationId rule.ruleDocument with
    | .error _ => s.close t
    | .ok (_, availability) =>
      match requireNoCopyPolicies s.db.policies organizationId availability with
      | .error _ => s.close t
      | .ok _ => s.setStage t organizationId (.writing (.insertRule rule))
  | .resumeRule .. | .removeRule _ => s

/-- The next statement of a transaction; a statement that has to wait changes nothing. -/
def run (s : State) (t : TransactionId) (transaction : Transaction) : State :=
  let organizationId := transaction.organizationId
  match transaction.stage with
  | .begun command => begin s t organizationId command
  | .selected rule =>
    match loadConflictCalendarSelection s.db.endpoints organizationId rule.ruleDocument with
    | .error _ => s.close t
    | .ok (response, availability) =>
      s.setStage t organizationId (.locking (.resumeRule rule availability)
        (ruleLockKeys organizationId (identity response) rule.ruleDocument.responseCalendarId
          rule.ruleDocument.availabilityCalendarIds (availability.map identity)))
  | .locking plan (key :: keys) =>
    if s.advisory.available (hash key) t then
      ({ s with advisory := s.advisory.acquire (hash key) t }).setStage t organizationId
        (.locking plan keys)
    else s
  | .locking plan [] => check s t organizationId plan
  | .verifying plan => verify s t organizationId plan
  | .writing write => ({ s with db := write.apply s.db }).close t

/-- Discovery writes an endpoint; one that exists keeps its identity. -/
def discover (db : Database) (row : EndpointRow) : Database :=
  if row.id ∈ db.endpoints.map (·.id) then
    { db with
      endpoints := db.endpoints.map fun e =>
        if e.id = row.id then
          { row with
            id := e.id
            organizationId := e.organizationId
            connectionId := e.connectionId
            remoteId := e.remoteId
            provider := e.provider }
        else e }
  else { db with endpoints := db.endpoints ++ [row] }

inductive Event
  | begin (t : TransactionId) (organizationId : String) (command : Command)
  | run (t : TransactionId)
  | rollback (t : TransactionId)
  | discover (row : EndpointRow)

def step (s : State) : Event → State
  | .begin t organizationId command =>
    match s.transactions t with
    | none => s.setStage t organizationId (.begun command)
    | some _ => s
  | .run t =>
    match s.transactions t with
    | none => s
    | some transaction => run hash s t transaction
  | .rollback t => s.close t
  | .discover row => { s with db := discover s.db row }

/-- Requests on an installation that starts without bridges and rules. -/
def requests : Machine State Event where
  Init s := s.db.policies = [] ∧ s.db.rules = [] ∧ s.transactions = (fun _ => none) ∧
    s.advisory = LockTable.empty ∧ s.policyLocks = LockTable.empty ∧ s.ruleLocks = LockTable.empty
  step := step hash

end Statements

end Planipus.Policy.Protection

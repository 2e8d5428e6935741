import Planipus.Ingest.Coordinator
import Planipus.Jobs.Queue
import Planipus.Policy.Protection

/-!
# Event access and its withdrawal

A Google connection may read events while its role is `source` or `both`. The OAuth callback changes
the role (`GoogleOAuthService.complete` and `prepareEventReadRemoval` in
`server/src/providers/google/oauth.ts`) while discoveries and executions of `syncCalendar`
(`server/src/sync/coordinator.ts`) run: any number of processes, each one statement at a time. A
statement reads what is committed when it runs, the writes of a transaction become visible with its
commit, and row locks and advisory locks are kept until then. A delete removes the rows that it has
seen, whatever was committed after it.

The statements of `syncCalendar` and of a discovery that follow the lock of the connection are joined
with the commit. Audit facts and the jobs of other kinds are left out, nothing here reads them.
-/

namespace Planipus.Connection

open CalendarSync Sync Library Ingest

/-! ## Tables -/

/-- A row of `provider_connections`. -/
structure ConnectionRow where
  id : String
  organizationId : String
  provider : Policy.CalendarProvider
  remoteSubject : String
  intendedRole : ConnectionRole
  status : ConnectionStatus
deriving DecidableEq

/-- A row of `calendar_endpoints`. -/
structure EndpointRow where
  id : String
  organizationId : String
  connectionId : String
  remoteId : String
  readable : Bool
  writable : Bool
deriving DecidableEq

/-- A row of `source_observations`. -/
structure StoredObservation where
  id : Nat
  organizationId : String
  calendarEndpointId : String
  row : SourceRow
deriving DecidableEq

/-- A row of `sync_cursors`. -/
structure StoredCursor where
  organizationId : String
  calendarEndpointId : String
  queryFingerprint : String
  cursor : SyncCursor
deriving DecidableEq

/-- A row of `provider_subscriptions`. -/
structure SubscriptionRow where
  organizationId : String
  calendarEndpointId : String
  status : String
deriving DecidableEq

/-- A row of `scheduled_jobs` of the kind `sync_calendar`. -/
structure CalendarJob where
  organizationId : String
  calendarId : String
  state : Jobs.JobState
  safeErrorCode : Option String
deriving DecidableEq

/-- A row of `sync_policies`. -/
structure PolicyRow where
  organizationId : String
  sourceCalendarId : String
  destinationCalendarId : String
  status : PolicyStatus
deriving DecidableEq

/-- A row of `planning_rules` with its target calendar, or of `conflict_response_rules` with its
response calendar. -/
structure CalendarRule where
  organizationId : String
  calendarId : String
  deleted : Bool
deriving DecidableEq

/-- A row of `projections` or of `invitation_response_actions`. -/
structure ObservationUse where
  organizationId : String
  observationId : Nat
deriving DecidableEq

/-- What can depend on the content of a calendar. -/
structure Dependents where
  policies : List PolicyRow
  planningRules : List CalendarRule
  responseRules : List CalendarRule
  projections : List ObservationUse
  responseActions : List ObservationUse
deriving DecidableEq

structure Database where
  connections : List ConnectionRow
  endpoints : List EndpointRow
  observations : List StoredObservation
  cursors : List StoredCursor
  subscriptions : List SubscriptionRow
  jobs : List CalendarJob
  dependents : Dependents
deriving DecidableEq

/-! ## Withdrawal -/

/-- The dependency checks of `prepareEventReadRemoval`, in their order. -/
inductive Dependency | livePolicy | livePlanningRule | liveResponseRule | projection | responseAction
deriving DecidableEq

def Dependency.all : List Dependency :=
  [.livePolicy, .livePlanningRule, .liveResponseRule, .projection, .responseAction]

/-- Whether a row that is joined with its observation is about one of the calendars. -/
def usesObservationOf (db : Database) (organizationId : String) (endpointIds : List String)
    (use : ObservationUse) : Bool :=
  use.organizationId = organizationId && db.observations.any fun observation =>
    observation.id = use.observationId && observation.calendarEndpointId ∈ endpointIds

def Dependency.found (db : Database) (organizationId : String) (endpointIds : List String)
    (nextRole : ConnectionRole) : Dependency → Bool
  | .livePolicy => db.dependents.policies.any fun policy =>
      policy.organizationId = organizationId && policy.status ≠ .deleted &&
        (policy.sourceCalendarId ∈ endpointIds ||
          (!(nextRole = .destination || nextRole = .both) &&
            policy.destinationCalendarId ∈ endpointIds))
  | .livePlanningRule => !(nextRole = .destination || nextRole = .both) &&
      db.dependents.planningRules.any fun rule =>
        rule.organizationId = organizationId && !rule.deleted && rule.calendarId ∈ endpointIds
  | .liveResponseRule => db.dependents.responseRules.any fun rule =>
      rule.organizationId = organizationId && !rule.deleted && rule.calendarId ∈ endpointIds
  | .projection => db.dependents.projections.any (usesObservationOf db organizationId endpointIds)
  | .responseAction =>
      db.dependents.responseActions.any (usesObservationOf db organizationId endpointIds)

/-- The endpoints that `prepareEventReadRemoval` reads. -/
def endpointIdsOf (db : Database) (organizationId connectionId : String) : List String :=
  (db.endpoints.filter fun e =>
    e.organizationId = organizationId && e.connectionId = connectionId).map (·.id)

/-- What the statements of a withdrawal have found to be deleted and restricted. -/
structure Purge where
  endpointIds : List String
  observationIds : List Nat
  cursorIds : List Nat

def Purge.apply (purge : Purge) (organizationId : String) (db : Database) : Database :=
  { db with
    observations := db.observations.filter fun o => o.id ∉ purge.observationIds
    cursors := db.cursors.filter fun c => c.cursor.id ∉ purge.cursorIds
    subscriptions := db.subscriptions.map fun subscription =>
      if subscription.organizationId = organizationId ∧
          subscription.calendarEndpointId ∈ purge.endpointIds then
        { subscription with status := "retired_role_change" }
      else subscription
    endpoints := db.endpoints.map fun e =>
      if e.organizationId = organizationId ∧ e.id ∈ purge.endpointIds then
        { e with readable := false, writable := false }
      else e
    jobs := db.jobs.map fun job =>
      if job.organizationId = organizationId ∧ job.state.waiting ∧
          job.calendarId ∈ purge.endpointIds then
        { job with state := .succeeded, safeErrorCode := some "connection_role_changed" }
      else job }

/-! ## The callback -/

/-- What `complete` knows after Google has answered. -/
structure Callback where
  organizationId : String
  remoteSubject : String
  role : ConnectionRole
  candidateConnectionId : String

/-- The text whose hash is the number of the lock for one Google subject. -/
def googleConnectionKey (organizationId remoteSubject : String) : String :=
  "[" ++ ",".intercalate (["planipus:google-connection:v1", organizationId, remoteSubject].map
    Policy.Protection.jsonString) ++ "]"

def subjectKey (row : ConnectionRow) : String × Policy.CalendarProvider × String :=
  (row.organizationId, row.provider, row.remoteSubject)

def Callback.subjectKey (callback : Callback) : String × Policy.CalendarProvider × String :=
  (callback.organizationId, .google, callback.remoteSubject)

/-- The insert `on conflict (organization_id, provider, remote_subject) do update`; `none` where the
ID is taken by another connection. -/
def upsertConnection (callback : Callback) (connectionId : String) (db : Database) :
    Option Database :=
  if callback.subjectKey ∈ db.connections.map subjectKey then
    some { db with
      connections := updateRow subjectKey callback.subjectKey
        (fun row => { row with intendedRole := callback.role, status := .active }) db.connections }
  else if connectionId ∈ db.connections.map (·.id) then none
  else some { db with
    connections := db.connections ++
      [{ id := connectionId
         organizationId := callback.organizationId
         provider := .google
         remoteSubject := callback.remoteSubject
         intendedRole := callback.role
         status := .active }] }

/-! ## Discovery -/

/-- A calendar of `listCalendars`, with the ID that its row gets where there is none. -/
structure ProviderCalendar where
  remoteId : String
  readable : Bool
  writable : Bool
  newId : String

/-- Readable and writable. -/
def policyCapabilitiesForRole (role : ConnectionRole) (readable writable : Bool) : Bool × Bool :=
  (readable && (role = .source || role = .both), writable && (role = .destination || role = .both))

def enqueueSync (organizationId calendarId : String) (jobs : List CalendarJob) : List CalendarJob :=
  if jobs.any fun job => job.organizationId = organizationId && job.calendarId = calendarId &&
      job.state.active then
    jobs
  else jobs ++ [⟨organizationId, calendarId, .pending, none⟩]

def endpointKey (e : EndpointRow) : String × String := (e.connectionId, e.remoteId)

/-- The rows of `calendar_endpoints` after the upsert of a calendar. -/
def upsertEndpoint (connection : ConnectionRow) (calendar : ProviderCalendar)
    (endpoints : List EndpointRow) : List EndpointRow :=
  let (readable, writable) :=
    policyCapabilitiesForRole connection.intendedRole calendar.readable calendar.writable
  if (connection.id, calendar.remoteId) ∈ endpoints.map endpointKey then
    updateRow endpointKey (connection.id, calendar.remoteId)
      (fun e => { e with readable, writable }) endpoints
  else insertRow (·.id)
    { id := calendar.newId
      organizationId := connection.organizationId
      connectionId := connection.id
      remoteId := calendar.remoteId
      readable
      writable }
    endpoints

def recordCalendar (connection : ConnectionRow) (db : Database) (calendar : ProviderCalendar) :
    Database :=
  let endpoints := upsertEndpoint connection calendar db.endpoints
  { db with
    endpoints
    jobs := match endpoints.find? fun e => endpointKey e = (connection.id, calendar.remoteId) with
      | some row =>
        if row.readable && roleCanSyncEventContent connection.intendedRole then
          enqueueSync connection.organizationId row.id db.jobs
        else db.jobs
      | none => db.jobs }

/-! ## Synchronization -/

/-- What `syncCalendar` has read of its calendar. -/
structure SyncedCalendar where
  organizationId : String
  id : String
  connectionId : String
  queryFingerprint : String

/-- The authority that every transaction of `syncCalendar` checks. -/
def canSync (connection : ConnectionRow) : Bool :=
  connection.status = .active && roleCanSyncEventContent connection.intendedRole

def nextGeneration (db : Database) (calendar : SyncedCalendar) : Nat :=
  let cursors := db.cursors.filter fun c =>
    c.organizationId = calendar.organizationId && c.calendarEndpointId = calendar.id
  let observations := db.observations.filter fun o =>
    o.organizationId = calendar.organizationId && o.calendarEndpointId = calendar.id
  max (cursors.foldl (fun m c => max m c.cursor.generation) 0)
    (observations.foldl (fun m o => max m o.row.syncGeneration) 0) + 1

/-- The insert of a cursor, which does nothing where there is one, and the row that is read. -/
def insertCursor (db : Database) (calendar : SyncedCalendar) (newId : Nat) :
    Database × SyncCursor :=
  match db.cursors.find? fun c =>
      c.calendarEndpointId = calendar.id && c.queryFingerprint = calendar.queryFingerprint with
  | some stored => (db, stored.cursor)
  | none =>
    let cursor : SyncCursor :=
      { id := newId
        syncToken := none
        generation := nextGeneration db calendar
        state := .fullRequired
        lastStartedAt := none
        lastFullSyncAt := none }
    ({ db with
        cursors := db.cursors ++
          [⟨calendar.organizationId, calendar.id, calendar.queryFingerprint, cursor⟩] }, cursor)

/-- `update sync_cursors ... where id = cursor.id`. -/
def updateCursor (db : Database) (cursor : SyncCursor) (f : SyncCursor → SyncCursor) : Database :=
  { db with
    cursors := updateRow (·.cursor.id) cursor.id (fun c => { c with cursor := f c.cursor })
      db.cursors }

def observationKeyOf (o : StoredObservation) : String × EventKey := (o.calendarEndpointId, o.row.key)

/-- The upsert of an observation, with the ID that a new row gets. -/
def storeObservation (calendar : SyncedCalendar) (generation : Nat)
    (stored : List StoredObservation × Nat) (o : SourceObservation) :
    List StoredObservation × Nat :=
  let row := SourceRow.ofObservation generation o
  if (calendar.id, row.key) ∈ stored.1.map observationKeyOf then
    (updateRow observationKeyOf (calendar.id, row.key) (fun x => { x with row }) stored.1, stored.2)
  else (stored.1 ++ [⟨stored.2, calendar.organizationId, calendar.id, row⟩], stored.2 + 1)

/-- The rows that a full scan has not listed are tombstones. -/
def tombstoneUnlisted (calendar : SyncedCalendar) (generation : Nat)
    (observations : List StoredObservation) : List StoredObservation :=
  observations.map fun o =>
    if o.organizationId = calendar.organizationId ∧ o.calendarEndpointId = calendar.id ∧
        o.row.syncGeneration < generation then
      { o with row := o.row.markDeleted generation }
    else o

/-! ## Processes -/

inductive Process
  /-- `complete`, before the lock for the Google subject. -/
  | connect (callback : Callback)
  | loadConnection (callback : Callback)
  | prepareRemoval (callback : Callback) (existing : ConnectionRow)
  | lockEndpoints (callback : Callback) (existing : ConnectionRow) (endpointIds keys : List String)
  | findDependents (callback : Callback) (existing : ConnectionRow) (endpointIds : List String)
      (found : Bool) (remaining : List Dependency)
  | deleteObservations (callback : Callback) (existing : ConnectionRow) (endpointIds : List String)
  | deleteCursors (callback : Callback) (existing : ConnectionRow) (endpointIds : List String)
      (observationIds : List Nat)
  | upsertConnection (callback : Callback) (existing : Option ConnectionRow) (purge : Option Purge)
  /-- `discoverCalendars`, which has read the connection and waits for `listCalendars`. -/
  | discover (organizationId connectionId : String)
  | recordCalendars (organizationId connectionId : String) (calendars : List ProviderCalendar)
  | upsertEndpoints (connection : ConnectionRow) (calendars : List ProviderCalendar)
  /-- `syncCalendar`, which has read its calendar. -/
  | openCursor (calendar : SyncedCalendar)
  | insertCursor (calendar : SyncedCalendar) (connection : ConnectionRow)
  /-- Between two transactions of `syncCalendar`. -/
  | sync (calendar : SyncedCalendar) (run : Run)
  | storePage (calendar : SyncedCalendar) (run : Run) (page : ProviderEventPage)
      (connection : ConnectionRow)
  | failed (calendar : SyncedCalendar) (run : Run) (error : ListError)
  | commitRun (calendar : SyncedCalendar) (run : Run) (token : SyncToken)
      (connection : ConnectionRow)

abbrev ProcessId := Nat

structure State where
  db : Database
  processes : ProcessId → Option Process
  connectionLocks : LockTable String ProcessId
  advisory : LockTable Int ProcessId
  nextId : Nat

namespace State

def goto (s : State) (p : ProcessId) (process : Process) : State :=
  { s with processes := Function.update s.processes p (some process) }

/-- The end of a transaction. -/
def release (s : State) (p : ProcessId) : State :=
  { s with connectionLocks := s.connectionLocks.release p, advisory := s.advisory.release p }

/-- The end of a process, by its return, an error or the death of its worker. -/
def close (s : State) (p : ProcessId) : State :=
  { s.release p with processes := Function.update s.processes p none }

variable {s : State} {p q : ProcessId} {process : Process}

theorem goto_self : (s.goto p process).processes p = some process :=
  Function.update_self ..

theorem goto_of_ne (hne : q ≠ p) : (s.goto p process).processes q = s.processes q :=
  Function.update_of_ne hne ..

theorem close_self : (s.close p).processes p = none :=
  Function.update_self ..

theorem close_of_ne (hne : q ≠ p) : (s.close p).processes q = s.processes q :=
  Function.update_of_ne hne ..

end State

/-- `select ... for update` of a connection. -/
def lockConnection (s : State) (p : ProcessId) (find : ConnectionRow → Bool)
    (missing : State → State) (next : ConnectionRow → State → State) : State :=
  match s.db.connections.find? find with
  | none => missing s
  | some row =>
    if s.connectionLocks.available row.id p then
      next row { s with connectionLocks := s.connectionLocks.acquire row.id p }
    else s

section Statements

variable (hash : String → Int) (fingerprint : Policy.CalendarProvider → String → String)

/-- The next statement of a callback. -/
def runCallback (s : State) (p : ProcessId) : Process → State
  | .connect callback =>
    let key := hash (googleConnectionKey callback.organizationId callback.remoteSubject)
    if s.advisory.available key p then
      ({ s with advisory := s.advisory.acquire key p }).goto p (.loadConnection callback)
    else s
  | .loadConnection callback =>
    lockConnection s p (fun row => decide (subjectKey row = callback.subjectKey))
      (fun s => s.goto p (.upsertConnection callback none none))
      fun row s =>
        if removesEventReadAccess row.intendedRole callback.role then
          s.goto p (.prepareRemoval callback row)
        else s.goto p (.upsertConnection callback (some row) none)
  | .prepareRemoval callback row =>
    let endpointIds := endpointIdsOf s.db callback.organizationId row.id
    if endpointIds = [] then s.goto p (.upsertConnection callback (some row) (some ⟨[], [], []⟩))
    else s.goto p (.lockEndpoints callback row endpointIds
      (Policy.Protection.lockKeys callback.organizationId endpointIds))
  | .lockEndpoints callback row endpointIds (key :: keys) =>
    if s.advisory.available (hash key) p then
      ({ s with advisory := s.advisory.acquire (hash key) p }).goto p
        (.lockEndpoints callback row endpointIds keys)
    else s
  | .lockEndpoints callback row endpointIds [] =>
    s.goto p (.findDependents callback row endpointIds false Dependency.all)
  | .findDependents callback row endpointIds found (dependency :: remaining) =>
    s.goto p (.findDependents callback row endpointIds
      (found || dependency.found s.db callback.organizationId endpointIds callback.role) remaining)
  | .findDependents callback row endpointIds found [] =>
    if found then s.close p else s.goto p (.deleteObservations callback row endpointIds)
  | .deleteObservations callback row endpointIds =>
    s.goto p (.deleteCursors callback row endpointIds
      ((s.db.observations.filter fun o =>
        o.organizationId = callback.organizationId && o.calendarEndpointId ∈ endpointIds).map (·.id)))
  | .deleteCursors callback row endpointIds observationIds =>
    s.goto p (.upsertConnection callback (some row) (some
      { endpointIds
        observationIds
        cursorIds := (s.db.cursors.filter fun c => c.organizationId = callback.organizationId &&
          c.calendarEndpointId ∈ endpointIds).map (·.cursor.id) }))
  | .upsertConnection callback existing purge =>
    let purged := purge.elim s.db fun purge => purge.apply callback.organizationId s.db
    let connectionId := existing.elim callback.candidateConnectionId (·.id)
    match upsertConnection callback connectionId purged with
    | none => s.close p
    | some db => ({ s with db }).close p
  | _ => s

/-- The next statement of a discovery. -/
def runDiscovery (s : State) (p : ProcessId) : Process → State
  | .recordCalendars organizationId connectionId calendars =>
    lockConnection s p
      (fun row => row.organizationId = organizationId && row.id = connectionId)
      (fun s => s.close p)
      fun row s =>
        if row.status = .active then s.goto p (.upsertEndpoints row calendars) else s.close p
  | .upsertEndpoints row calendars =>
    ({ s with db := calendars.foldl (recordCalendar row) s.db }).close p
  | _ => s

/-- The next statement of `syncCalendar`. -/
def runSync (s : State) (p : ProcessId) (now : Instant) : Process → State
  | .openCursor calendar =>
    lockConnection s p
      (fun row => row.organizationId = calendar.organizationId && row.id = calendar.connectionId)
      (fun s => s.close p)
      fun row s => if canSync row then s.goto p (.insertCursor calendar row) else s.close p
  | .insertCursor calendar _ =>
    let (db, cursor) := Connection.insertCursor s.db calendar s.nextId
    (({ s with db, nextId := s.nextId + 1 }).release p).goto p (.sync calendar (Run.opening cursor))
  | .sync calendar run =>
    match run.phase with
    | .opened =>
      if refreshDue run.currentCursor now then
        let db := updateCursor s.db run.currentCursor fun c =>
          if c.syncToken = run.currentCursor.syncToken then c.reset else c
        ({ s with db }).close p
      else if polledRecently run.currentCursor now then s.close p
      else
        let db := updateCursor s.db run.currentCursor fun c =>
          { c with state := .syncing, lastStartedAt := some now }
        ({ s with db }).goto p (.sync calendar (run.begin now 0))
    | .listing => s
    | .received page =>
      -- The connection is found through the endpoint.
      match s.db.endpoints.find? fun e =>
          e.organizationId = calendar.organizationId && e.id = calendar.id with
      | none => s.goto p (.failed calendar run .other)
      | some endpoint =>
        lockConnection s p (fun row => decide (row.id = endpoint.connectionId))
          (fun s => s.goto p (.failed calendar run .other))
          fun row s =>
            if canSync row then s.goto p (.storePage calendar run page row)
            else (s.release p).goto p (.failed calendar run .other)
    | .complete =>
      match run.finalSyncToken.filter fun token => token.text ≠ "" with
      | none => s.close p
      | some token =>
        lockConnection s p
          (fun row => row.organizationId = calendar.organizationId && row.id = calendar.connectionId)
          (fun s => s.close p)
          fun row s => if canSync row then s.goto p (.commitRun calendar run token row) else s.close p
  | .storePage calendar run page _ =>
    let (observations, nextId) :=
      page.observations.foldl (storeObservation calendar run.generation) (s.db.observations, s.nextId)
    (({ s with db := { s.db with observations }, nextId }).release p).goto p
      (.sync calendar (run.stored page))
  | .failed _ run error =>
    -- The `catch` of the page loop.
    let db := updateCursor s.db run.currentCursor fun c =>
      match error with
      | .gone => c.reset
      | .other => { c with state := .actionRequired }
    ({ s with db }).close p
  | .commitRun calendar run token _ =>
    let observations := if run.fullSync then
      tombstoneUnlisted calendar run.generation s.db.observations else s.db.observations
    let db := updateCursor { s.db with observations } run.currentCursor fun c =>
      c.advance token run.fullSync now
    ({ s with db }).close p
  | _ => s

def runProcess (s : State) (p : ProcessId) (now : Instant) (process : Process) : State :=
  match process with
  | .connect .. | .loadConnection .. | .prepareRemoval .. | .lockEndpoints ..
  | .findDependents .. | .deleteObservations .. | .deleteCursors .. | .upsertConnection .. =>
    runCallback hash s p process
  | .discover .. | .recordCalendars .. | .upsertEndpoints .. => runDiscovery s p process
  | .openCursor .. | .insertCursor .. | .sync .. | .storePage .. | .failed .. | .commitRun .. =>
    runSync s p now process

/-- `discoverCalendars` reads the connection. -/
def startDiscovery (s : State) (p : ProcessId) (organizationId connectionId : String) : State :=
  if s.db.connections.any fun row => row.organizationId = organizationId && row.id = connectionId &&
      row.status = .active then
    s.goto p (.discover organizationId connectionId)
  else s

/-- `syncCalendar` reads the calendar with its connection. -/
def startSync (s : State) (p : ProcessId) (organizationId calendarId : String) : State :=
  match s.db.endpoints.find? fun e => e.organizationId = organizationId && e.id = calendarId with
  | none => s
  | some endpoint =>
    match s.db.connections.find? (·.id = endpoint.connectionId) with
    | none => s
    | some row =>
      if endpoint.readable && canSync row then
        s.goto p (.openCursor
          { organizationId
            id := calendarId
            connectionId := endpoint.connectionId
            queryFingerprint := fingerprint row.provider endpoint.remoteId })
      else s

/-- An answer of `listEvents`, where the process waits for one. -/
def receivePage (s : State) (p : ProcessId) (reply : Except ListError ProviderEventPage) : State :=
  match s.processes p with
  | some (.sync calendar run) =>
    if run.phase = .listing then
      if run.pages + 1 > maxPagesPerSync then s.goto p (.failed calendar run .other)
      else
        match reply with
        | .ok page => s.goto p
            (.sync calendar { run with phase := .received page, pages := run.pages + 1 })
        | .error error => s.goto p (.failed calendar run error)
    else s
  | _ => s

/-! ## The machine -/

inductive Event
  | complete (p : ProcessId) (callback : Callback)
  | discoverCalendars (p : ProcessId) (organizationId connectionId : String)
  | syncCalendar (p : ProcessId) (organizationId calendarId : String)
  | run (p : ProcessId) (now : Instant)
  | listCalendars (p : ProcessId) (calendars : List ProviderCalendar)
  | listEvents (p : ProcessId) (reply : Except ListError ProviderEventPage)
  | stop (p : ProcessId)
  /-- The token broker, a write or a verification finds the authorization lost. -/
  | setStatus (connectionId : String) (status : ConnectionStatus)
  /-- Requests and reconciliations write the tables that depend on the content. -/
  | setDependents (dependents : Dependents)

def step (s : State) : Event → State
  | .complete p callback =>
    match s.processes p with
    | none => s.goto p (.connect callback)
    | some _ => s
  | .discoverCalendars p organizationId connectionId =>
    match s.processes p with
    | none => startDiscovery s p organizationId connectionId
    | some _ => s
  | .syncCalendar p organizationId calendarId =>
    match s.processes p with
    | none => startSync fingerprint s p organizationId calendarId
    | some _ => s
  | .run p now =>
    match s.processes p with
    | none => s
    | some process => runProcess hash s p now process
  | .listCalendars p calendars =>
    match s.processes p with
    | some (.discover organizationId connectionId) =>
      s.goto p (.recordCalendars organizationId connectionId calendars)
    | _ => s
  | .listEvents p reply => receivePage s p reply
  | .stop p => s.close p
  | .setStatus connectionId status =>
    if s.connectionLocks connectionId = none then
      { s with db := { s.db with
        connections := updateRow (·.id) connectionId ({ · with status }) s.db.connections } }
    else s
  | .setDependents dependents => { s with db := { s.db with dependents } }

/-- What the schema's keys and foreign keys say of the tables. -/
structure Constraints (db : Database) : Prop where
  connectionIds : (db.connections.map (·.id)).Nodup
  subjects : (db.connections.map subjectKey).Nodup
  endpointIds : (db.endpoints.map (·.id)).Nodup
  endpoints : ∀ e ∈ db.endpoints, ∃ row ∈ db.connections, row.id = e.connectionId ∧
    row.organizationId = e.organizationId
  observations : ∀ o ∈ db.observations, ∃ e ∈ db.endpoints, e.id = o.calendarEndpointId ∧
    e.organizationId = o.organizationId
  cursors : ∀ c ∈ db.cursors, ∃ e ∈ db.endpoints, e.id = c.calendarEndpointId ∧
    e.organizationId = c.organizationId

/-- An installation to which no Google account has been connected. -/
def processes : Machine State Event where
  Init s := Constraints s.db ∧ (∀ row ∈ s.db.connections, row.provider ≠ .google) ∧
    s.processes = (fun _ => none) ∧ s.connectionLocks = LockTable.empty ∧
    s.advisory = LockTable.empty
  step := step hash fingerprint

end Statements

end Planipus.Connection

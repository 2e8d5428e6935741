import Planipus.Jobs.Workers
import Planipus.Planning.Rows
import Planipus.Policy.Calendars

/-!
# The scheduler

`Scheduler.tick` (`server/src/scheduler.ts`) is one transaction that reads what is active and enqueues a
job for each of it, and a cleanup after it. Replicas of the scheduler, the workers and the requests
of users share the queue, so a tick runs statement by statement here; what a statement reads may have
changed since the last one. The window of a job is in its dedupe key: `enqueueOnce` finds a job of the
window in whatever state it is.

Of the cleanup, the deletion of old jobs is modelled.
-/

namespace Planipus.Jobs

open CalendarSync Library

/-! ## Tables -/

structure ConnectionRow where
  id : String
  organizationId : String
  status : Sync.ConnectionStatus
  intendedRole : Sync.ConnectionRole
deriving DecidableEq

structure EndpointRow where
  id : String
  organizationId : String
  connectionId : String
  readable : Bool
deriving DecidableEq

/-- A row of `sync_policies`, `planning_rules` or `conflict_response_rules`. -/
structure RevisionRow (σ : Type) where
  id : String
  organizationId : String
  revision : Nat
  status : σ
deriving DecidableEq

structure Tables where
  organizations : List String
  connections : List ConnectionRow
  calendars : List EndpointRow
  policies : List (RevisionRow Sync.PolicyStatus)
  planningRules : List (RevisionRow Planning.RuleStatus)
  conflictResponseRules : List (RevisionRow Policy.RuleStatus)

/-! ## Windowed jobs -/

def discoveryWindowMilliseconds : Int := 60 * 60000

def reconcileWindowMilliseconds : Int := 15 * 60000

def destinationVerificationIntervalMilliseconds : Int := 15 * 60000

def retentionMilliseconds : Int := 7 * 86400000

/-- What a tick enqueues a job for once in a window. -/
inductive Subject
  | connection (organizationId id : String)
  | policy (organizationId id : String) (revision : Nat)
  | planningRule (organizationId id : String) (revision : Nat)
  | conflictResponseRule (organizationId id : String) (revision : Nat)
  | organization (id : String)
deriving DecidableEq

namespace Subject

def organizationId : Subject → String
  | connection o _ | policy o .. | planningRule o .. | conflictResponseRule o .. | organization o => o

def kind : Subject → String
  | connection .. => "discover_calendars"
  | policy .. => "reconcile_policy"
  | planningRule .. => "reconcile_planning_rule"
  | conflictResponseRule .. => "reconcile_conflict_response_rule"
  | organization _ => "verify_destinations"

def window : Subject → Int
  | connection .. => discoveryWindowMilliseconds
  | policy .. | planningRule .. | conflictResponseRule .. => reconcileWindowMilliseconds
  | organization _ => destinationVerificationIntervalMilliseconds

/-- The dedupe key up to the number of the window. -/
def stem : Subject → String
  | connection _ id => "connection:" ++ id ++ ":window"
  | policy _ id revision => "policy:" ++ id ++ ":revision:" ++ toString revision ++ ":safety"
  | planningRule _ id revision =>
    "planning-rule:" ++ id ++ ":revision:" ++ toString revision ++ ":window"
  | conflictResponseRule _ id revision =>
    "conflict-response-rule:" ++ id ++ ":revision:" ++ toString revision ++ ":window"
  | organization id => "organization:" ++ id ++ ":window"

/-- The key of the job at an instant. -/
def key (subject : Subject) (now : Instant) : JobKey :=
  ⟨subject.organizationId, subject.kind, subject.stem ++ ":" ++ toString (now / subject.window)⟩

def payload : Subject → Payload
  | connection _ id => .object ("\x7b\"connection_id\":\"" ++ id ++ "\"\x7d")
  | policy _ id _ => .object ("\x7b\"policy_id\":\"" ++ id ++ "\"\x7d")
  | planningRule _ id _ | conflictResponseRule _ id _ =>
    .object ("\x7b\"rule_id\":\"" ++ id ++ "\"\x7d")
  | organization _ => .object "\x7b\x7d"

/-- The safety sync of a worker enqueues verifications as well, and not only once. -/
def isScheduled : Subject → Bool
  | organization _ => false
  | connection .. | policy .. | planningRule .. | conflictResponseRule .. => true

end Subject

/-! ## What a tick reads -/

section Selections

variable (tables : Tables) (o : String)

def sortIds (ids : List String) : List String := ids.insertionSort (· ≤ ·)

def sortRevisions {σ : Type} (rows : List (RevisionRow σ)) : List (RevisionRow σ) :=
  rows.insertionSort fun a b => a.id ≤ b.id

def selectConnections : List Subject :=
  (sortIds ((tables.connections.filter fun c => c.organizationId = o && c.status = .active).map
    (·.id))).map (.connection o)

/-- The calendars whose events are read. -/
def selectCalendars : List String :=
  sortIds ((tables.calendars.filter fun calendar =>
    calendar.organizationId = o && calendar.readable && tables.connections.any fun c =>
      c.id = calendar.connectionId && (c.intendedRole = .source || c.intendedRole = .both)).map (·.id))

def selectPolicies : List Subject :=
  (sortRevisions (tables.policies.filter fun p => p.organizationId = o && p.status = .active)).map
    fun p => .policy o p.id p.revision

def selectPlanningRules : List Subject :=
  (sortRevisions (tables.planningRules.filter fun r =>
    r.organizationId = o && r.status = .active)).map fun r => .planningRule o r.id r.revision

def selectConflictResponseRules : List Subject :=
  (sortRevisions (tables.conflictResponseRules.filter fun r =>
    r.organizationId = o && r.status = .active)).map fun r => .conflictResponseRule o r.id r.revision

end Selections

/-! ## Ticks -/

inductive Statement
  | organizations
  | connections (o : String)
  | calendars (o : String)
  | policies (o : String)
  | planningRules (o : String)
  | conflictResponseRules (o : String)
  /-- The lock and the lookup of `enqueueOnce`. -/
  | once (subject : Subject)
  /-- The rest of it. -/
  | insert (subject : Subject)
  | sync (o calendarId : String)

/-- The loop over the organizations, one round. -/
def organizationStatements (planningEnabled : Bool) (o : String) : List Statement :=
  [.connections o, .calendars o, .policies o] ++
    (if planningEnabled then [.planningRules o] else []) ++
    [.conflictResponseRules o, .once (.organization o)]

/-- The windowed jobs that are enqueued for what the tables hold. -/
def Statement.subjects (planningEnabled : Bool) (tables : Tables) : Statement → List Subject
  | .organizations => (sortIds tables.organizations).flatMap fun o =>
    selectConnections tables o ++ selectPolicies tables o ++
      (if planningEnabled then selectPlanningRules tables o else []) ++
      selectConflictResponseRules tables o ++ [.organization o]
  | .connections o => selectConnections tables o
  | .policies o => selectPolicies tables o
  | .planningRules o => selectPlanningRules tables o
  | .conflictResponseRules o => selectConflictResponseRules tables o
  | .once subject | .insert subject => [subject]
  | .calendars _ | .sync .. => []

/-- A tick with the statements that follow in its transaction. After the commit it cleans up. `steady` is
no variable of the source: what has been to be enqueued all the time since the tick began. -/
structure Tick where
  now : Instant
  todo : List Statement
  committed : Bool
  steady : List Subject

def Tick.promises (tick : Tick) : List JobKey :=
  tick.steady.map fun subject : Subject => subject.key tick.now

structure Schedule where
  queue : State
  tables : Tables
  /-- The ticks by the transactions they run in. -/
  ticks : Nat → Option Tick
  /-- The keys of all jobs that were ever committed. -/
  created : List JobKey
  /-- The keys of what was steady when its tick committed. -/
  promised : List JobKey

section Schedule

variable (planningEnabled : Bool)

def Schedule.setTodo (s : Schedule) (t : Nat) (tick : Tick) (todo : List Statement) : Schedule :=
  { s with ticks := Function.update s.ticks t (some { tick with todo }) }

/-- The keys that a commit adds. -/
def inserts (q : State) (t : Nat) : List JobKey :=
  ((q.transaction? t).map fun tx => tx.inserted.map ScheduledJob.key).getD []

/-- The jobs that were last updated before the cutoff are deleted, unless they are active. -/
def cleanupBefore (cutoff : Instant) (q : State) : State :=
  { q with jobs := q.jobs.filter fun job => job.state.active || decide (cutoff ≤ job.updatedAt) }

/-- The next statement of a tick; one that has to wait changes nothing. -/
def Schedule.run (s : Schedule) (t : Nat) (tick : Tick) : Schedule :=
  match tick.todo with
  | [] =>
    if tick.committed then
      { s with
        queue := cleanupBefore (tick.now - retentionMilliseconds) s.queue
        ticks := Function.update s.ticks t none }
    else
      { s with
        queue := commit t s.queue
        ticks := Function.update s.ticks t (some { tick with committed := true })
        created := s.created ++ inserts s.queue t
        promised := s.promised ++ tick.promises }
  | .organizations :: rest =>
    s.setTodo t tick ((sortIds s.tables.organizations).flatMap (organizationStatements planningEnabled) ++ rest)
  | .connections o :: rest => s.setTodo t tick ((selectConnections s.tables o).map .once ++ rest)
  | .calendars o :: rest => s.setTodo t tick ((selectCalendars s.tables o).map (.sync o) ++ rest)
  | .policies o :: rest => s.setTodo t tick ((selectPolicies s.tables o).map .once ++ rest)
  | .planningRules o :: rest => s.setTodo t tick ((selectPlanningRules s.tables o).map .once ++ rest)
  | .conflictResponseRules o :: rest =>
    s.setTodo t tick ((selectConflictResponseRules s.tables o).map .once ++ rest)
  | .once subject :: rest =>
    let key := subject.key tick.now
    if lockWaits s.queue t key then s
    else { s with queue := lookupOnce t key s.queue }.setTodo t tick (.insert subject :: rest)
  | .insert subject :: rest =>
    let key := subject.key tick.now
    if absent s.queue t key then
      if insertionWaits s.queue t key then s
      else { s with queue := enqueueOnce t key subject.payload tick.now s.queue }.setTodo t tick rest
    else s.setTodo t tick rest
  | .sync o calendarId :: rest =>
    let key : JobKey := ⟨o, "sync_calendar", "calendar:" ++ calendarId⟩
    if insertionWaits s.queue t key then s
    else
      { s with
        queue := enqueue t key (.object ("\x7b\"calendar_id\":\"" ++ calendarId ++ "\"\x7d")) tick.now
          s.queue }.setTodo t tick rest

/-- The transaction of an event. -/
def Event.transaction : Event → Option Nat
  | .beginTransaction t | .change t _ | .enqueue t .. | .lookupOnce t _ | .enqueueOnce t .. | .commit t
  | .rollback t => some t
  | .lease _ | .renew .. | .succeed .. | .fail .. | .cleanup | .tick _ => none

/-- The keys of the jobs that an event commits. -/
def Event.creates (q : State) : Event → List JobKey
  | .commit t => inserts q t
  | _ => []

inductive ScheduleEvent
  | start (t : Nat)
  | run (t : Nat)
  /-- The tick fails, or its process ends. -/
  | abort (t : Nat)
  /-- Users and workers change what is active. -/
  | write (tables : Tables)
  /-- Another process, or the clock. -/
  | other (e : Event)
  | retire (ids : List Nat)

def Tick.restrict (tables : Tables) (tick : Tick) : Tick :=
  { tick with
    steady := tick.steady.filter (· ∈ Statement.subjects planningEnabled tables .organizations) }

def Schedule.step (s : Schedule) : ScheduleEvent → Schedule
  | .start t =>
    if (s.queue.transaction? t).isSome || (s.ticks t).isSome then s
    else
      { s with
        queue := beginTransaction t s.queue
        ticks := Function.update s.ticks t (some
          { now := s.queue.now
            todo := [.organizations]
            committed := false
            steady := Statement.subjects planningEnabled s.tables .organizations }) }
  | .run t =>
    match s.ticks t with
    | none => s
    | some tick => s.run planningEnabled t tick
  | .abort t =>
    match s.ticks t with
    | none => s
    | some _ => { s with queue := rollback t s.queue, ticks := Function.update s.ticks t none }
  | .write tables =>
    { s with tables, ticks := fun t => (s.ticks t).map (·.restrict planningEnabled tables) }
  | .other e =>
    -- Nobody else runs statements in the transaction of a tick.
    if e.transaction.any fun t => (s.ticks t).isSome then s
    else { s with queue := Jobs.step s.queue e, created := s.created ++ e.creates s.queue }
  | .retire ids => { s with queue := Jobs.retire ids s.queue }

/-- Schedulers on an empty queue. -/
def schedulers : Machine Schedule ScheduleEvent where
  Init s := ∃ now tables, s = ⟨.start now, tables, fun _ => none, [], []⟩
  step s e := s.step planningEnabled e

end Schedule

end Planipus.Jobs

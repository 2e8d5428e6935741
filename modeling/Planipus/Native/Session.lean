import Planipus.Library.Machine
import Planipus.Native.Outbox

/-!
# Sessions of the Mac edition

The coordinator with its repository and the calendars of the provider, as a machine. The run slot
admits one pass or one decision at a time, so the coordinator is at one point of one of them, its
`Activity`. One step makes at most one durable write, to the repository or to the provider, with the
reads that come before it, and a lookup that shows somebody else's event is a step before that of the
quarantine; between any two steps the process may end, a call may throw, and anybody may edit the
destination. What the provider and the clock answer to a step is in its `Answers`.
-/

namespace Planipus.Native

open CalendarSync

/-! ## The state -/

/-- Where a drain is with the first of its effects. -/
inductive Stage
  | attempt
  /-- The effect is marked `applying`. -/
  | apply
  /-- The request has been answered. -/
  | settle (result : Except ProviderError Unit)
  /-- `finish` has written the projection. -/
  | succeed
  /-- The destination is not owned, and the effect is to be quarantined. -/
  | foreign

/-- The policies of a pass that read one calendar. -/
structure Feed where
  endpoint : CalendarEndpoint
  policies : List SyncPolicy

inductive Activity
  | idle
  /-- A pass: the writes that a reconciliation has left to make, the reconciliations of the calendar
  that was committed last, and the calendars to come. -/
  | feeding (endpoint : CalendarEndpoint) (writes : List RepositoryWrite)
      (pending : List (SyncPolicy × SourceEvent)) (feeds : List Feed)
  /-- `resolveNotice(restore)` once the hold is off the projection. -/
  | restoring (notice : StoredNotice) (projection : StoredProjection)
  /-- `resolveNotice` before `markResolved`. -/
  | marking (notice : StoredNotice) (action : SyncNoticeResolution)
  /-- `drainOutbox`, before its effects are fetched. -/
  | fetching
  | draining (stage : Stage) (effects : List OutboxEffect)

structure Session where
  repository : Repository
  calendars : Calendars
  activity : Activity

/-- What the environment of the coordinator answers to a step. -/
structure Answers where
  now : Instant := 0
  /-- The call to the provider fails. -/
  failure : Option ProviderError := none
  /-- A request that fails has been performed all the same. -/
  performed : Bool := false
  /-- The revision of the version that a write makes. -/
  revision : String := ""
  /-- The pages of a traversal. -/
  staged : List SourceEvent := []
  nextSyncToken : Option String := none
  /-- The window of a full traversal. -/
  fullStart : Instant := 0
  fullEnd : Instant := 0
  /-- The IDs of what `dueEffects` returns before it is cut off. -/
  due : List Nat := []
  /-- `resolvePolicy`. -/
  policy : Option SyncPolicy := none

inductive Event
  | runOnce (policies : List SyncPolicy)
  | resolveNotice (id : Nat) (action : SyncNoticeResolution)
  | advance (answers : Answers)
  /-- The process ends, the lifecycle changes, or a call throws what nobody catches. -/
  | abort
  | edit (place : Place) (version : Option Version)

namespace Session

variable (runtime : Runtime)

def write (now : Instant) (write : RepositoryWrite) (session : Session) : Session :=
  { session with repository := session.repository.write now write }

def become (activity : Activity) (session : Session) : Session := { session with activity }

/-! ## A pass -/

/-- `Dictionary(grouping:by:)` over the enabled policies, by calendar. -/
def feeds (policies : List SyncPolicy) : List Feed :=
  let enabled := policies.filter (·.enabled)
  let text (endpoint : CalendarEndpoint) : String :=
    "google\u001f" ++ endpoint.accountID ++ "\u001f" ++ endpoint.calendarID
  let endpoints := ((enabled.map (·.sourceEndpoint)).eraseDupsBy fun left right =>
    !otherEndpoint runtime left right).mergeSort fun left right =>
      !textBefore runtime.env (text right) (text left)
  endpoints.map fun endpoint =>
    ⟨endpoint, enabled.filter fun policy => !otherEndpoint runtime policy.sourceEndpoint endpoint⟩

/-- The commit of `syncFeed`, and the reconciliations that follow it. -/
def commit (answers : Answers) (feed : Feed) (feeds : List Feed) (session : Session) : Session :=
  let mode : ChangeBatchMode := match session.repository.syncToken feed.endpoint with
    | none => .full answers.fullStart answers.fullEnd
    | some _ => .incremental
  let (repository, tombstones) := session.repository.commit runtime.env feed.endpoint mode
    answers.staged answers.nextSyncToken
  { session with
    repository
    activity := .feeding feed.endpoint []
      (feed.policies.flatMap fun policy =>
        (repository.observations feed.endpoint ++ tombstones).map fun event => (policy, event))
      feeds }

/-- A feed throws. -/
def failFeed (endpoint : CalendarEndpoint) (error : ProviderError) (session : Session) : Session :=
  { session with
    repository :=
      if error = .cursorExpired then session.repository.clearSyncToken endpoint
      else session.repository
    activity := .idle }

/-- An answer without the event. Of the errors, only an expired cursor is told from the others. -/
def failingReply (error : ProviderError) : Google.HTTPResponse :=
  ⟨if error = .cursorExpired then 410 else 500, none⟩

/-- The answer to the lookup of a copy, where there is a projection. -/
def answerCopy (answers : Answers) (session : Session) :
    Option StoredProjection → Google.HTTPResponse
  | none => ⟨404, none⟩
  | some projection =>
    match answers.failure with
    | some error => failingReply error
    | none => reply session.calendars (projection.place runtime)

/-- `reconcile` of an event on the current state. -/
def reconcile (answers : Answers) (policy : SyncPolicy) (event : SourceEvent) (session : Session) :
    Except ProviderError (List RepositoryWrite) :=
  let stored := session.repository.projection ⟨policy.id, event.id, event.occurrenceID⟩
  Native.reconcile runtime event policy stored (session.answerCopy runtime answers stored)

/-- One step of a pass. -/
def feed (answers : Answers) (endpoint : CalendarEndpoint) :
    List RepositoryWrite → List (SyncPolicy × SourceEvent) → List Feed → Session → Session
  | write :: writes, pending, feeds, session =>
    (session.write answers.now write).become (.feeding endpoint writes pending feeds)
  | [], (policy, event) :: pending, feeds, session =>
    match session.reconcile runtime answers policy event with
    | .error error => session.failFeed endpoint error
    | .ok [] => session.become (.feeding endpoint [] pending feeds)
    | .ok (write :: writes) =>
      (session.write answers.now write).become (.feeding endpoint writes pending feeds)
  | [], [], feed :: feeds, session =>
    match answers.failure with
    | some error => session.failFeed feed.endpoint error
    | none =>
      if answers.staged.all fun event =>
          Policy.sameText runtime.env event.calendarID feed.endpoint.calendarID then
        session.commit runtime answers feed feeds
      else session.become .idle
  | [], [], [], session => session.become .fetching

/-! ## A decision -/

/-- `resolveNotice` up to the projection that is saved. -/
def resolveNotice (id : Nat) (action : SyncNoticeResolution) (session : Session) : Session :=
  match session.repository.notices.find? fun notice => notice.id = id with
  | none => session
  | some notice =>
    if !notice.notice.kind.carriesDecision || notice.status = .resolved then session
    else
      match session.repository.projection notice.notice.projectionKey with
      | none => session
      | some projection =>
        if projection.hold.isNone || projection.detached then session
        else
          match action with
          | .keepAndDetach =>
            { session with
              repository := session.repository.saveProjection
                { projection with hold := none, detached := true }
              activity := .marking notice action }
          | .restore =>
            { session with
              repository := session.repository.saveProjection { projection with hold := none }
              activity := .restoring notice { projection with hold := none } }

/-- The source event of a projection. -/
def sourceEvent (key : ProjectionKey) (observations : List SourceEvent) : Option SourceEvent :=
  observations.find? fun event =>
    Policy.sameText runtime.env event.id key.sourceEventID &&
      !otherRevision runtime event.occurrenceID key.sourceOccurrenceID

/-- `enqueueRestore` once the policy is found; `event` is the source event and `observed` the copy. -/
def enqueueRestore (projection : StoredProjection) (key : ProjectionKey) (policy : SyncPolicy)
    (event : Option SourceEvent) (observed : Option SourceEvent) : RepositoryWrite :=
  let desired : Option (SourceEvent × DesiredCopy) := event.bind fun event =>
    let decision := evaluate runtime.env runtime.formatters.dateText runtime.services event policy
      true
    if decision.action = .copy then decision.desiredCopy.map fun desired => (event, desired)
    else none
  match desired with
  | some (event, desired) =>
    enqueue (if observed.isNone then .create else .update) event.providerRevision policy key
      projection.destinationEndpoint projection.destinationEventID
      (observed.bind (·.providerRevision)) (some desired) (fingerprint desired)
  | none =>
    match observed with
    | none => .deleteProjection key
    | some observed =>
      enqueue .delete (event.bind (·.providerRevision)) policy key projection.destinationEndpoint
        projection.destinationEventID observed.providerRevision none projection.desiredFingerprint

/-- The write of `enqueueRestore`, or nothing where it throws. -/
def restoreWrite (answers : Answers) (notice : StoredNotice) (projection : StoredProjection)
    (session : Session) : Option RepositoryWrite := do
  let key := notice.notice.projectionKey
  let policy ← answers.policy
  let event := sourceEvent runtime key (session.repository.observations policy.sourceEndpoint)
  match lookup runtime answers.failure session.calendars projection.destinationEndpoint
      projection.destinationEventID with
  | .error _ => none
  | .ok none => return enqueueRestore runtime projection key policy event none
  | .ok (some observed) =>
    if isOwned runtime observed policy.id projection.destinationEventID then
      return enqueueRestore runtime projection key policy event (some observed)
    else none

def markResolved (notice : StoredNotice) (action : SyncNoticeResolution) (session : Session) :
    Session :=
  { session with
    repository := session.repository.updateNotice
      { notice with status := .resolved, resolution := some action } }

/-! ## The drain -/

/-- What a drain writes for the first of its effects, and where it is then. -/
def conclude (now : Instant) (effect : OutboxEffect) (rest : List OutboxEffect) :
    Verdict → Session → Session
  | .finish providerRevision continues, session =>
    let rest := if continues then rest else []
    match effect.finish providerRevision with
    | some write => (session.write now write).become (.draining .succeed (effect :: rest))
    | none => session.become (.draining .attempt rest)
  | .quarantine, session => session.become (.draining .foreign (effect :: rest))
  | .ambiguous, session =>
    { session with
      repository := session.repository.markAmbiguous effect.id
      activity := .idle }
  | .retry delay, session =>
    { session with
      repository := session.repository.scheduleRetry effect.id (now + delay)
      activity := .idle }
  | .revise mutation, session =>
    { session with
      repository := session.repository.reviseEffect effect.id mutation now
      activity := .idle }
  | .escape, session => session.become .idle

/-- What the lookup of the effect's destination shows. -/
def existing (answers : Answers) (effect : OutboxEffect) (session : Session) :
    Except ProviderError (Option SourceEvent) :=
  lookup runtime answers.failure session.calendars effect.mutation.destinationEndpoint
    effect.mutation.destinationEventID

/-- The request, which may be performed without an answer. -/
def request (answers : Answers) (effect : OutboxEffect) (rest : List OutboxEffect)
    (session : Session) : Session :=
  let answer := apply runtime effect.mutation answers.revision session.calendars
  let calendars := match answer with
    | .ok calendars =>
      if answers.failure.isSome && !answers.performed then session.calendars else calendars
    | .error _ => session.calendars
  let result : Except ProviderError Unit := match answers.failure, answer with
    | some error, _ => .error error
    | none, .error error => .error error
    | none, .ok _ => .ok ()
  { session with calendars, activity := .draining (.settle result) (effect :: rest) }

/-- What becomes of the effect at this stage, or an error that is still to be caught; nothing where
the effect is not yet settled. -/
def verdict (answers : Answers) (effect : OutboxEffect) (session : Session) :
    Stage → Option (Except ProviderError Verdict)
  | .attempt => discover runtime effect (session.existing runtime answers effect)
  | .settle (.ok ()) =>
    if effect.mutation.operation = .delete then some (.ok (.finish none true))
    else some (verifyApplied runtime effect (session.existing runtime answers effect))
  | .settle (.error error) =>
    some (.ok (caught runtime effect (session.existing runtime answers effect) error))
  | .apply | .succeed | .foreign => none

/-- One step of a drain for the first of its effects. -/
def drain (answers : Answers) (effect : OutboxEffect) (rest : List OutboxEffect) (stage : Stage)
    (session : Session) : Session :=
  match session.verdict runtime answers effect stage with
  | some (.ok verdict) => session.conclude answers.now effect rest verdict
  | some (.error error) =>
    session.become (.draining (.settle (.error error)) (effect :: rest))
  | none =>
    match stage with
    | .apply => session.request runtime answers effect rest
    | .succeed =>
      { session with
        repository := session.repository.markSucceeded effect.id
        activity := .draining .attempt rest }
    | .foreign =>
      { session with
        repository := session.repository.markQuarantined effect.id
        activity := .draining .attempt rest }
    | _ =>
      { session with
        repository := session.repository.markApplying effect.id
        activity := .draining .apply (effect :: rest) }

/-! ## The machine -/

/-- One step of what the coordinator is doing. -/
def advance (answers : Answers) (session : Session) : Session :=
  match session.activity with
  | .idle => session
  | .feeding endpoint writes pending feeds =>
    session.feed runtime answers endpoint writes pending feeds
  | .restoring notice projection =>
    match session.restoreWrite runtime answers notice projection with
    | none => session.become .idle
    | some write => (session.write answers.now write).become (.marking notice .restore)
  | .marking notice action =>
    (session.markResolved notice action).become
      (match action with
      | .restore => .fetching
      | .keepAndDetach => .idle)
  | .fetching =>
    let due := answers.due.filterMap fun id =>
      session.repository.outbox.find? fun effect => effect.id = id
    if session.repository.DueEffects answers.now due then
      session.become (.draining .attempt (due.take 100))
    else session
  | .draining _ [] => session.become .idle
  | .draining stage (effect :: rest) => session.drain runtime answers effect rest stage

def step (session : Session) : Event → Session
  | .runOnce policies =>
    match session.activity with
    | .idle =>
      match feeds runtime policies with
      | [] => session
      | feed :: feeds => session.become (.feeding feed.endpoint [] [] (feed :: feeds))
    | _ => session
  | .resolveNotice id action =>
    match session.activity with
    | .idle => session.resolveNotice id action
    | _ => session
  | .advance answers => session.advance runtime answers
  | .abort => session.become .idle
  | .edit place version =>
    { session with calendars := session.calendars.push place version }

/-- A new installation beside whatever the provider holds. -/
def machine : Library.Machine Session Event where
  Init session := session.repository = {} ∧ session.activity = .idle
  step := step runtime

end Session

end Planipus.Native

import Planipus.Library.Machine
import Planipus.Sync.System

/-!
# Executions and commands that interleave

`Sync.System` takes an execution of an effect as one event. Here it is cut where it waits: it takes
the lock of the policy row and passes the gate, it sends its requests one by one, and it commits
what it has found; `setPaused` takes the same lock before it commits the new status. Between any two
of these steps every other event may happen, and any number of workers and commands wait for the
lock.

The lock of the policy row is the only one that is modelled. The locks of the effect, the projection
and the source event keep other transactions from these rows during an execution; without them there
are more runs, not fewer.

`dialogue_run` connects the two: a dialogue that is answered by a session is the conversation of
`Sync.Effects`.
-/

namespace Planipus.Sync

open CalendarSync Provider Library

/-! ## A conversation, cut at its requests -/

/-- What is left of a conversation: it has ended, or it waits for the answer to its next request. -/
inductive Dialogue
  | ended (outcome : ProviderOutcome)
  | read (id : EventId) (next : Except ProviderError (Option RemoteEvent) → Dialogue)
  | write (request : Request) (next : Except ProviderError Revision → Dialogue)

namespace Dialogue

/-- Serialize and send. What cannot be serialized is not sent. -/
def writeDesired (desired : DesiredCopy) (request : Payload → Request)
    (next : Except ProviderError Revision → Dialogue) : Dialogue :=
  match Payload.ofDesired? desired with
  | none => next (.error serializerError)
  | some payload => .write (request payload) next

def writeEnds (id : EventId) : Except ProviderError Revision → Dialogue
  | .ok revision => .ended (.succeeded (some (id, revision)))
  | .error error => .ended (.raised error)

/-- A missing event counts as deleted. -/
def deleteEnds : Except ProviderError Revision → Dialogue
  | .ok _ => .ended (.succeeded none)
  | .error error =>
    if error.status = some 404 ∨ error.status = some 410 then .ended (.succeeded none)
    else .ended (.raised error)

section

variable (setup : Setup) (p : ProjectionRow) (e : EffectRow)

def rewriteFound (id : EventId) (found : RemoteEvent) (desired : DesiredCopy) : Dialogue :=
  if belongs setup p found then
    writeDesired desired (.update id (some found.revision)) (writeEnds id)
  else .ended .mismatch

def create (desired : DesiredCopy) : Dialogue :=
  let id := executionEventId setup p
  .read id fun
    | .error error => .ended (.raised error)
    | .ok (some found) => rewriteFound setup p id found desired
    | .ok none =>
      if e.ambiguous then .ended .missing else writeDesired desired (.create id) (writeEnds id)

def lookAgain (id : EventId) (desired : DesiredCopy) : Dialogue :=
  .read id fun
    | .error error => .ended (.raised error)
    | .ok none => .ended .missing
    | .ok (some found) => rewriteFound setup p id found desired

def conditionalUpdate (id : EventId) (expected : Option Revision) (desired : DesiredCopy) :
    Dialogue :=
  writeDesired desired (.update id expected) fun
    | .ok revision => .ended (.succeeded (some (id, revision)))
    | .error error =>
      if error.status ≠ some 404 then .ended (.raised error) else lookAgain setup p id desired

def update (desired : DesiredCopy) : Dialogue :=
  match p.destinationEventId with
  | none =>
    let id := executionEventId setup p
    writeDesired desired (.create id) (writeEnds id)
  | some id =>
    if e.ambiguous then
      .read id fun
        | .error error => .ended (.raised error)
        | .ok none => .ended .missing
        | .ok (some found) =>
          if belongs setup p found then conditionalUpdate setup p id (some found.revision) desired
          else .ended .mismatch
    else conditionalUpdate setup p id p.destinationEtag desired

def delete : Dialogue :=
  match deleteEventId setup p e with
  | none => .ended (.succeeded none)
  | some id =>
    if e.ambiguous then
      .read id fun
        | .error error => .ended (.raised error)
        | .ok none => .ended (.succeeded none)
        | .ok (some found) =>
          if belongs setup p found then .write (.delete id (some found.revision)) deleteEnds
          else .ended .mismatch
    else .write (.delete id p.destinationEtag) deleteEnds

def operation : Dialogue :=
  match e.operation, e.desiredState with
  | .delete, _ => delete setup p e
  | _, none => .ended (.raised invalidDesiredState)
  | .create, some desired => create setup p e desired
  | .update, some desired => update setup p e desired

/-- The conversation of an execution that has passed the gate. -/
def start (token : TokenReply) : Dialogue :=
  match token with
  | .granted => operation setup p e
  | .denied => .ended (.raised { code := .providerAuth, retryable := false, status := some 401 })
  | .unavailable => .ended (.raised { code := .connectionUnavailable, retryable := true })

end

/-- The dialogue with a session that answers its requests. -/
def run : Dialogue → Session → Session × ProviderOutcome
  | .ended outcome, session => (session, outcome)
  | .read id next, session => run (next (session.getEvent id).2) (session.getEvent id).1
  | .write request next, session => run (next (session.send request).2) (session.send request).1

section Run

variable {setup : Setup} {p : ProjectionRow} {e : EffectRow} {session : Session}

theorem run_writeDesired (desired : DesiredCopy) (request : Payload → Request)
    (next : Except ProviderError Revision → Dialogue) :
    (writeDesired desired request next).run session =
      (next (session.sendDesired desired request).2).run (session.sendDesired desired request).1 := by
  unfold writeDesired Session.sendDesired
  cases Payload.ofDesired? desired <;> rfl

theorem run_writeEnds (id : EventId) (reply : Session × Except ProviderError Revision) :
    (writeEnds id reply.2).run reply.1 = writeOutcome id reply := by
  obtain ⟨session, result⟩ := reply
  cases result <;> rfl

theorem run_deleteEnds (id : EventId) (expected : Option Revision) :
    (deleteEnds (session.send (.delete id expected)).2).run (session.send (.delete id expected)).1 =
      deleteOutcome (session.deleteEvent id expected) := by
  unfold Session.deleteEvent
  obtain ⟨session', result⟩ := session.send (.delete id expected)
  cases result with
  | ok revision => rfl
  | error error =>
    dsimp only [deleteEnds]
    split <;> rfl

theorem run_rewriteFound (id : EventId) (found : RemoteEvent) (desired : DesiredCopy) :
    (rewriteFound setup p id found desired).run session =
      Sync.rewriteFound setup p session id found desired := by
  unfold rewriteFound Sync.rewriteFound
  split
  · rw [run_writeDesired, run_writeEnds]
    rfl
  · rfl

theorem run_lookAgain (id : EventId) (desired : DesiredCopy) :
    (lookAgain setup p id desired).run session = Sync.lookAgain setup p session id desired := by
  unfold lookAgain Sync.lookAgain run
  obtain ⟨session', result⟩ := session.getEvent id
  rcases result with error | _ | found
  · rfl
  · rfl
  · exact run_rewriteFound id found desired

theorem run_create (desired : DesiredCopy) :
    (create setup p e desired).run session = runCreate setup p e session desired := by
  unfold create runCreate run
  dsimp only
  obtain ⟨session', result⟩ := session.getEvent (executionEventId setup p)
  rcases result with error | _ | found
  · rfl
  · dsimp only
    split
    · rfl
    · rw [run_writeDesired, run_writeEnds]
      rfl
  · exact run_rewriteFound _ found desired

theorem run_conditionalUpdate (id : EventId) (expected : Option Revision) (desired : DesiredCopy) :
    (conditionalUpdate setup p id expected desired).run session =
      runConditionalUpdate setup p session id expected desired := by
  unfold conditionalUpdate runConditionalUpdate
  rw [run_writeDesired]
  unfold Session.updateEvent
  obtain ⟨session', result⟩ := session.sendDesired desired (.update id expected)
  cases result with
  | ok revision => rfl
  | error error =>
    dsimp only
    split
    · rfl
    · exact run_lookAgain id desired

theorem run_update (desired : DesiredCopy) :
    (update setup p e desired).run session = runUpdate setup p e session desired := by
  unfold update runUpdate
  cases p.destinationEventId with
  | none =>
    dsimp only
    rw [run_writeDesired, run_writeEnds]
    rfl
  | some id =>
    dsimp only
    split
    · unfold run
      obtain ⟨session', result⟩ := session.getEvent id
      rcases result with error | _ | found
      · rfl
      · rfl
      · dsimp only
        split
        · exact run_conditionalUpdate id _ desired
        · rfl
    · exact run_conditionalUpdate id _ desired

theorem run_delete : (delete setup p e).run session = runDelete setup p e session := by
  unfold delete runDelete
  cases deleteEventId setup p e with
  | none => rfl
  | some id =>
    dsimp only
    split
    · unfold run
      obtain ⟨session', result⟩ := session.getEvent id
      rcases result with error | _ | found
      · rfl
      · rfl
      · dsimp only
        split
        · exact run_deleteEnds id _
        · rfl
    · exact run_deleteEnds id _

/-- **The dialogue is the conversation**: answered by a session, it makes the requests of
`runProvider` and comes to its outcome. -/
theorem dialogue_run (token : TokenReply) :
    (start setup p e token).run session = runProvider setup p e token session := by
  cases token with
  | granted =>
    unfold start runProvider operation runOperation
    cases e.operation with
    | delete => exact run_delete
    | create =>
      cases e.desiredState with
      | none => rfl
      | some desired => exact run_create desired
    | update =>
      cases e.desiredState with
      | none => rfl
      | some desired => exact run_update desired
  | denied => rfl
  | unavailable => rfl

end Run

end Dialogue

/-! ## The machine -/

/-- An execution that has passed the gate. -/
structure Execution where
  input : ExecuteInput
  effect : EffectRow
  projection : ProjectionRow
  dialogue : Dialogue

/-- Who holds the lock of the policy row: an execution for the projection, a `setPaused`, or a
transaction that does not concern the projection. -/
inductive Holder
  | execution (x : Execution)
  | command (paused : Bool)
  | elsewhere

structure Concurrent where
  rows : State
  holder : Option Holder

inductive Move
  /-- A worker gets the lock of the policy row for a leased effect. -/
  | gate (input : ExecuteInput)
  /-- The next request of the execution is sent and answered. -/
  | exchange (exchange : Exchange)
  /-- The execution commits what its conversation has come to. -/
  | finish (now : Instant) (replacement : Insertion)
  /-- The worker dies, and its transaction is rolled back. -/
  | die
  | lockCommand (paused : Bool)
  | commitCommand (now : Instant)
  | lockElsewhere
  | unlockElsewhere
  /-- Any other event. -/
  | event (event : Event)

namespace Concurrent

/-- The gate. An execution that it stops commits at once. -/
def gate (setup : Setup) (input : ExecuteInput) (c : Concurrent) : Concurrent :=
  match c.holder with
  | some _ => c
  | none =>
    match leasedEffect input c.rows with
    | none => c
    | some e =>
      match Sync.gate setup c.rows e with
      | .error outcome => { c with rows := (record input e c.rows outcome).getD c.rows }
      | .ok p => { c with holder := some (.execution ⟨input, e, p, .start setup p e input.token⟩) }

/-- The request of the execution goes to the calendar as it is now. -/
def exchange (ex : Exchange) (c : Concurrent) : Concurrent :=
  match c.holder with
  | some (.execution x) =>
    let session : Session := ⟨c.rows.calendar, [ex], []⟩
    match x.dialogue with
    | .ended _ => c
    | .read id next =>
      { rows := { c.rows with calendar := (session.getEvent id).1.calendar }
        holder := some (.execution { x with dialogue := next (session.getEvent id).2 }) }
    | .write request next =>
      { rows := { c.rows with calendar := (session.send request).1.calendar }
        holder := some (.execution { x with dialogue := next (session.send request).2 }) }
  | _ => c

/-- The write request that the step sends. -/
def requested (c : Concurrent) : Move → List Request
  | .exchange _ =>
    match c.holder with
    | some (.execution x) =>
      match x.dialogue with
      | .write request _ => [request]
      | _ => []
    | _ => []
  | _ => []

def finish (setup : Setup) (now : Instant) (replacement : Insertion) (c : Concurrent) : Concurrent :=
  match c.holder with
  | some (.execution x) =>
    match x.dialogue with
    | .ended outcome =>
      if c.rows.freshEffect replacement.id then
        let input := { x.input with now, replacement }
        { rows := (record input x.effect c.rows
            (conclude setup c.rows x.projection x.effect outcome)).getD (abandon input c.rows)
          holder := none }
      else c
    | _ => c
  | _ => c

def die (c : Concurrent) : Concurrent :=
  match c.holder with
  | some (.execution x) => ⟨abandon x.input c.rows, none⟩
  | _ => c

def lock (holder : Holder) (c : Concurrent) : Concurrent :=
  match c.holder with
  | some _ => c
  | none => { c with holder := some holder }

def commitCommand (setup : Setup) (now : Instant) (c : Concurrent) : Concurrent :=
  match c.holder with
  | some (.command paused) => ⟨commit c.rows (setPaused setup paused now c.rows), none⟩
  | _ => c

def unlockElsewhere (c : Concurrent) : Concurrent :=
  match c.holder with
  | some .elsewhere => { c with holder := none }
  | _ => c

/-- The events of `Sync.System` that have steps of their own here. -/
def cut : Event → Bool
  | .execute _ | .setPaused _ _ => true
  | _ => false

def step (setup : Setup) (c : Concurrent) : Move → Concurrent
  | .gate input => c.gate setup input
  | .exchange ex => c.exchange ex
  | .finish now replacement => c.finish setup now replacement
  | .die => c.die
  | .lockCommand paused => c.lock (.command paused)
  | .commitCommand now => c.commitCommand setup now
  | .lockElsewhere => c.lock .elsewhere
  | .unlockElsewhere => c.unlockElsewhere
  | .event event => if cut event then c else { c with rows := Sync.step setup c.rows event }

/-- The interleaved service, from a state before the first reconciliation. -/
def machine (setup : Setup) : Machine Concurrent Move where
  Init c := Initial setup c.rows ∧ c.holder = none
  step := step setup

end Concurrent

end Planipus.Sync

import Planipus.Library.Machine
import Planipus.Ingest.State
import Planipus.Sync.Reconciliation

/-!
# `syncCalendar`, one transaction at a time

`server/src/sync/coordinator.ts`, `syncCalendar` and `persistObservationPage`, and the purge of
`providers/google/oauth.ts`. Executions interleave at the points where `syncCalendar` waits: between
reading the cursor and the update that begins the listing, before and after every `listEvents`, and
between the stored pages and the last transaction. A worker can die at each of them, and nothing
stops an execution whose job lease has been lost (`jobs/leased-job.ts`): the lease is looked at when
`syncCalendar` has returned.

`Outcome` is the description of a step that the proofs read instead of the definitions.
-/

namespace Planipus.Ingest

open CalendarSync Library Sync

def maxPagesPerSync : Nat := 200
def fullSyncRefreshMilliseconds : Int := 24 * 60 * 60 * 1000
def minimumPollIntervalMilliseconds : Int := 60 * 1000
def fullSyncPastDays : Nat := 30
def fullSyncFutureDays : Nat := 365

def roleCanSyncEventContent (role : ConnectionRole) : Bool := role = .source || role = .both

/-- The authority that every transaction checks again. -/
def authorized (endpoint : Endpoint) : Bool :=
  endpoint.connectionStatus = .active && roleCanSyncEventContent endpoint.intendedRole

/-! ## The start -/

/-- One more than every generation of the calendar's cursors and observations. -/
def nextCalendarGeneration (s : State) : Nat :=
  let cursorMaximum := max s.priorGeneration (s.cursor.elim 0 SyncCursor.generation)
  let observationMaximum := s.rows.foldl (fun m row => max m row.syncGeneration) 0
  max cursorMaximum observationMaximum + 1

/-- The insert of a new cursor, which does nothing when there is one, and the row that is read. -/
def insertedCursor (s : State) : SyncCursor :=
  s.cursor.getD
    { id := s.opened
      syncToken := none
      generation := nextCalendarGeneration s
      state := .fullRequired
      lastStartedAt := none
      lastFullSyncAt := none }

/-- The check of the calendar and the transaction that reads the cursor. The transaction's own check
of the connection is weaker than that of the calendar. -/
def openRun (s : State) : State :=
  if s.endpoint.usable .source then
    { s with
      cursor := some (insertedCursor s)
      runs := fun j => if j = s.opened then some (Run.opening (insertedCursor s)) else s.runs j
      opened := s.opened + 1 }
  else s

/-- A complete refresh is due. -/
def refreshDue (cursor : SyncCursor) (now : Instant) : Bool :=
  cursor.syncToken.isSome &&
    cursor.lastFullSyncAt.all fun last => now - last ≥ fullSyncRefreshMilliseconds

/-- A listing began less than the polling interval ago. -/
def polledRecently (cursor : SyncCursor) (now : Instant) : Bool :=
  cursor.state = .ready &&
    cursor.lastStartedAt.any fun last => now - last < minimumPollIntervalMilliseconds

/-- The cursor asks for a full sync under a new generation. -/
def SyncCursor.reset (cursor : SyncCursor) : SyncCursor :=
  { cursor with syncToken := none, generation := cursor.generation + 1, state := .fullRequired }

def fullWindow (now : Instant) : InstantInterval :=
  ⟨now - fullSyncPastDays * dayMilliseconds, now + fullSyncFutureDays * dayMilliseconds⟩

/-- From `fullTimeMin` to `fullTimeMax`. -/
def Run.window (r : Run) : InstantInterval := fullWindow r.capturedAt

/-- The page loop is about to begin, with its variables. -/
def Run.begin (r : Run) (now : Instant) (version : Nat) : Run :=
  { r with
    phase := .listing
    capturedAt := now
    pages := 0
    finalSyncToken := none
    startVersion := version
    listed := [] }

/-- `currentCursor` is the row as it was read: the refresh is lost when the token has changed. -/
def beginRun (s : State) (i : Nat) (now : Instant) : State :=
  match s.runs i with
  | none => s
  | some r =>
    if r.phase = .opened then
      if refreshDue r.currentCursor now then
        (s.updateCursor r.currentCursor fun c =>
          if c.syncToken = r.currentCursor.syncToken then c.reset else c).setRun i none
      else if polledRecently r.currentCursor now then s.setRun i none
      else
        { (s.updateCursor r.currentCursor fun c =>
            { c with state := .syncing, lastStartedAt := some now }).setRun i
              (some (r.begin now s.version)) with
          latest := some i }
    else s

/-! ## The page loop -/

/-- What `listEvents` throws: 410, or anything else. -/
inductive ListError | gone | other
deriving DecidableEq

/-- The `catch` of the page loop. -/
def failRun (s : State) (i : Nat) (r : Run) : ListError → State
  | .gone => (s.updateCursor r.currentCursor SyncCursor.reset).setRun i none
  | .other =>
    (s.updateCursor r.currentCursor fun c => { c with state := .actionRequired }).setRun i none

def fetchPage (s : State) (i : Nat) (reply : Except ListError ProviderEventPage) : State :=
  match s.runs i with
  | none => s
  | some r =>
    if r.phase = .listing then
      if r.pages + 1 > maxPagesPerSync then failRun s i r .other
      else
        match reply with
        | .ok page =>
          s.setRun i (some { r with phase := .received page, pages := r.pages + 1 })
        | .error error => failRun s i r error
    else s

/-- The upserts of a page, in its order. -/
def persistObservationPage (generation : Nat) (observations : List SourceObservation)
    (rows : List SourceRow) : List SourceRow :=
  observations.foldl
    (fun rows o => upsertRow SourceRow.key (SourceRow.ofObservation generation o) rows) rows

/-- The run after a stored page. -/
def Run.stored (r : Run) (page : ProviderEventPage) : Run :=
  { r with
    phase := if page.more then .listing else .complete
    finalSyncToken := page.nextSyncToken.or r.finalSyncToken
    listed := r.listed ++ page.reads }

def persistPage (s : State) (i : Nat) : State :=
  match s.runs i with
  | none => s
  | some r =>
    match r.phase with
    | .received page =>
      if authorized s.endpoint then
        { s with rows := persistObservationPage r.generation page.observations s.rows }.setRun i
          (some (r.stored page))
      else failRun s i r .other
    | _ => s

/-! ## The last transaction -/

/-- What a full scan has not listed is deleted. -/
def tombstoneStale (generation : Nat) (rows : List SourceRow) : List SourceRow :=
  rows.map fun row => if row.syncGeneration < generation then row.markDeleted generation else row

def SyncCursor.advance (cursor : SyncCursor) (token : SyncToken) (fullSync : Bool) (now : Instant) :
    SyncCursor :=
  { cursor with
    syncToken := some token
    state := .ready
    lastFullSyncAt := if fullSync then some now else cursor.lastFullSyncAt }

def commitRun (s : State) (i : Nat) (now : Instant) : State :=
  match s.runs i with
  | none => s
  | some r =>
    if r.phase = .complete then
      match r.finalSyncToken.filter fun token => token.text ≠ "" with
      | none => s.setRun i none
      | some token =>
        if authorized s.endpoint then
          ({ s with
              rows := if r.fullSync then tombstoneStale r.generation s.rows else s.rows
              scannedAt := if r.fullSync then r.capturedAt else s.scannedAt }.updateCursor
            r.currentCursor fun c => c.advance token r.fullSync now).setRun i none
        else s.setRun i none
    else s

/-! ## The purge -/

def removesEventReadAccess (current next : ConnectionRole) : Bool :=
  roleCanSyncEventContent current && next ≠ .source && next ≠ .both

/-- `prepareEventReadRemoval` and the role change that it is a part of. -/
def removeEventRead (s : State) (nextRole : ConnectionRole) : State :=
  if removesEventReadAccess s.endpoint.intendedRole nextRole then
    { s with
      rows := []
      cursor := none
      priorGeneration := 0
      endpoint := { s.endpoint with capable := false, intendedRole := nextRole } }
  else s

/-! ## The machine -/

inductive Event
  /-- Somebody creates, changes or deletes an event at the provider. -/
  | change (o : SourceObservation)
  /-- Discovery, authorization and the user change what the connection allows. -/
  | setEndpoint (endpoint : Endpoint)
  | removeEventRead (nextRole : ConnectionRole)
  | openRun
  | beginRun (run : Nat) (now : Instant)
  | fetchPage (run : Nat) (reply : Except ListError ProviderEventPage)
  | persistPage (run : Nat)
  | commitRun (run : Nat) (now : Instant)
  /-- The worker dies. -/
  | die (run : Nat)

def step (s : State) : Event → State
  | .change o => { s with changes := s.changes ++ [o] }
  | .setEndpoint endpoint => { s with endpoint }
  | .removeEventRead nextRole => removeEventRead s nextRole
  | .openRun => openRun s
  | .beginRun i now => beginRun s i now
  | .fetchPage i reply => fetchPage s i reply
  | .persistPage i => persistPage s i
  | .commitRun i now => commitRun s i now
  | .die i => s.setRun i none

/-- No cursor of the current query and no execution; observations of earlier queries may be there. -/
def Init (s : State) : Prop :=
  s.cursor = none ∧ (∀ i, s.runs i = none) ∧ s.latest = none

def machine : Machine State Event := ⟨Init, step⟩

/-! ## What a step does -/

/-- A cursor that has no token, or the committed one. -/
def KeepsToken (s : State) (cursor : Option SyncCursor) : Prop :=
  ∀ t, cursor.bind SyncCursor.syncToken = some t → s.token = some t

/-- The state after an event. What ends a run or fails leaves the rows as they are, and the
cursor without a token or with the one it had. -/
inductive Outcome (s : State) : Event → State → Prop
  | idle {e : Event} : Outcome s e s
  | changed {o : SourceObservation} :
    Outcome s (.change o) { s with changes := s.changes ++ [o] }
  | allowed {endpoint : Endpoint} : Outcome s (.setEndpoint endpoint) { s with endpoint }
  | purged {nextRole : ConnectionRole} {endpoint : Endpoint} :
    Outcome s (.removeEventRead nextRole)
      { s with rows := [], cursor := none, priorGeneration := 0, endpoint }
  | opened {cursor : SyncCursor} (htoken : cursor.syncToken = s.token) :
    Outcome s .openRun
      { s with
        cursor := some cursor
        runs := fun j => if j = s.opened then some (Run.opening cursor) else s.runs j
        opened := s.opened + 1 }
  | ended {e : Event} {i : Nat} {cursor : Option SyncCursor} (hcursor : KeepsToken s cursor) :
    Outcome s e ({ s with cursor := cursor }.setRun i none)
  | began {i : Nat} {r : Run} {now : Instant} {cursor : Option SyncCursor}
    (hrun : s.runs i = some r) (hphase : r.phase = .opened) (hcursor : KeepsToken s cursor) :
    Outcome s (.beginRun i now)
      { { s with cursor := cursor }.setRun i (some (r.begin now s.version)) with latest := some i }
  | received {i : Nat} {r : Run} {page : ProviderEventPage}
    (hrun : s.runs i = some r) (hphase : r.phase = .listing) :
    Outcome s (.fetchPage i (.ok page))
      (s.setRun i (some { r with phase := .received page, pages := r.pages + 1 }))
  | stored {i : Nat} {r : Run} {page : ProviderEventPage}
    (hrun : s.runs i = some r) (hphase : r.phase = .received page) :
    Outcome s (.persistPage i)
      ({ s with rows := persistObservationPage r.generation page.observations s.rows }.setRun i
        (some (r.stored page)))
  | committed {i : Nat} {r : Run} {now : Instant} {token : SyncToken}
    {cursor : Option SyncCursor} (hrun : s.runs i = some r) (hphase : r.phase = .complete)
    (htoken : r.finalSyncToken = some token)
    (hcursor : ∀ t, cursor.bind SyncCursor.syncToken = some t → t = token ∨ s.token = some t) :
    Outcome s (.commitRun i now)
      ({ s with
          rows := if r.fullSync then tombstoneStale r.generation s.rows else s.rows
          scannedAt := if r.fullSync then r.capturedAt else s.scannedAt
          cursor := cursor }.setRun i none)

/-- An update that keeps the token or drops it. -/
theorem updateCursor_keepsToken {s : State} {cursor : SyncCursor} {f : SyncCursor → SyncCursor}
    (hf : ∀ c, (f c).syncToken = c.syncToken ∨ (f c).syncToken = none) :
    KeepsToken s (s.updateCursor cursor f).cursor := by
  intro t ht
  unfold State.updateCursor at ht
  unfold State.token
  cases hc : s.cursor with
  | none => simp [hc] at ht
  | some c =>
    simp only [hc, Option.map_some, Option.bind_some] at ht ⊢
    split at ht
    · rcases hf c with h | h
      · rwa [h] at ht
      · rw [h] at ht
        cases ht
    · exact ht

theorem keepsToken_refl (s : State) : KeepsToken s s.cursor := fun _ h => h

theorem failRun_outcome (s : State) (e : Event) (i : Nat) (r : Run) (error : ListError) :
    Outcome s e (failRun s i r error) := by
  cases error with
  | gone => exact .ended (updateCursor_keepsToken fun _ => Or.inr rfl)
  | other => exact .ended (updateCursor_keepsToken fun _ => Or.inl rfl)

theorem openRun_outcome (s : State) : Outcome s .openRun (openRun s) := by
  unfold openRun
  split
  · refine .opened ?_
    unfold insertedCursor State.token
    cases s.cursor <;> rfl
  · exact .idle

theorem beginRun_outcome (s : State) (i : Nat) (now : Instant) :
    Outcome s (.beginRun i now) (beginRun s i now) := by
  unfold beginRun
  split
  · exact .idle
  rename_i r hrun
  split
  · rename_i hphase
    split
    · refine .ended (updateCursor_keepsToken fun c => ?_)
      split
      · exact Or.inr rfl
      · exact Or.inl rfl
    · split
      · exact .ended (keepsToken_refl s)
      · exact .began hrun hphase (updateCursor_keepsToken fun _ => Or.inl rfl)
  · exact .idle

theorem fetchPage_outcome (s : State) (i : Nat) (reply : Except ListError ProviderEventPage) :
    Outcome s (.fetchPage i reply) (fetchPage s i reply) := by
  unfold fetchPage
  split
  · exact .idle
  rename_i r hrun
  split
  · rename_i hphase
    split
    · exact failRun_outcome s _ i r .other
    · cases reply with
      | ok page => exact .received hrun hphase
      | error error => exact failRun_outcome s _ i r error
  · exact .idle

theorem persistPage_outcome (s : State) (i : Nat) :
    Outcome s (.persistPage i) (persistPage s i) := by
  unfold persistPage
  split
  · exact .idle
  rename_i r hrun
  split
  · rename_i hphase
    split
    · exact .stored hrun hphase
    · exact failRun_outcome s _ i r .other
  · exact .idle

theorem commitRun_outcome (s : State) (i : Nat) (now : Instant) :
    Outcome s (.commitRun i now) (commitRun s i now) := by
  unfold commitRun
  split
  · exact .idle
  rename_i r hrun
  split
  · rename_i hphase
    split
    · exact .ended (keepsToken_refl s)
    · rename_i token htoken
      split
      · refine .committed hrun hphase (Option.filter_eq_some_iff.1 htoken).1 ?_
        -- Only the row with the ID that was read at the start takes the token.
        intro t ht
        unfold State.token
        cases hc : s.cursor with
        | none => simp [hc] at ht
        | some c =>
          simp only [hc, Option.map_some, Option.bind_some] at ht ⊢
          split at ht
          · exact Or.inl (Option.some.inj ht).symm
          · exact Or.inr ht
      · exact .ended (keepsToken_refl s)
  · exact .idle

/-- Every step is described. -/
theorem step_outcome (s : State) (e : Event) : Outcome s e (step s e) := by
  cases e with
  | change o => exact .changed
  | setEndpoint endpoint => exact .allowed
  | removeEventRead nextRole =>
    show Outcome s _ (removeEventRead s nextRole)
    unfold removeEventRead
    split
    · exact .purged
    · exact .idle
  | openRun => exact openRun_outcome s
  | beginRun i now => exact beginRun_outcome s i now
  | fetchPage i reply => exact fetchPage_outcome s i reply
  | persistPage i => exact persistPage_outcome s i
  | commitRun i now => exact commitRun_outcome s i now
  | die i => exact .ended (keepsToken_refl s)

end Planipus.Ingest

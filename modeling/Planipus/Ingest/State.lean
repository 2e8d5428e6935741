import Planipus.Library.Rows
import Planipus.Sync.Rows

/-!
# The state of calendar ingestion

What `syncCalendar` reads and writes for one calendar (`server/src/sync/coordinator.ts`): the
cursor of the current query, the stored observations, and the executions of `syncCalendar` that are
under way. The provider is its history of changes; a version of the calendar is the number of
changes before it. Each execution works with the cursor row it has read at its start, so the row is
a part of the `Run`.

Some members are no columns and no variables of the source, and no operation decides by them: the
versions of the calendar that a sync token stands for and a page shows, what a run has stored from
which version (`listed`, `startVersion`), the run that began to list last, and the window of the
last full scan.
-/

namespace Planipus.Ingest

open CalendarSync Library Sync

/-! ## Rows -/

/-- The columns `remote_event_id` and `recurrence_identity`, unique within a calendar. -/
structure EventKey where
  remoteEventId : String
  recurrenceIdentity : String
deriving DecidableEq

/-- The key under which an observation is stored. -/
def observationKey (o : SourceObservation) : EventKey := ⟨o.sourceEventRef, o.sourceOccurrenceRef⟩

/-- A row of `source_observations`. -/
structure SourceRow where
  key : EventKey
  remoteEtag : Option String
  observation : ObservationRow
  managedCopy : Bool
  syncGeneration : Nat
deriving DecidableEq

namespace SourceRow

/-- The values of the page upsert. -/
def ofObservation (generation : Nat) (o : SourceObservation) : SourceRow :=
  { key := observationKey o
    remoteEtag := if o.remoteRevision = "" then none else some o.remoteRevision
    observation := .ofEvent o
    managedCopy := o.origin = .planipusManaged
    syncGeneration := generation }

def tombstone (row : SourceRow) : Bool := row.observation.tombstone

/-- The row after a full scan of the generation that has not listed it. -/
def markDeleted (generation : Nat) (row : SourceRow) : SourceRow :=
  { row with
    observation := .ofEvent { row.observation.normalizedEvent with lifecycle := .deleted }
    syncGeneration := generation }

@[simp] theorem ofObservation_key (g : Nat) (o : SourceObservation) :
    (ofObservation g o).key = observationKey o := rfl

@[simp] theorem markDeleted_key (g : Nat) (row : SourceRow) : (row.markDeleted g).key = row.key :=
  rfl

/-- The tombstone column repeats the lifecycle of the stored event. -/
theorem tombstone_eq_false {row : SourceRow} :
    row.tombstone = false ↔ row.observation.normalizedEvent.lifecycle = .confirmed := by
  unfold tombstone
  rw [row.observation.tombstone_eq]
  simp

end SourceRow

/-- A sync token, compared for equality and presence only. `version` is the version of the calendar
that it stands for. -/
structure SyncToken where
  text : String
  version : Nat
deriving DecidableEq

inductive CursorState | fullRequired | syncing | ready | actionRequired
deriving DecidableEq

/-- The row of `sync_cursors` for the current query fingerprint. -/
structure SyncCursor where
  id : Nat
  syncToken : Option SyncToken
  generation : Nat
  state : CursorState
  lastStartedAt : Option Instant
  lastFullSyncAt : Option Instant
deriving DecidableEq

/-! ## Pages and runs -/

/-- A page of a listing. `version` is the version of the calendar that it shows. -/
structure ProviderEventPage where
  version : Nat
  observations : List SourceObservation
  nextPageToken : Option String
  nextSyncToken : Option SyncToken
deriving DecidableEq

/-- The condition of the page loop: an empty token is false. -/
def ProviderEventPage.more (page : ProviderEventPage) : Bool :=
  page.nextPageToken.any (· ≠ "")

/-- An observation with the version of the calendar that its page shows. -/
structure Read where
  version : Nat
  observation : SourceObservation
deriving DecidableEq

def Read.key (r : Read) : EventKey := observationKey r.observation

def ProviderEventPage.reads (page : ProviderEventPage) : List Read :=
  page.observations.map fun o => ⟨page.version, o⟩

/-- Where an execution of `syncCalendar` stands between two transactions. -/
inductive Phase
  /-- The cursor has been read. -/
  | opened
  /-- The next step is `listEvents`. -/
  | listing
  /-- A page has arrived and is not stored yet. -/
  | received (page : ProviderEventPage)
  /-- The page loop is over. -/
  | complete
deriving DecidableEq

/-- An execution of `syncCalendar`. -/
structure Run where
  currentCursor : SyncCursor
  phase : Phase
  /-- The clock from which `fullTimeMin` and `fullTimeMax` are computed, once. -/
  capturedAt : Instant
  pages : Nat
  finalSyncToken : Option SyncToken
  startVersion : Nat
  listed : List Read
deriving DecidableEq

def Run.generation (r : Run) : Nat := r.currentCursor.generation

def Run.fullSync (r : Run) : Bool := r.currentCursor.syncToken.isNone

/-- An execution that has read the cursor; the variables of the listing have no value yet. -/
def Run.opening (cursor : SyncCursor) : Run :=
  { currentCursor := cursor, phase := .opened, capturedAt := 0, pages := 0, finalSyncToken := none,
    startVersion := 0, listed := [] }

structure State where
  /-- The provider's calendar as its changes, oldest first. -/
  changes : List SourceObservation
  endpoint : Endpoint
  /-- The greatest generation among the calendar's cursors of other query fingerprints, or 0. -/
  priorGeneration : Nat
  cursor : Option SyncCursor
  rows : List SourceRow
  runs : Nat → Option Run
  /-- Executions are numbered in the order in which they read the cursor. -/
  opened : Nat
  /-- The execution that began to list last. -/
  latest : Option Nat
  /-- The clock from which the window of the last committed full scan was computed. -/
  scannedAt : Instant

namespace State

/-- The committed sync token. -/
def token (s : State) : Option SyncToken := s.cursor.bind SyncCursor.syncToken

/-- The version of the calendar now. -/
def version (s : State) : Nat := s.changes.length

/-- What the provider holds under the key at a version. -/
def eventAt (s : State) (v : Nat) (k : EventKey) : Option SourceObservation :=
  asOf observationKey s.changes v k

/-- The event under the key is live at the version and satisfies `p`. -/
def liveAt (s : State) (v : Nat) (k : EventKey) (p : SourceObservation → Bool := fun _ => true) :
    Bool :=
  (s.eventAt v k).any fun o => o.lifecycle = .confirmed && p o

/-- No change after version `v` and up to version `t` is one of the key. -/
def Untouched (s : State) (v t : Nat) (k : EventKey) : Prop :=
  Library.Untouched observationKey s.changes v t k

instance (s : State) (v t : Nat) (k : EventKey) : Decidable (s.Untouched v t k) :=
  inferInstanceAs (Decidable (Library.Untouched observationKey s.changes v t k))

/-- Replace the run, or end it. -/
def setRun (s : State) (i : Nat) (r : Option Run) : State :=
  { s with runs := fun j => if j = i then r else s.runs j }

/-- `update sync_cursors ... where id = cursor.id`. -/
def updateCursor (s : State) (cursor : SyncCursor) (f : SyncCursor → SyncCursor) : State :=
  { s with cursor := s.cursor.map fun c => if c.id = cursor.id then f c else c }

end State

/-- The event lies in the window of a full listing: `timeMin` bounds its end and `timeMax` its
start, both exclusively. -/
def inWindow (env : Platform) (window : InstantInterval) (o : SourceObservation) : Bool :=
  o.timing.any fun timing =>
    window.start < (timingInterval env timing).finish &&
      (timingInterval env timing).start < window.finish

end Planipus.Ingest

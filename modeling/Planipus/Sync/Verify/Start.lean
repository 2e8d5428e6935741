import Planipus.Sync.System

/-!
# Where runs start

A machine without initial states would satisfy every statement about its runs. Here every setup has
one for every source event, so that any list of events is a run, and a small setup is fixed on which
runs can be computed.
-/

namespace Planipus.Sync

open CalendarSync Provider Library

def emptyCalendar (reusableIds : Bool) : Calendar where
  events := fun _ => none
  created := []
  nextRevision := 1
  reusableIds
  bounded := by
    intro id ev h
    cases h

/-- An active policy between two usable calendars, with one stored version of the source event. -/
def startState (event : SourceObservation) (reusableIds : Bool := false) : State where
  policyStatus := .active
  source := ⟨true, .active, .source⟩
  destination := ⟨true, .active, .destination⟩
  observation := .ofEvent event
  projection := none
  effects := []
  notices := []
  jobs := []
  calendar := emptyCalendar reusableIds
  passOpen := false
  reads := []
  targets := []
  lookups := []
  crashed := []

section Runs

variable {setup : Setup} {event : SourceObservation} {reusableIds : Bool}

theorem initial_startState : Initial setup (startState event reusableIds) where
  projection := rfl
  effects := rfl
  notices := rfl
  reads := rfl
  targets := rfl
  lookups := rfl
  passOpen := rfl
  calendar :=
    { vacant := fun _ => rfl
      unused := fun _ => List.not_mem_nil
      unmarked := fun _ _ h => by cases h }

/-- The state after a list of events. -/
def runFrom (setup : Setup) (s : State) (events : List Event) : State :=
  (system setup).run s events

/-- Any list of events is a run. -/
theorem reachable_runFrom (events : List Event) :
    (system setup).Reachable (fun _ _ => True)
      (runFrom setup (startState event reusableIds) events) :=
  ⟨_, initial_startState, Machine.leads_run_free events _⟩

theorem reachable_admitted {ok : State → Event → Prop} {events : List Event}
    (h : (system setup).Admits ok (startState event reusableIds) events) :
    (system setup).Reachable ok (runFrom setup (startState event reusableIds) events) :=
  ⟨_, initial_startState, Machine.leads_run events _ h⟩

end Runs

/-! ## A small setup -/

/-- The runtime on lower-case ASCII text in UTC, for a policy without an hours profile. -/
def plainPlatform : Platform where
  normalizeNFC := id
  toLowerCase := id
  trim := id
  simpleCaseFold := id
  caseVariants := fun c => [c]
  isLetterOrNumber := Char.isAlphanum
  startOfDay := fun _ _ => 0
  matchProfile := fun _ _ _ => ⟨false, .outsideHours, [], [], []⟩

/-- Every timed event is copied with its summary. -/
def plainPolicy (destinationEdits : DestinationEditPolicy) : SyncPolicy :=
  { policyRef := "policy"
    revision := 1
    state := .active
    sourceCalendarRef := "work"
    destinationCalendarRef := "home"
    hours := { mode := .allTimes }
    privacy :=
      { preset := .sharedDetails
        genericSummary := "busy"
        copySummary := true
        copyDescription := false
        copyLocation := false
        copyConference := false
        copyAttendees := false
        copyOrganizer := false }
    selection :=
      { timed := .include
        allDay := .skip
        freeEvents := .skipWhenRedacted
        tentative := .busy
        unanswered := .busy
        skipWhenDestinationIdentityInvited := false
        sourceExclusionMarker := ""
        manualExclusions := [] }
    destinationEdits }

def plainSetup (onEdit : DestinationEditMode := .restore) : Setup where
  platform := plainPlatform
  policy := plainPolicy ⟨onEdit, onEdit⟩
  projectionId := "copy-1"
  active := rfl

/-- An hour of a confirmed event that begins `start` hours after the epoch. -/
def plainEvent (summary : String) (start : Int) (revision : String := "r1") : SourceObservation :=
  { sourceEventRef := "event"
    sourceOccurrenceRef := "event"
    remoteRevision := revision
    lifecycle := .confirmed
    origin := .providerOriginal
    timing := some (.timed (start * 3600000) ((start + 1) * 3600000) "utc" "utc")
    availability := some .busy
    relationship := ⟨.none, .notApplicable, none⟩
    destinationIdentityInvited := false
    content := { summary := some summary } }

/-- The same event, deleted at the source. -/
def removedEvent : SourceObservation := { plainEvent "meeting" 1 with lifecycle := .deleted }

def plainContext : PassContext := { now := 0, destinationIdentity := "me" }

/-- A pass over the stored version of an event. -/
def passOver (event : SourceObservation) (id : EffectId) : List Event :=
  [.beginPass, .readObservation, .reconcile plainContext (.ofEvent event) ⟨id, id⟩]

/-- The worker `owner` leases what is due at `now` for a minute. -/
def leaseBy (owner : Owner) (now : Instant) : Event := .lease ⟨owner, now, 60, true⟩

/-- The worker executes the effect with the given script. -/
def executeBy (owner : Owner) (effect : EffectId) (script : List Exchange := [])
    (crash : Bool := false) : Event :=
  .execute { owner, effect, now := 0, script, replacement := ⟨effect + 100, effect + 100⟩, crash }

/-- A create that is carried out and recorded. -/
def createdCopy : List Event :=
  passOver (plainEvent "meeting" 1) 1 ++ [leaseBy "worker" 0, executeBy "worker" 1]

/-- The copy of `plainEvent`, and the event it is written as. -/
def plainCopy (summary : String) (start : Int) (generation : Nat := 1) : DesiredCopy where
  timing := .timed (start * 3600000) ((start + 1) * 3600000) "utc" "utc"
  summary
  transparency := .opaque_
  visibility := .default_
  provenance := ⟨"policy", "copy-1", generation⟩

def plainBody (summary : String) (start : Int) (generation : Nat := 1) : EventBody where
  summary
  description := none
  location := none
  timing := .timed (start * 3600000) ((start + 1) * 3600000) "utc" "utc"
  transparency := .opaque_
  visibility := .default_
  colorId := none
  managedIdentity := some ⟨"policy", "copy-1", generation⟩

/-- What the verifier loads after `createdCopy`. -/
def plainTarget : VerificationTarget where
  policyRevision := 1
  sourceBasisHash := some (ObservationRow.ofEvent (plainEvent "meeting" 1)).basis
  generation := 1
  intentSequence := 1
  destinationEventId := "pcopy11"
  destinationRevision := some 1
  desiredHash := sha256Canonical (plainCopy "meeting" 1)
  desiredState := plainCopy "meeting" 1

/-- Another client puts `body` in the place of the copy, and verification sees it. -/
def verifyEdited (body : EventBody) (insertion : EffectId) : List Event :=
  [.edit (.put "pcopy11" body), .loadTarget, .observe plainTarget .delivered,
    .settle ⟨plainTarget, some ⟨body, 2⟩⟩ ⟨0, ⟨insertion, insertion⟩, 1⟩]

end Planipus.Sync

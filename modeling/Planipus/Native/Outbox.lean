import Mathlib.Algebra.Group.Int.Defs
import Planipus.Native.Repository

/-!
# The outbox of the Mac edition

`GoogleCalendarProvider.apply` on the events of a provider, and what `drainOutbox` of
`SyncCoordinator.swift` makes of the answers. A place of a calendar keeps all its versions: a write
or an edit adds one, and a revision that is read tells which one was read. What a drain does with an
effect is a `Verdict`: the write that it makes to the repository, and whether it goes on or throws.
-/

namespace Planipus.Native

open CalendarSync

/-! ## The destination -/

/-- An event as the provider has it; the visibility is written and not read. -/
structure Version where
  resource : Provider.Google.GoogleEvent
  visibility : Option Visibility := none
deriving DecidableEq

/-- The place of an event at the provider. -/
structure Place where
  accountID : String
  calendarID : String
  eventID : String
deriving DecidableEq

/-- The versions of every event, the newest first; `none` is a deletion. -/
abbrev Calendars := Place → List (Option Version)

def Calendars.current (calendars : Calendars) (place : Place) : Option Version :=
  (calendars place).head?.join

def Calendars.push (place : Place) (version : Option Version) (calendars : Calendars) : Calendars :=
  Function.update calendars place (version :: calendars place)

/-- The revisions that an event has had. -/
def Calendars.revisions (calendars : Calendars) (place : Place) : List String :=
  (calendars place).filterMap fun version => version.bind (·.resource.etag)

def transparencyText : Transparency → String
  | .opaque_ => "opaque"
  | .transparent => "transparent"

/-- The version that a write makes. -/
def Google.GoogleWriteEvent.version (written : Google.GoogleWriteEvent) (revision : String) :
    Version where
  resource :=
    { id := some written.id
      etag := some revision
      status := some "confirmed"
      summary := some written.summary
      description := written.description
      location := written.location
      transparency := some (transparencyText written.transparency)
      start := some { dateTime := written.start.dateTime, date := written.start.date }
      finish := some { dateTime := written.finish.dateTime, date := written.finish.date }
      privateProperties := some written.privateValues }
  visibility := some written.visibility

/-! ## The content of a copy -/

/-- What an event shows of the fields that a write sets, besides its markers. -/
structure Content where
  cancelled : Bool
  summary : Option String
  description : Option String
  location : Option String
  start : Option Google.GoogleEventTime
  finish : Option Google.GoogleEventTime
  visibility : Option Visibility
  transparency : Option String
deriving DecidableEq

def Version.content (version : Version) : Content where
  cancelled := version.resource.status = some "cancelled"
  summary := version.resource.summary
  description := version.resource.description
  location := version.resource.location
  start := version.resource.start.map .decode
  finish := version.resource.finish.map .decode
  visibility := version.visibility
  transparency := version.resource.transparency

/-- The content of a copy that is as desired. -/
def copyContent (formatters : Google.Formatters) (desired : DesiredCopy) : Content :=
  let time (date : Instant) : Google.GoogleEventTime :=
    if desired.isAllDay then .of formatters none (some date) else .of formatters (some date) none
  { cancelled := false
    summary := some desired.summary
    description := desired.description
    location := desired.location
    start := some (time desired.start)
    finish := some (time desired.finish)
    visibility := some desired.visibility
    transparency := some (transparencyText desired.transparency) }

section Provider

variable (runtime : Runtime)

/-- Texts that the coordinator takes for equal name one calendar. -/
def place (endpoint : CalendarEndpoint) (eventID : String) : Place :=
  ⟨runtime.env.normalizeNFC endpoint.accountID, runtime.env.normalizeNFC endpoint.calendarID, eventID⟩

def ProviderMutation.place (mutation : ProviderMutation) : Place :=
  Native.place runtime mutation.destinationEndpoint mutation.destinationEventID

def StoredProjection.place (projection : StoredProjection) : Place :=
  Native.place runtime projection.destinationEndpoint projection.destinationEventID

/-- The answer of the provider to a lookup. -/
def reply (calendars : Calendars) (place : Place) : Google.HTTPResponse :=
  match calendars.current place with
  | none => ⟨404, none⟩
  | some version => ⟨200, some version.resource⟩

/-- `readEvent`, which may also fail. -/
def lookup (failure : Option ProviderError) (calendars : Calendars) (endpoint : CalendarEndpoint)
    (eventID : String) : Except ProviderError (Option SourceEvent) :=
  match failure with
  | some error => .error error
  | none => Google.readEvent runtime.env runtime.formatters (runtime.identityEmail endpoint) endpoint
      (reply calendars (place runtime endpoint eventID))

/-- `If-Match`. -/
def ProviderMutation.matches (mutation : ProviderMutation) (version : Version) : Bool :=
  mutation.expectedProviderRevision.all fun revision => version.resource.etag = some revision

/-- `apply`: the provider's own answer to the request. `revision` is that of the new version. -/
def apply (mutation : ProviderMutation) (revision : String) (calendars : Calendars) :
    Except ProviderError Calendars :=
  let target := mutation.place runtime
  match mutation.operation with
  | .create => do
    let written ← Google.GoogleWriteEvent.of runtime.formatters mutation
    match calendars.current target with
    | some _ => .error .conflict
    | none => return calendars.push target (some (written.version revision))
  | .update => do
    let written ← Google.GoogleWriteEvent.of runtime.formatters mutation
    match calendars.current target with
    | none => .error .notFound
    | some version =>
      if mutation.matches version then
        return calendars.push target (some (written.version revision))
      else .error .conflict
  | .delete =>
    match calendars.current target with
    | none => .ok calendars
    | some version =>
      if mutation.matches version then return calendars.push target none else .error .conflict

end Provider

/-! ## The drain -/

/-- What becomes of an effect. -/
inductive Verdict
  /-- `finish`; the drain goes on, or throws after it. -/
  | finish (providerRevision : Option String) (continues : Bool)
  /-- The drain goes on. -/
  | quarantine
  -- The drain throws after the write, or without one.
  | ambiguous
  | retry (delay : Instant)
  | revise (mutation : ProviderMutation)
  | escape
deriving DecidableEq

/-- The destination has gone, so the update is to create it. -/
def ProviderMutation.recreate (mutation : ProviderMutation) : ProviderMutation :=
  { mutation with operation := .create, expectedProviderRevision := none }

section Drain

variable (runtime : Runtime)

def OutboxEffect.owns (effect : OutboxEffect) (event : SourceEvent) : Bool :=
  isOwned runtime event effect.mutation.policyID effect.mutation.destinationEventID

def recoverConflict (effect : OutboxEffect)
    (existing : Except ProviderError (Option SourceEvent)) : Verdict :=
  match existing with
  | .error .ownershipMismatch => .quarantine
  | .error _ => .escape
  | .ok none =>
    if effect.mutation.operation = .delete then .finish none false
    else .revise effect.mutation.recreate
  | .ok (some existing) =>
    if !effect.owns runtime existing then .quarantine
    else if effect.mutation.operation = .create then .finish existing.providerRevision false
    else .revise { effect.mutation with expectedProviderRevision := existing.providerRevision }

/-- `min(pow(2, attemptCount + 1) * 5, 300)`, in milliseconds. -/
def OutboxEffect.delay (effect : OutboxEffect) : Instant :=
  min (2 ^ (effect.attemptCount + 1) * 5000) 300000

/-- The errors of the provider; `existing` is what conflict recovery reads. -/
def caught (effect : OutboxEffect) (existing : Except ProviderError (Option SourceEvent))
    (error : ProviderError) : Verdict :=
  match error with
  | .ambiguous => .ambiguous
  | .ownershipMismatch => .quarantine
  | .conflict => recoverConflict runtime effect existing
  | .notFound =>
    match effect.mutation.operation with
    | .delete => .finish none true
    | .update => .revise effect.mutation.recreate
    | .create => .retry effect.delay
  | .unauthorized | .forbidden => .retry 300000
  | _ => .retry effect.delay

/-- The lookup after a create or an update, or the error that it throws. -/
def verifyApplied (effect : OutboxEffect) (verified : Except ProviderError (Option SourceEvent)) :
    Except ProviderError Verdict :=
  match verified with
  | .error error => .error error
  | .ok none => .ok .ambiguous
  | .ok (some verified) =>
    .ok (if effect.owns runtime verified then .finish verified.providerRevision true
      else .quarantine)

/-- The lookup before a create that may have been made: none, the error that it throws, or what
becomes of the effect without a write to the provider. -/
def discover (effect : OutboxEffect) (existing : Except ProviderError (Option SourceEvent)) :
    Option (Except ProviderError Verdict) :=
  if effect.mutation.operation = .create ∧
      (effect.state = .ambiguous ∨ effect.state = .applying) then
    match existing with
    | .error error => some (.error error)
    | .ok none => none
    | .ok (some existing) =>
      some (.ok (if effect.owns runtime existing then .finish existing.providerRevision true
        else .quarantine))
  else none

end Drain

/-- The projection that `finish` writes, or the one it deletes. -/
def OutboxEffect.finish (effect : OutboxEffect) (providerRevision : Option String) :
    Option RepositoryWrite :=
  match effect.mutation.operation, effect.mutation.desiredCopy with
  | .delete, _ => some (.deleteProjection effect.projectionKey)
  | _, some desired => some (.saveProjection
      { key := effect.projectionKey
        destinationEndpoint := effect.mutation.destinationEndpoint
        destinationEventID := effect.mutation.destinationEventID
        desiredFingerprint := fingerprint desired
        providerRevision })
  | _, none => none

end Planipus.Native

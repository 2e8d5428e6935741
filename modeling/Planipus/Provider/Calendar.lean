import Mathlib.Logic.Function.Basic
import Planipus.CalendarSync.Types

/-!
# The destination calendar and its adapter

The calendar at the provider as the Google adapter (`server/src/providers/google/calendar.ts`,
`serializer.ts`) sees it. What the adapter's callers rely on is built in: every change of an event
gives it a revision that was never used before, a conditional write takes effect only on the current
revision, and a deleted event is not found.

A `Session` is one worker's conversation with the provider. Its script says, request by request,
what other clients change before the request arrives and what becomes of the request: it is
answered, it is lost with or without effect, or it is refused for a reason that has nothing to do
with the event. The session keeps the write requests it sent (`calls`), which is what statements
about writes are about.
-/

namespace Planipus.Provider

open CalendarSync

abbrev EventId := String
abbrev Revision := Nat

/-- The private Planipus markers of an event that `managedIdentity` accepts. -/
abbrev ManagedIdentity := Provenance

/-- `start` and `end` of an event resource. A date event carries no time zone. -/
inductive WrittenTiming
  | timed (startInstant endInstant : Instant) (startTzid endTzid : String)
  | allDay (startDate endDate : String)
deriving DecidableEq

/-- The managed content of an event resource, markers included. -/
structure EventBody where
  summary : String
  description : Option String
  location : Option String
  timing : WrittenTiming
  transparency : Transparency
  visibility : Visibility
  colorId : Option String
  managedIdentity : Option ManagedIdentity
deriving DecidableEq

/-- An optional text that JavaScript takes as true. -/
def truthy (text : Option String) : Option String := text.filter fun t => t ≠ ""

def writtenTiming : EventTiming → WrittenTiming
  | .timed start finish startTzid endTzid => .timed start finish startTzid endTzid
  | .allDay start finish _ => .allDay start finish

/-- `none` when the serializer throws `unsupported_google_conference_copy`. -/
def serializeGoogleDesiredCopy (desired : DesiredCopy) : Option EventBody :=
  if (truthy desired.conference).isSome then none
  else some
    { summary := desired.summary
      description := truthy desired.description
      location := truthy desired.location
      timing := writtenTiming desired.timing
      transparency := desired.transparency
      visibility := desired.visibility
      colorId := truthy desired.color
      managedIdentity := some desired.provenance }

theorem serialize_identity {desired : DesiredCopy} {body : EventBody}
    (h : serializeGoogleDesiredCopy desired = some body) :
    body.managedIdentity = some desired.provenance := by
  unfold serializeGoogleDesiredCopy at h
  split at h
  · cases h
  · simp only [Option.some.injEq] at h
    subst h
    rfl

/-! ## Errors of the adapter -/

/-- The safe codes of the errors the modelled paths raise. `error` is what `safeErrorCode` makes of
an `Error` that has no code: the name of its class. -/
inductive ErrorCode
  | providerAuth | cursorGone | preconditionFailed | providerThrottled | providerHttp (status : Nat)
  | ambiguousNetworkError | providerNetworkError | connectionUnavailable | error
  | ownershipMismatch | targetUnavailable | connectionRoleChanged | invalidDesiredState
  | staleMissingRepair
deriving DecidableEq

structure ProviderError where
  code : ErrorCode
  retryable : Bool
  ambiguous : Bool := false
  status : Option Nat := none
deriving DecidableEq

/-- The error for an answer that is not `ok`. -/
def httpError (write : Bool) (status : Nat) : ProviderError :=
  let retryable : Bool := status = 429 || 500 ≤ status
  { code :=
      if status = 401 then .providerAuth
      else if status = 410 then .cursorGone
      else if status = 409 ∨ status = 412 then .preconditionFailed
      else if retryable then .providerThrottled
      else .providerHttp status
    retryable
    ambiguous := write && 500 ≤ status
    status := some status }

/-- The error for a request without a readable answer. -/
def networkError (write : Bool) : ProviderError :=
  { code := if write then .ambiguousNetworkError else .providerNetworkError
    retryable := true
    ambiguous := write }

/-- A request that could not be built: the plain `Error` of the serializer, which is no
`ProviderError` and is therefore retried. -/
def serializerError : ProviderError := { code := .error, retryable := true }

/-! ## The calendar -/

structure RemoteEvent where
  body : EventBody
  revision : Revision
deriving DecidableEq

/-- The events by ID. `created` remembers the IDs that a create was carried out under, also after
the event is gone; `reusableIds` says whether the provider accepts a create under the ID of a
deleted event (Google answers 409, the fake provider creates it again). -/
structure Calendar where
  events : EventId → Option RemoteEvent
  created : List EventId
  nextRevision : Revision
  reusableIds : Bool
  bounded : ∀ id ev, events id = some ev → ev.revision < nextRevision

namespace Calendar

/-- Write a body under an ID with a fresh revision. -/
def put (c : Calendar) (id : EventId) (body : EventBody) : Calendar where
  events := Function.update c.events id (some ⟨body, c.nextRevision⟩)
  created := c.created
  nextRevision := c.nextRevision + 1
  reusableIds := c.reusableIds
  bounded := by
    intro id' ev h
    by_cases hid : id' = id
    · subst hid
      rw [Function.update_self, Option.some.injEq] at h
      subst h
      exact Nat.lt_succ_self _
    · rw [Function.update_of_ne hid] at h
      exact Nat.lt_succ_of_lt (c.bounded id' ev h)

def remove (c : Calendar) (id : EventId) : Calendar where
  events := Function.update c.events id none
  created := c.created
  nextRevision := c.nextRevision
  reusableIds := c.reusableIds
  bounded := by
    intro id' ev h
    by_cases hid : id' = id
    · subst hid
      rw [Function.update_self] at h
      cases h
    · rw [Function.update_of_ne hid] at h
      exact c.bounded id' ev h

/-- Remember that a create was carried out under an ID. -/
def consume (c : Calendar) (id : EventId) : Calendar := { c with created := id :: c.created }

/-- A change made by another client. -/
inductive DirectEdit
  | put (id : EventId) (body : EventBody)
  | remove (id : EventId)

def apply (c : Calendar) : DirectEdit → Calendar
  | .put id body => c.put id body
  | .remove id => c.remove id

def applyAll (c : Calendar) (edits : List DirectEdit) : Calendar := edits.foldl apply c

@[simp] theorem put_self (c : Calendar) (id : EventId) (body : EventBody) :
    (c.put id body).events id = some ⟨body, c.nextRevision⟩ := Function.update_self ..

theorem put_of_ne (c : Calendar) {id id' : EventId} (body : EventBody) (h : id' ≠ id) :
    (c.put id body).events id' = c.events id' := Function.update_of_ne h ..

@[simp] theorem remove_self (c : Calendar) (id : EventId) : (c.remove id).events id = none :=
  Function.update_self ..

theorem remove_of_ne (c : Calendar) {id id' : EventId} (h : id' ≠ id) :
    (c.remove id).events id' = c.events id' := Function.update_of_ne h ..

@[simp] theorem consume_events (c : Calendar) (id : EventId) :
    (c.consume id).events = c.events := rfl

/-- Other clients do not create events under IDs of their choice. -/
theorem applyAll_created (c : Calendar) (edits : List DirectEdit) :
    (c.applyAll edits).created = c.created := by
  induction edits generalizing c with
  | nil => rfl
  | cons edit edits ih =>
    have happly : (c.apply edit).created = c.created := by cases edit <;> rfl
    exact (ih (c.apply edit)).trans happly

/-! ### How a calendar changes -/

/-- What every change of a calendar respects: IDs stay consumed, and an event that carries a
revision handed out earlier is the event that carried it then. -/
structure Evolves (c c' : Calendar) : Prop where
  next_le : c.nextRevision ≤ c'.nextRevision
  created : ∀ id ∈ c.created, id ∈ c'.created
  old : ∀ {id ev}, c'.events id = some ev → ev.revision < c.nextRevision → c.events id = some ev

namespace Evolves

variable {c c' c'' : Calendar}

theorem refl (c : Calendar) : Evolves c c :=
  ⟨Nat.le_refl _, fun _ h => h, fun h _ => h⟩

theorem trans (h₁ : Evolves c c') (h₂ : Evolves c' c'') : Evolves c c'' where
  next_le := Nat.le_trans h₁.next_le h₂.next_le
  created id h := h₂.created id (h₁.created id h)
  old h hr := h₁.old (h₂.old h (Nat.lt_of_lt_of_le hr h₁.next_le)) hr

theorem put (c : Calendar) (id : EventId) (body : EventBody) : Evolves c (c.put id body) where
  next_le := Nat.le_succ _
  created _ h := h
  old {id' ev} h hr := by
    by_cases hid : id' = id
    · subst hid
      rw [put_self, Option.some.injEq] at h
      subst h
      exact absurd hr (Nat.lt_irrefl _)
    · rwa [put_of_ne c body hid] at h

theorem remove (c : Calendar) (id : EventId) : Evolves c (c.remove id) where
  next_le := Nat.le_refl _
  created _ h := h
  old {id' ev} h _ := by
    by_cases hid : id' = id
    · subst hid
      rw [remove_self] at h
      cases h
    · rwa [remove_of_ne c hid] at h

theorem consume (c : Calendar) (id : EventId) : Evolves c (c.consume id) :=
  ⟨Nat.le_refl _, fun _ h => List.mem_cons_of_mem _ h, fun h _ => h⟩

theorem apply (c : Calendar) (edit : DirectEdit) : Evolves c (c.apply edit) := by
  cases edit with
  | put id body => exact put c id body
  | remove id => exact remove c id

theorem applyAll (c : Calendar) (edits : List DirectEdit) : Evolves c (c.applyAll edits) := by
  induction edits generalizing c with
  | nil => exact refl c
  | cons edit edits ih => exact (apply c edit).trans (ih (c.apply edit))

end Evolves

end Calendar

end Planipus.Provider

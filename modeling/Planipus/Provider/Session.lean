import Planipus.Provider.Calendar

/-!
# Conversations with the provider

A `Session` is one worker's conversation with the provider during one piece of work. Its script
says, request by request, what other clients change before the request arrives and what becomes of
it: it is answered, it is lost with or without effect, or it is refused for a reason that has
nothing to do with the event. `send` is the write half of the adapter's `request`, `getEvent` the
read half. The session keeps the write requests it sent (`calls`) with the calendar they arrived
at; statements about writes are about these.
-/

namespace Planipus.Provider

open CalendarSync

/-- A desired copy that the serializer accepts, with the body it makes. -/
structure Payload where
  desired : DesiredCopy
  body : EventBody
  serialized : serializeGoogleDesiredCopy desired = some body

def Payload.ofDesired? (desired : DesiredCopy) : Option Payload :=
  match h : serializeGoogleDesiredCopy desired with
  | some body => some ⟨desired, body, h⟩
  | none => none

theorem Payload.desired_of_ofDesired? {desired : DesiredCopy} {payload : Payload}
    (h : Payload.ofDesired? desired = some payload) : payload.desired = desired := by
  unfold Payload.ofDesired? at h
  split at h
  · cases h
    rfl
  · cases h

/-- A write request. `expected` is the `if-match` header, left out when it is `none`. -/
inductive Request
  | create (id : EventId) (payload : Payload)
  | update (id : EventId) (expected : Option Revision) (payload : Payload)
  | delete (id : EventId) (expected : Option Revision)

namespace Request

def target : Request → EventId
  | create id _ => id
  | update id _ _ => id
  | delete id _ => id

def payload? : Request → Option Payload
  | create _ payload => some payload
  | update _ _ payload => some payload
  | delete _ _ => none

end Request

/-- The calendar after a write request, or the status of the refusal. -/
def Calendar.perform (c : Calendar) : Request → Except Nat Calendar
  | .create id payload =>
    if (c.events id).isSome then .error 409
    else if id ∈ c.created ∧ c.reusableIds = false then .error 409
    else .ok ((c.put id payload.body).consume id)
  | .update id expected payload =>
    match c.events id with
    | none => .error 404
    | some ev => if expected.all (· = ev.revision) then .ok (c.put id payload.body) else .error 412
  | .delete id expected =>
    match c.events id with
    | none => .error 404
    | some ev => if expected.all (· = ev.revision) then .ok (c.remove id) else .error 412

/-! ## What a performed request did -/

section Perform

variable {c c' : Calendar} {id : EventId} {expected : Option Revision} {payload : Payload}

theorem perform_create (h : c.perform (.create id payload) = .ok c') :
    c.events id = none ∧ c' = (c.put id payload.body).consume id := by
  simp only [Calendar.perform] at h
  split at h
  · cases h
  · rename_i hnone
    split at h
    · cases h
    · cases h
      exact ⟨by simpa using hnone, rfl⟩

theorem perform_update (h : c.perform (.update id expected payload) = .ok c') :
    ∃ ev, c.events id = some ev ∧ (∀ r, expected = some r → ev.revision = r) ∧
      c' = c.put id payload.body := by
  simp only [Calendar.perform] at h
  split at h
  · cases h
  · rename_i ev hev
    split at h
    · rename_i hall
      cases h
      refine ⟨ev, hev, ?_, rfl⟩
      rintro r rfl
      exact (of_decide_eq_true hall).symm
    · cases h

theorem perform_delete (h : c.perform (.delete id expected) = .ok c') :
    ∃ ev, c.events id = some ev ∧ (∀ r, expected = some r → ev.revision = r) ∧
      c' = c.remove id := by
  simp only [Calendar.perform] at h
  split at h
  · cases h
  · rename_i ev hev
    split at h
    · rename_i hall
      cases h
      refine ⟨ev, hev, ?_, rfl⟩
      rintro r rfl
      exact (of_decide_eq_true hall).symm
    · cases h

/-- A request whose revision is current is not refused. -/
theorem perform_update_current {ev : RemoteEvent} (hev : c.events id = some ev)
    (hexp : ∀ r, expected = some r → ev.revision = r) :
    c.perform (.update id expected payload) = .ok (c.put id payload.body) := by
  simp only [Calendar.perform, hev]
  refine if_pos ?_
  cases expected with
  | none => rfl
  | some r => simpa using (hexp r rfl).symm

theorem perform_delete_current {ev : RemoteEvent} (hev : c.events id = some ev)
    (hexp : ∀ r, expected = some r → ev.revision = r) :
    c.perform (.delete id expected) = .ok (c.remove id) := by
  simp only [Calendar.perform, hev]
  refine if_pos ?_
  cases expected with
  | none => rfl
  | some r => simpa using (hexp r rfl).symm

theorem perform_create_fresh (hev : c.events id = none) (hnew : id ∉ c.created) :
    c.perform (.create id payload) = .ok ((c.put id payload.body).consume id) := by
  simp [Calendar.perform, hev, hnew]

/-- Only a create or a conditional write is refused for the state of the event, and a write to a
missing event says so. -/
theorem perform_error {request : Request} {status : Nat} (h : c.perform request = .error status) :
    status = 409 ∨ status = 412 ∨ (status = 404 ∧ c.events request.target = none) := by
  unfold Calendar.perform at h
  split at h
  · split at h
    · cases h
      exact Or.inl rfl
    · split at h
      · cases h
        exact Or.inl rfl
      · cases h
  · split at h
    · rename_i hnone
      cases h
      exact Or.inr (Or.inr ⟨rfl, hnone⟩)
    · split at h
      · cases h
      · cases h
        exact Or.inr (Or.inl rfl)
  · split at h
    · rename_i hnone
      cases h
      exact Or.inr (Or.inr ⟨rfl, hnone⟩)
    · split at h
      · cases h
      · cases h
        exact Or.inr (Or.inl rfl)

theorem Calendar.Evolves.perform {request : Request} (h : c.perform request = .ok c') :
    Calendar.Evolves c c' := by
  cases request with
  | create id payload =>
    obtain ⟨-, rfl⟩ := perform_create h
    exact (Calendar.Evolves.put c id payload.body).trans (Calendar.Evolves.consume _ id)
  | update id expected payload =>
    obtain ⟨_, -, -, rfl⟩ := perform_update h
    exact Calendar.Evolves.put c id payload.body
  | delete id expected =>
    obtain ⟨_, -, -, rfl⟩ := perform_delete h
    exact Calendar.Evolves.remove c id

end Perform

/-! ## Requests and their answers -/

/-- Refusals that do not depend on the event: malformed, not authorized, forbidden, throttled. -/
inductive Refusal | badRequest | unauthorized | forbidden | throttled
deriving DecidableEq

def Refusal.status : Refusal → Nat
  | badRequest => 400
  | unauthorized => 401
  | forbidden => 403
  | throttled => 429

/-- What becomes of a request. `dropped` has no readable answer, `failed` is answered with a server
error; in both the request may have been carried out. -/
inductive Reply
  | delivered
  | dropped (arrived : Bool)
  | failed (arrived : Bool)
  | refused (reason : Refusal)
deriving DecidableEq

structure Exchange where
  edits : List Calendar.DirectEdit := []
  reply : Reply := .delivered

/-- A write request that was sent, the calendar it arrived at, and whether it was carried out. -/
structure ProviderCall where
  request : Request
  before : Calendar
  performed : Bool

structure Session where
  calendar : Calendar
  script : List Exchange
  calls : List ProviderCall := []

namespace Session

/-- A script that has run out answers every further request. -/
def exchange (s : Session) : Exchange := s.script.headD {}

/-- The calendar the next request arrives at. -/
def arrival (s : Session) : Calendar := s.calendar.applyAll s.exchange.edits

/-- The session after a request that left the calendar as `after`. -/
def advance (s : Session) (after : Calendar) (calls : List ProviderCall := []) : Session :=
  { calendar := after, script := s.script.tail, calls := s.calls ++ calls }

@[simp] theorem advance_calendar (s : Session) (c : Calendar) (calls : List ProviderCall) :
    (s.advance c calls).calendar = c := rfl

@[simp] theorem advance_calls (s : Session) (c : Calendar) (calls : List ProviderCall) :
    (s.advance c calls).calls = s.calls ++ calls := rfl

/-- `request` with `write` set. The revision is the one the write gave the event. -/
def send (s : Session) (request : Request) : Session × Except ProviderError Revision :=
  let before := s.arrival
  let carriedOut : Session := match before.perform request with
    | .ok after => s.advance after [⟨request, before, true⟩]
    | .error _ => s.advance before [⟨request, before, false⟩]
  let ignored : Session := s.advance before [⟨request, before, false⟩]
  match s.exchange.reply with
  | .delivered => (carriedOut, match before.perform request with
    | .ok _ => .ok before.nextRevision
    | .error status => .error (httpError true status))
  | .dropped arrived => (if arrived then carriedOut else ignored, .error (networkError true))
  | .failed arrived => (if arrived then carriedOut else ignored, .error (httpError true 503))
  | .refused reason => (ignored, .error (httpError true reason.status))

def getEvent (s : Session) (id : EventId) :
    Session × Except ProviderError (Option RemoteEvent) :=
  let before := s.arrival
  (s.advance before, match s.exchange.reply with
    | .delivered => .ok (before.events id)
    | .dropped _ => .error (networkError false)
    | .failed _ => .error (httpError false 503)
    | .refused reason => .error (httpError false reason.status))

/-- Serialize and send. What cannot be serialized is not sent. -/
def sendDesired (s : Session) (desired : DesiredCopy) (request : Payload → Request) :
    Session × Except ProviderError Revision :=
  match Payload.ofDesired? desired with
  | none => (s, .error serializerError)
  | some payload => s.send (request payload)

def createEvent (s : Session) (id : EventId) (desired : DesiredCopy) :
    Session × Except ProviderError Revision :=
  s.sendDesired desired (.create id)

def updateEvent (s : Session) (id : EventId) (expected : Option Revision) (desired : DesiredCopy) :
    Session × Except ProviderError Revision :=
  s.sendDesired desired (.update id expected)

/-- A missing event counts as deleted. -/
def deleteEvent (s : Session) (id : EventId) (expected : Option Revision) :
    Session × Except ProviderError Unit :=
  match s.send (.delete id expected) with
  | (s', .ok _) => (s', .ok ())
  | (s', .error error) =>
    if error.status = some 404 ∨ error.status = some 410 then (s', .ok ()) else (s', .error error)

/-! ## What a request can do -/

/-- An error that says nothing about the event. -/
def Unrelated (error : ProviderError) : Prop :=
  error.code ≠ .preconditionFailed ∧ error.status ≠ some 404 ∧ error.status ≠ some 410

/-- The ways a write request ends: carried out and answered, carried out with the answer lost,
refused by the calendar, or not carried out for another reason. -/
inductive Sent (s : Session) (request : Request) : Session → Except ProviderError Revision → Prop
  | done (after : Calendar) (h : s.arrival.perform request = .ok after) :
      Sent s request (s.advance after [⟨request, s.arrival, true⟩]) (.ok s.arrival.nextRevision)
  | lost (after : Calendar) (h : s.arrival.perform request = .ok after) (error : ProviderError)
      (hamb : error.ambiguous = true) (hretry : error.retryable = true) (herr : Unrelated error) :
      Sent s request (s.advance after [⟨request, s.arrival, true⟩]) (.error error)
  | rejected (status : Nat) (h : s.arrival.perform request = .error status) :
      Sent s request (s.advance s.arrival [⟨request, s.arrival, false⟩])
        (.error (httpError true status))
  | unheard (error : ProviderError) (herr : Unrelated error) :
      Sent s request (s.advance s.arrival [⟨request, s.arrival, false⟩]) (.error error)

theorem unrelated_networkError (write : Bool) : Unrelated (networkError write) := by
  cases write <;> exact ⟨by decide, by decide, by decide⟩

theorem unrelated_serverError (write : Bool) : Unrelated (httpError write 503) := by
  cases write <;> exact ⟨by decide, by decide, by decide⟩

theorem unrelated_refusal (write : Bool) (reason : Refusal) :
    Unrelated (httpError write reason.status) := by
  cases write <;> cases reason <;> exact ⟨by decide, by decide, by decide⟩

theorem send_sent (s : Session) (request : Request) :
    Sent s request (s.send request).1 (s.send request).2 := by
  unfold send
  cases hperform : s.arrival.perform request with
  | ok after =>
    cases s.exchange.reply with
    | delivered =>
      simp only [hperform]
      exact .done after hperform
    | dropped arrived =>
      simp only [hperform]
      cases arrived with
      | true => exact .lost after hperform _ rfl rfl (unrelated_networkError true)
      | false => exact .unheard _ (unrelated_networkError true)
    | failed arrived =>
      simp only [hperform]
      cases arrived with
      | true => exact .lost after hperform _ rfl rfl (unrelated_serverError true)
      | false => exact .unheard _ (unrelated_serverError true)
    | refused reason => exact .unheard _ (unrelated_refusal true reason)
  | error status =>
    cases s.exchange.reply with
    | delivered =>
      simp only [hperform]
      exact .rejected status hperform
    | dropped arrived =>
      simp only [hperform]
      cases arrived <;> exact .unheard _ (unrelated_networkError true)
    | failed arrived =>
      simp only [hperform]
      cases arrived <;> exact .unheard _ (unrelated_serverError true)
    | refused reason => exact .unheard _ (unrelated_refusal true reason)

/-- A read leaves the calendar to the other clients and the calls as they are. -/
theorem getEvent_cases (s : Session) (id : EventId) :
    s.getEvent id = (s.advance s.arrival, .ok (s.arrival.events id)) ∨
      ∃ error, s.getEvent id = (s.advance s.arrival, .error error) ∧ Unrelated error := by
  unfold getEvent
  cases s.exchange.reply with
  | delivered => exact Or.inl rfl
  | dropped _ => exact Or.inr ⟨_, rfl, unrelated_networkError false⟩
  | failed _ => exact Or.inr ⟨_, rfl, unrelated_serverError false⟩
  | refused reason => exact Or.inr ⟨_, rfl, unrelated_refusal false reason⟩

/-! ## Sessions without other clients -/

/-- Nobody else changes the calendar during the session. -/
def Quiet (s : Session) : Prop := ∀ exchange ∈ s.script, exchange.edits = []

theorem arrival_of_quiet {s : Session} (h : s.Quiet) : s.arrival = s.calendar := by
  unfold arrival exchange
  cases hs : s.script with
  | nil => rfl
  | cons exchange _ =>
    have he : exchange.edits = [] := h exchange (by rw [hs]; exact List.mem_cons_self)
    simp [he, Calendar.applyAll]

theorem quiet_advance {s : Session} (h : s.Quiet) (c : Calendar) (calls : List ProviderCall) :
    (s.advance c calls).Quiet :=
  fun exchange he => h exchange (List.mem_of_mem_tail he)

/-- `c` is what the calendar of `s` has become through other clients alone. -/
structure Drifts (s : Session) (c : Calendar) : Prop where
  evolves : Calendar.Evolves s.calendar c
  created : c.created = s.calendar.created
  quiet : s.Quiet → c = s.calendar

theorem Drifts.refl (s : Session) : Drifts s s.calendar :=
  ⟨Calendar.Evolves.refl _, rfl, fun _ => rfl⟩

theorem drifts_arrival (s : Session) : Drifts s s.arrival :=
  ⟨Calendar.Evolves.applyAll _ _, Calendar.applyAll_created _ _, arrival_of_quiet⟩

end Session

end Planipus.Provider

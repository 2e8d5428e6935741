import Planipus.Native.Verify.Session

/-!
# What a session does to the destination

What a lookup shows is the current version of the event, under its revision; a verdict that takes an
effect for done, or revises it, rests on such a lookup. `Revises` is what the provider is relied on
for: every change of an event changes its revision.
-/

namespace Planipus.Native

open CalendarSync

variable {runtime : Runtime}

/-! ## Lookups -/

theorem decode_etag {resource : Provider.Google.GoogleEvent} {event : Google.GoogleEvent}
    (h : Google.GoogleEvent.decode resource = some event) : event.etag = resource.etag := by
  unfold Google.GoogleEvent.decode at h
  obtain ⟨id, -, h⟩ := Option.bind_eq_some_iff.1 h
  cases hattendees : resource.attendees with
  | none =>
    rw [hattendees] at h
    cases h
    rfl
  | some attendees =>
    rw [hattendees] at h
    obtain ⟨decoded, -, h⟩ := Option.bind_eq_some_iff.1 h
    cases h
    rfl

/-- A lookup shows the current version. -/
theorem readEvent_reply {calendars : Calendars} {place : Place} {identityEmail : Option String}
    {endpoint : CalendarEndpoint} {observed : SourceEvent}
    (h : Google.readEvent runtime.env runtime.formatters identityEmail endpoint
      (reply calendars place) = .ok (some observed)) :
    ∃ version, calendars.current place = some version ∧
      observed.providerRevision = version.resource.etag := by
  unfold reply at h
  cases hcurrent : calendars.current place with
  | none =>
    rw [hcurrent] at h
    cases h
  | some version =>
    rw [hcurrent] at h
    refine ⟨version, rfl, ?_⟩
    cases hdecode : Google.GoogleEvent.decode version.resource with
    | none =>
      simp [Google.readEvent, Google.validate, hdecode, bind, Except.bind] at h
    | some event =>
      simp [Google.readEvent, Google.validate, hdecode, bind, Except.bind, pure, Except.pure] at h
      rw [← h]
      exact decode_etag hdecode

theorem lookup_ok {failure : Option ProviderError} {calendars : Calendars}
    {endpoint : CalendarEndpoint} {eventID : String} {observed : Option SourceEvent}
    (h : lookup runtime failure calendars endpoint eventID = .ok observed) :
    Google.readEvent runtime.env runtime.formatters (runtime.identityEmail endpoint) endpoint
      (reply calendars (place runtime endpoint eventID)) = .ok observed := by
  cases failure with
  | none => exact h
  | some error => cases h

/-! ## Verdicts -/

/-- The revision under which an effect is taken for done is that of the current version. -/
theorem finish_revision {s : Session} {answers : Answers} {effect : OutboxEffect} {stage : Stage}
    {providerRevision : Option String} {continues : Bool}
    (h : s.verdict runtime answers effect stage =
      some (.ok (.finish providerRevision continues)))
    (hop : effect.mutation.operation ≠ .delete) :
    ∃ version, s.calendars.current (effect.mutation.place runtime) = some version ∧
      providerRevision = version.resource.etag := by
  rcases verdict_finish h with hdelete | ⟨observed, hread, -, rfl⟩
  · exact absurd hdelete hop
  · exact readEvent_reply (lookup_ok hread)

/-! ## Versions -/

/-- Every change of an event changes its revision. -/
def Revises (runtime : Runtime) (s : Session) : Event → Prop
  | .edit place version => ∀ revision, version.bind (·.resource.etag) = some revision →
      revision ∉ s.calendars.revisions place
  | .advance answers => ∀ effect, s.performed runtime (.advance answers) = some effect →
      effect.mutation.operation ≠ .delete →
        answers.revision ∉ s.calendars.revisions (effect.mutation.place runtime)
  | .runOnce _ | .resolveNotice _ _ | .abort => True

instance (s : Session) (e : Event) : Decidable (Revises runtime s e) :=
  match e with
  | .edit _ version =>
    inferInstanceAs (Decidable (∀ revision ∈ version.bind (·.resource.etag), _))
  | .advance answers =>
    inferInstanceAs (Decidable (∀ effect ∈ s.performed runtime (.advance answers), _))
  | .runOnce _ | .resolveNotice _ _ | .abort => isTrue trivial

@[simp] theorem Calendars.current_push_self {calendars : Calendars} {place : Place}
    {version : Option Version} : (calendars.push place version).current place = version := by
  simp [current, push]

theorem Calendars.push_of_ne {calendars : Calendars} {place place' : Place}
    {version : Option Version} (h : place' ≠ place) :
    calendars.push place version place' = calendars place' :=
  Function.update_of_ne h _ _

/-- What a step does to an event: nothing, or it adds a version. -/
inductive VersionFrom (runtime : Runtime) (s s' : Session) (e : Event) (place : Place) : Prop
  | same (h : s'.calendars place = s.calendars place)
  | edited (version : Option Version) (hevent : e = .edit place version)
      (h : s'.calendars place = version :: s.calendars place)
  | written (answers : Answers) (effect : OutboxEffect) (written : Google.GoogleWriteEvent)
      (hevent : e = .advance answers) (hperformed : s.performed runtime e = some effect)
      (hop : effect.mutation.operation ≠ .delete)
      (hplace : effect.mutation.place runtime = place)
      (hwritten : Google.GoogleWriteEvent.of runtime.formatters effect.mutation = .ok written)
      (h : s'.calendars place = some (written.version answers.revision) :: s.calendars place)
  | deleted (effect : OutboxEffect) (hperformed : s.performed runtime e = some effect)
      (hplace : effect.mutation.place runtime = place)
      (h : s'.calendars place = none :: s.calendars place)

/-- What the provider does with a request that it performs. -/
inductive Applied (runtime : Runtime) (mutation : ProviderMutation) (revision : String)
    (calendars : Calendars) : Calendars → Prop
  | create {written : Google.GoogleWriteEvent} (hop : mutation.operation = .create)
      (hwritten : Google.GoogleWriteEvent.of runtime.formatters mutation = .ok written)
      (hcurrent : calendars.current (mutation.place runtime) = none) :
    Applied runtime mutation revision calendars
      (calendars.push (mutation.place runtime) (some (written.version revision)))
  | update {written : Google.GoogleWriteEvent} {version : Version}
      (hop : mutation.operation = .update)
      (hwritten : Google.GoogleWriteEvent.of runtime.formatters mutation = .ok written)
      (hcurrent : calendars.current (mutation.place runtime) = some version)
      (hmatches : mutation.matches version = true) :
    Applied runtime mutation revision calendars
      (calendars.push (mutation.place runtime) (some (written.version revision)))
  | delete {version : Version} (hop : mutation.operation = .delete)
      (hcurrent : calendars.current (mutation.place runtime) = some version)
      (hmatches : mutation.matches version = true) :
    Applied runtime mutation revision calendars (calendars.push (mutation.place runtime) none)
  | gone (hop : mutation.operation = .delete)
      (hcurrent : calendars.current (mutation.place runtime) = none) :
    Applied runtime mutation revision calendars calendars

theorem apply_applied {mutation : ProviderMutation} {revision : String}
    {calendars calendars' : Calendars}
    (h : apply runtime mutation revision calendars = .ok calendars') :
    Applied runtime mutation revision calendars calendars' := by
  unfold apply at h
  simp only at h
  split at h
  · rename_i hop
    cases hwritten : Google.GoogleWriteEvent.of runtime.formatters mutation with
    | error error =>
      rw [hwritten] at h
      cases h
    | ok written =>
      simp only [hwritten, bind, Except.bind] at h
      split at h
      · cases h
      · rename_i hcurrent
        cases h
        exact .create hop hwritten hcurrent
  · rename_i hop
    cases hwritten : Google.GoogleWriteEvent.of runtime.formatters mutation with
    | error error =>
      rw [hwritten] at h
      cases h
    | ok written =>
      simp only [hwritten, bind, Except.bind] at h
      split at h
      · cases h
      · rename_i hcurrent
        split at h
        · rename_i hmatches
          cases h
          exact .update hop hwritten hcurrent hmatches
        · cases h
  · rename_i hop
    split at h
    · rename_i hcurrent
      cases h
      exact .gone hop hcurrent
    · rename_i hcurrent
      split at h
      · rename_i hmatches
        cases h
        exact .delete hop hcurrent hmatches
      · cases h

theorem request_calendars {s : Session} {answers : Answers} {effect : OutboxEffect}
    {rest : List OutboxEffect} (hactivity : s.activity = .draining .apply (effect :: rest)) :
    (s.request runtime answers effect rest).calendars = s.calendars ∨
      (s.performed runtime (.advance answers) = some effect ∧
        apply runtime effect.mutation answers.revision s.calendars =
          .ok (s.request runtime answers effect rest).calendars) := by
  unfold Session.request
  cases happly : apply runtime effect.mutation answers.revision s.calendars with
  | error error => exact .inl rfl
  | ok calendars =>
    simp only
    split
    · exact .inl rfl
    · rename_i hperformed
      refine .inr ⟨?_, rfl⟩
      simp only [Session.performed, hactivity, happly]
      rw [if_pos]
      cases hfailure : answers.failure with
      | none => rfl
      | some error => simpa [hfailure] using hperformed

theorem versionFrom {s s' : Session} {e : Event} (hmoves : Moves runtime s e s') (place : Place) :
    VersionFrom runtime s s' e place := by
  cases hmoves with
  | @request answers effect rest hactivity =>
    rcases request_calendars hactivity with hsame | ⟨hperformed, happly⟩
    · exact .same (congrFun hsame place)
    · by_cases hplace : effect.mutation.place runtime = place
      · generalize hnew : (s.request runtime answers effect rest).calendars = calendars' at happly
        subst hplace
        cases apply_applied happly with
        | create hop hwritten =>
          refine .written answers effect _ rfl hperformed (by simp [hop]) rfl hwritten ?_
          rw [hnew]
          exact Function.update_self _ _ _
        | update hop hwritten =>
          refine .written answers effect _ rfl hperformed (by simp [hop]) rfl hwritten ?_
          rw [hnew]
          exact Function.update_self _ _ _
        | delete =>
          refine .deleted effect hperformed rfl ?_
          rw [hnew]
          exact Function.update_self _ _ _
        | gone => exact .same (congrFun hnew _)
      · refine .same ?_
        generalize (s.request runtime answers effect rest).calendars = calendars' at happly ⊢
        cases apply_applied happly with
        | create => exact Calendars.push_of_ne (Ne.symm hplace)
        | update => exact Calendars.push_of_ne (Ne.symm hplace)
        | delete => exact Calendars.push_of_ne (Ne.symm hplace)
        | gone => rfl
  | edit place' version =>
    by_cases hplace : place = place'
    · subst hplace
      exact .edited version rfl (Function.update_self _ _ _)
    · exact .same (Calendars.push_of_ne hplace)
  | _ => exact .same rfl

/-- A version that a step adds has a new revision. -/
theorem versions_step {s s' : Session} {e : Event} {place : Place}
    (h : VersionFrom runtime s s' e place) (hrevises : Revises runtime s e) :
    s'.calendars place = s.calendars place ∨
      ∃ version, s'.calendars place = version :: s.calendars place ∧
        ∀ revision, version.bind (·.resource.etag) = some revision →
          revision ∉ s.calendars.revisions place := by
  cases h with
  | same h => exact .inl h
  | edited version hevent h =>
    subst hevent
    exact .inr ⟨version, h, hrevises⟩
  | written answers effect written hevent hperformed hop hplace _ h =>
    subst hevent
    refine .inr ⟨_, h, ?_⟩
    rintro revision hrevision
    cases hrevision
    rw [← hplace]
    exact hrevises effect hperformed hop
  | deleted effect hperformed hplace h =>
    exact .inr ⟨none, h, fun _ hnone => nomatch hnone⟩

/-! ## Revisions -/

/-- The event has had the revision, and has the property while it is at it. -/
def KnownAt (calendars : Calendars) (place : Place) (revision : String) (Q : Version → Prop) :
    Prop :=
  revision ∈ calendars.revisions place ∧
    ∀ version, calendars.current place = some version →
      version.resource.etag = some revision → Q version

theorem KnownAt.of_current {calendars : Calendars} {place : Place} {revision : String}
    {version : Version} {Q : Version → Prop} (h : calendars.current place = some version)
    (hetag : version.resource.etag = some revision) (hQ : Q version) :
    KnownAt calendars place revision Q := by
  obtain ⟨head, hhead, hversion⟩ := Option.bind_eq_some_iff.1 h
  simp only [id] at hversion
  subst hversion
  refine ⟨List.mem_filterMap.2 ⟨_, List.mem_of_head? hhead, hetag⟩, fun version' h' _ => ?_⟩
  rw [h] at h'
  cases h'
  exact hQ

/-- What is known under a revision stays known, because a revision is not used again. -/
theorem KnownAt.step {s s' : Session} {e : Event} {place : Place} {revision : String}
    {Q : Version → Prop} (h : KnownAt s.calendars place revision Q)
    (hversions : VersionFrom runtime s s' e place) (hrevises : Revises runtime s e) :
    KnownAt s'.calendars place revision Q := by
  obtain ⟨hknown, hshown⟩ := h
  unfold Calendars.revisions at hknown
  unfold Calendars.current at hshown
  unfold KnownAt Calendars.revisions Calendars.current
  rcases versions_step hversions hrevises with hsame | ⟨added, hcons, hfresh⟩
  · rw [hsame]
    exact ⟨hknown, hshown⟩
  · rw [hcons]
    refine ⟨((List.sublist_cons_self _ _).filterMap _).subset hknown, ?_⟩
    intro version hcurrent hetag
    rw [List.head?_cons, Option.join_some] at hcurrent
    subst hcurrent
    exact absurd hknown (hfresh revision hetag)

end Planipus.Native

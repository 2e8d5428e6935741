import Planipus.Native.Verify.Holds

/-!
# Restoring a held copy

`resolveNotice(restore)` as one call, with the calls to the repository that throw. The hold is taken
off the projection before anything is known about the policy, the source event and the copy, so a
call that throws between that write and the end of the decision leaves a notice open that can no
longer be resolved. The call is atomic where it throws before that write, or not before the drain.
-/

namespace Planipus.Native.Restore

open CalendarSync Library

/-! ## The call -/

/-- The calls to the repository, by what they read or write. -/
inductive Call | notice | projection | saveProjection | observations | intent | updateNotice
deriving DecidableEq

/-- How far the call has come. -/
structure Progress where
  session : Session
  /-- The restoring intent that has been enqueued. -/
  queued : Option ProviderMutation := none
  /-- The drain begins; otherwise the call throws. -/
  drains : Bool := false

section Restore

variable (runtime : Runtime) (fails : Call → Bool) (answers : Answers) (id : Nat) (s : Session)

/-- The intent of a write, if it is one. -/
def intent : RepositoryWrite → Option ProviderMutation
  | .enqueue _ mutation => some mutation
  | _ => none

/-- `enqueueRestore` and `markResolved`, once the projection is saved. -/
def restoreSaved (notice : StoredNotice) (projection : StoredProjection) (saved : Session) :
    Progress :=
  if fails .observations then { session := saved }
  else
    match saved.restoreWrite runtime answers notice projection with
    | none => { session := saved }
    | some write =>
      if fails .intent then { session := saved }
      else
        let written := (saved.write answers.now write).become (.marking notice .restore)
        if fails .updateNotice then { session := written, queued := intent write }
        else
          { session := (written.markResolved notice .restore).become .fetching
            queued := intent write
            drains := true }

/-- `resolveNotice(restore)` up to the drain. -/
def restore : Progress :=
  let saved := (s.become .idle).resolveNotice id .restore
  match saved.activity with
  | .restoring notice projection =>
    if fails .notice || fails .projection || fails .saveProjection then { session := s }
    else restoreSaved runtime fails answers notice projection saved
  | _ => { session := s }

end Restore

/-- A step of the drain, or of the calendars. -/
def drains : Event → Bool
  | .advance _ | .edit _ _ => true
  | _ => false

/-- The states in which the call may throw. -/
inductive Thrown (runtime : Runtime) (progress : Progress) : Session → Prop
  | early (h : progress.drains = false) : Thrown runtime progress progress.session
  | drain {u : Session} (h : progress.drains = true)
      (hdrain : (Session.machine runtime).Leads (fun _ e => drains e = true) progress.session u) :
    Thrown runtime progress u

/-! ## Atomicity -/

/-- The notice is open, and its projection carries its hold. -/
def resolvable (repository : Repository) (id : Nat) : Bool :=
  (repository.notices.find? fun notice => notice.id = id).any fun notice =>
    notice.notice.kind.carriesDecision && notice.status ≠ .resolved &&
      (repository.projection notice.notice.projectionKey).any fun projection =>
        projection.hold.isSome && !projection.detached

def resolved (repository : Repository) (id : Nat) : Bool :=
  (repository.notices.find? fun notice => notice.id = id).any fun notice =>
    notice.status = .resolved

/-- Before the restoring effect is queued, the notice is as resolvable as it was; afterwards the
effect stands in the outbox, with what the drain has made of it, and the notice is resolved. -/
def Atomic (id : Nat) (s : Session) (progress : Progress) (u : Session) : Prop :=
  match progress.queued with
  | none => resolvable s.repository id = true → resolvable u.repository id = true
  | some mutation =>
    resolved u.repository id = true ∧ ∃ effect ∈ progress.session.repository.outbox,
      effect.idempotencyKey = mutation.idempotencyKey ∧ effect.unfinished = true ∧
        ∃ row ∈ u.repository.outbox, row.id = effect.id

section Condition

variable (runtime : Runtime) (fails : Call → Bool) (answers : Answers) (id : Nat) (s : Session)

/-- The call gets so far as to save the projection. -/
def saves : Bool :=
  resolvable s.repository id && !fails .notice && !fails .projection && !fails .saveProjection

/-- The event is there and its policy copies it. -/
def copied (policy : SyncPolicy) (event : Option SourceEvent) : Bool :=
  event.any fun event =>
    let decision := evaluate runtime.env runtime.formatters.dateText runtime.services event policy
      true
    decision.action = .copy && decision.desiredCopy.isSome

/-- The policy is available, the lookup of the copy succeeds, and either the copy is there and owned
or the source event is still to be copied. -/
def restorable (notice : StoredNotice) (projection : StoredProjection) : Bool :=
  match answers.policy with
  | none => false
  | some policy =>
    match lookup runtime answers.failure s.calendars projection.destinationEndpoint
        projection.destinationEventID with
    | .error _ => false
    | .ok (some observed) => isOwned runtime observed policy.id projection.destinationEventID
    | .ok none => copied runtime policy (Session.sourceEvent runtime notice.notice.projectionKey
        (s.repository.observations policy.sourceEndpoint))

/-- An intent is enqueued, or stands in the outbox unfinished. -/
def accepted (mutation : ProviderMutation) : Bool :=
  !s.repository.refused mutation || s.repository.outbox.any fun effect =>
    effect.idempotencyKey = mutation.idempotencyKey && effect.unfinished

/-- From the projection on nothing goes wrong before the drain, and there is something to restore. -/
def completes : Bool :=
  !fails .observations && !fails .intent && !fails .updateNotice &&
    (s.repository.notices.find? fun notice => notice.id = id).any fun notice =>
      (s.repository.projection notice.notice.projectionKey).any fun projection =>
        restorable runtime answers s notice projection &&
          ((s.restoreWrite runtime answers notice projection).bind intent).all (accepted s)

end Condition

variable {runtime : Runtime} {fails : Call → Bool} {answers : Answers} {id : Nat} {s u : Session}

/-! ## Up to the projection -/

/-- The notice is found open, with a projection that is held and attached. -/
structure Held (s : Session) (id : Nat) (notice : StoredNotice) (projection : StoredProjection) :
    Prop where
  found : (s.repository.notices.find? fun notice => notice.id = id) = some notice
  open_ : notice.status ≠ .resolved
  decides : notice.notice.kind.carriesDecision = true
  stored : s.repository.projection notice.notice.projectionKey = some projection
  held : projection.hold.isSome = true
  attached : projection.detached = false

theorem resolvable_iff : resolvable s.repository id = true ↔
    ∃ notice projection, Held s id notice projection := by
  constructor
  · intro h
    obtain ⟨notice, hfound, h⟩ := (Option.any_eq_true _ _).1 h
    simp only [Bool.and_eq_true, decide_eq_true_eq] at h
    obtain ⟨⟨hdecides, hopen⟩, h⟩ := h
    obtain ⟨projection, hstored, h⟩ := (Option.any_eq_true _ _).1 h
    simp only [Bool.and_eq_true, Bool.not_eq_true'] at h
    exact ⟨notice, projection, hfound, hopen, hdecides, hstored, h.1, h.2⟩
  · rintro ⟨notice, projection, h⟩
    simp [resolvable, h.found, h.open_, h.decides, h.stored, h.held, h.attached]

theorem resolveNotice_of_held {notice : StoredNotice} {projection : StoredProjection}
    (h : Held s id notice projection) :
    (s.become .idle).resolveNotice id .restore =
      { s with
        repository := s.repository.saveProjection { projection with hold := none }
        activity := .restoring notice { projection with hold := none } } := by
  have hisNone : projection.hold.isNone = false := by simpa using h.held
  simp [Session.resolveNotice, Session.become, h.found, h.open_, h.decides, h.stored, hisNone,
    h.attached]

theorem resolveNotice_of_not (h : resolvable s.repository id = false) :
    (s.become .idle).resolveNotice id .restore = s.become .idle := by
  have hheld : ∀ notice projection, ¬ Held s id notice projection := by
    intro notice projection hheld
    rw [resolvable_iff.2 ⟨notice, projection, hheld⟩] at h
    cases h
  unfold Session.resolveNotice
  split
  · rfl
  · rename_i notice hfound
    split
    · rfl
    · rename_i hopen
      split
      · rfl
      · rename_i projection hstored
        split
        · rfl
        · rename_i hfree
          simp only [Bool.or_eq_true, Bool.not_eq_true', decide_eq_true_eq, not_or,
            Bool.not_eq_false, Bool.not_eq_true, Option.isNone_eq_false_iff] at hopen hfree
          exact absurd ⟨hfound, hopen.2, hopen.1, hstored, hfree.1, hfree.2⟩
            (hheld notice projection)

/-- Nothing is written where the call does not come to save the projection. -/
theorem restore_of_not_saves (h : saves fails id s = false) :
    restore runtime fails answers id s = { session := s } := by
  unfold restore
  cases hresolvable : resolvable s.repository id with
  | false => rw [resolveNotice_of_not hresolvable]; rfl
  | true =>
    obtain ⟨notice, projection, hheld⟩ := resolvable_iff.1 hresolvable
    rw [resolveNotice_of_held hheld]
    refine if_pos ?_
    simpa [saves, hresolvable, ← Bool.not_eq_true, or_iff_not_imp_left, and_assoc] using h

/-- The session with the hold off the projection. -/
def unheld (s : Session) (notice : StoredNotice) (projection : StoredProjection) : Session :=
  { s with
    repository := s.repository.saveProjection { projection with hold := none }
    activity := .restoring notice { projection with hold := none } }

theorem restore_of_saves (runtime : Runtime) (answers : Answers) (h : saves fails id s = true) :
    ∃ notice projection, Held s id notice projection ∧
      restore runtime fails answers id s =
        restoreSaved runtime fails answers notice { projection with hold := none }
          (unheld s notice projection) := by
  simp only [saves, Bool.and_eq_true, Bool.not_eq_true'] at h
  obtain ⟨⟨⟨hresolvable, hnotice⟩, hprojection⟩, hsave⟩ := h
  obtain ⟨notice, projection, hheld⟩ := resolvable_iff.1 hresolvable
  refine ⟨notice, projection, hheld, ?_⟩
  unfold restore
  rw [resolveNotice_of_held hheld]
  exact if_neg (by simp [hnotice, hprojection, hsave])

/-! ## From the projection to the drain -/

/-- Without a hold the notice can no longer be resolved. -/
theorem not_resolvable {repository : Repository} {notice : StoredNotice}
    (hfound : (repository.notices.find? fun notice => notice.id = id) = some notice)
    (hfree : (repository.projection notice.notice.projectionKey).all (·.hold.isNone) = true) :
    resolvable repository id = false := by
  rw [resolvable, hfound, Option.any_some]
  cases hstored : repository.projection notice.notice.projectionKey with
  | none => simp
  | some projection =>
    rw [hstored, Option.all_some, Option.isNone_iff_eq_none] at hfree
    simp [hfree]

theorem unheld_free {notice : StoredNotice} {projection : StoredProjection}
    (h : Held s id notice projection) :
    ((unheld s notice projection).repository.projection notice.notice.projectionKey) =
      some { projection with hold := none } := by
  rw [← Repository.projection_key h.stored]
  exact Repository.saveProjection_self _

theorem intent_enqueueRestore_some {projection : StoredProjection} {key : ProjectionKey}
    {policy : SyncPolicy} {event : Option SourceEvent} {observed : SourceEvent} :
    (intent (Session.enqueueRestore runtime projection key policy event (some observed))).isSome =
      true := by
  unfold Session.enqueueRestore
  simp only
  split <;> rfl

theorem intent_enqueueRestore_none {projection : StoredProjection} {key : ProjectionKey}
    {policy : SyncPolicy} {event : Option SourceEvent} :
    (intent (Session.enqueueRestore runtime projection key policy event none)).isSome =
      copied runtime policy event := by
  unfold Session.enqueueRestore copied
  cases event with
  | none => rfl
  | some event =>
    simp only [Option.bind_some, Option.any_some]
    by_cases haction : (evaluate runtime.env runtime.formatters.dateText runtime.services event policy
        true).action = .copy
    · rw [if_pos haction, decide_eq_true haction, Bool.true_and]
      cases (evaluate runtime.env runtime.formatters.dateText runtime.services event policy
        true).desiredCopy <;> rfl
    · rw [if_neg haction, decide_eq_false haction, Bool.false_and]
      rfl

/-- What is to be restored is enqueued, unless neither the source event nor the copy is left. -/
theorem restorable_eq {notice : StoredNotice} {projection : StoredProjection} :
    restorable runtime answers s notice projection =
      ((s.restoreWrite runtime answers notice projection).bind intent).isSome := by
  unfold restorable Session.restoreWrite
  cases answers.policy with
  | none => rfl
  | some policy =>
    simp only [Option.bind_eq_bind, Option.bind_some]
    cases lookup runtime answers.failure s.calendars projection.destinationEndpoint
        projection.destinationEventID with
    | error error => rfl
    | ok observed =>
      cases observed with
      | none => exact intent_enqueueRestore_none.symm
      | some observed =>
        simp only
        by_cases hown : isOwned runtime observed policy.id projection.destinationEventID = true
        · rw [if_pos hown, hown]
          exact intent_enqueueRestore_some.symm
        · rw [if_neg hown, Bool.eq_false_iff.2 hown]
          rfl

/-- An intent that is accepted stands in the outbox unfinished. -/
theorem accepted_iff {mutation : ProviderMutation} {key : ProjectionKey} {now : Instant} :
    accepted s mutation = true ↔
      ∃ effect ∈ (s.repository.enqueue now key mutation).outbox,
        effect.idempotencyKey = mutation.idempotencyKey ∧ effect.unfinished = true := by
  unfold accepted Repository.enqueue
  cases hrefused : s.repository.refused mutation with
  | true => simp
  | false =>
    simp only [Bool.not_false, Bool.true_or, true_iff, Bool.false_eq_true, if_false]
    refine ⟨s.repository.newEffect now key mutation, List.mem_append_right _ (.head _), ?_⟩
    simp [Repository.newEffect, OutboxEffect.unfinished]

/-! ## The drain -/

/-- What a drain leaves alone. -/
structure Drained (s u : Session) : Prop where
  activity : u.activity = .idle ∨ u.activity = .fetching ∨
    ∃ stage effects, u.activity = .draining stage effects
  notices : u.repository.notices = s.repository.notices
  rows : ∀ effect ∈ s.repository.outbox, ∃ row ∈ u.repository.outbox, row.id = effect.id

theorem Drained.moves {t t' : Session} {e : Event} (h : Drained s t) (hmoves : Moves runtime t e t')
    (he : drains e = true) : Drained s t' := by
  have hrows : ∀ {id : Nat} {body : OutboxEffect → OutboxEffect},
      (∀ effect, (body effect).id = effect.id) → ∀ effect ∈ s.repository.outbox,
        ∃ row ∈ (t.repository.updateEffect id body).outbox, row.id = effect.id := by
    intro id body hbody effect heffect
    obtain ⟨row, hrow, hid⟩ := h.rows effect heffect
    by_cases hrowId : row.id = id
    · exact ⟨_, mem_updateRow_of_mem hrow hrowId, (hbody row).trans hid⟩
    · exact ⟨row, mem_updateRow_of_ne hrow hrowId, hid⟩
  cases hmoves with
  | refuse => exact h
  | stop => exact ⟨.inl rfl, h.notices, h.rows⟩
  | expire => exact ⟨.inl rfl, h.notices, h.rows⟩
  | edit => exact ⟨h.activity, h.notices, h.rows⟩
  | fetch => exact ⟨.inr (.inr ⟨_, _, rfl⟩), h.notices, h.rows⟩
  | applying => exact ⟨.inr (.inr ⟨_, _, rfl⟩), h.notices, hrows fun _ => rfl⟩
  | request => exact ⟨.inr (.inr ⟨_, _, rfl⟩), h.notices, h.rows⟩
  | fail => exact ⟨.inr (.inr ⟨_, _, rfl⟩), h.notices, h.rows⟩
  | pass => exact ⟨.inr (.inr ⟨_, _, rfl⟩), h.notices, h.rows⟩
  | meet => exact ⟨.inr (.inr ⟨_, _, rfl⟩), h.notices, h.rows⟩
  | quarantine => exact ⟨.inr (.inr ⟨_, _, rfl⟩), h.notices, hrows fun _ => rfl⟩
  | ambiguous => exact ⟨.inl rfl, h.notices, hrows fun _ => rfl⟩
  | retry => exact ⟨.inl rfl, h.notices, hrows fun _ => rfl⟩
  | revise => exact ⟨.inl rfl, h.notices, hrows fun _ => rfl⟩
  | succeed => exact ⟨.inr (.inr ⟨_, _, rfl⟩), h.notices, hrows fun _ => rfl⟩
  | finish _ _ hwrite =>
    refine ⟨.inr (.inr ⟨_, _, rfl⟩), ?_, ?_⟩
    · rcases OutboxEffect.finish_eq_some hwrite with ⟨-, rfl⟩ | ⟨desired, -, -, rfl⟩
      · exact h.notices
      · exact h.notices
    · rcases OutboxEffect.finish_eq_some hwrite with ⟨-, rfl⟩ | ⟨desired, -, -, rfl⟩
      · exact h.rows
      · exact h.rows
  | start => cases he
  | detach => cases he
  | reopen => cases he
  | _ hactivity =>
    rcases h.activity with hother | hother | ⟨_, _, hother⟩ <;>
      · rw [hactivity] at hother
        cases hother

theorem Drained.leads
    (h : (Session.machine runtime).Leads (fun _ e => drains e = true) s u)
    (hactivity : s.activity = .fetching) : Drained s u := by
  refine h.invariant ⟨.inr (.inl hactivity), rfl, fun effect heffect => ⟨effect, heffect, rfl⟩⟩ ?_
  exact fun _ e h he => h.moves (Session.step_moves e) he

/-! ## The call as a whole -/

theorem not_atomic_of_unqueued {progress : Progress} (hqueued : progress.queued = none)
    (hs : resolvable s.repository id = true) (hu : resolvable u.repository id = false) :
    ¬ Atomic id s progress u := by
  unfold Atomic
  rw [hqueued]
  intro h
  rw [h hs] at hu
  cases hu

theorem not_atomic_of_open {progress : Progress} {mutation : ProviderMutation}
    (hqueued : progress.queued = some mutation) (hu : resolved u.repository id = false) :
    ¬ Atomic id s progress u := by
  unfold Atomic
  rw [hqueued]
  rintro ⟨h, -⟩
  rw [h] at hu
  cases hu

/-- The notice once it is marked. -/
theorem resolved_of_marked {notice : StoredNotice} {written : Session}
    (hfound : (written.repository.notices.find? fun notice => notice.id = id) = some notice)
    (hsame : u.repository.notices = (written.markResolved notice .restore).repository.notices) :
    resolved u.repository id = true ∧ resolvable u.repository id = false := by
  have hid : notice.id = id := (find?_key hfound).2
  have hupdated : (written.markResolved notice .restore).repository.notices.find?
      (fun other => other.id = notice.id) =
        (written.repository.notices.find? fun other => other.id = notice.id).map fun _ =>
          { notice with status := .resolved, resolution := some .restore } :=
    find?_updateRow_self fun _ _ => rfl
  rw [hid, hfound, Option.map_some, ← hsame] at hupdated
  constructor
  · simp [resolved, hupdated]
  · simp [resolvable, hupdated]

/-- The write of `enqueueRestore` is the intent or the deletion of the projection. -/
theorem restoreWrite_cases {notice : StoredNotice} {projection : StoredProjection}
    {write : RepositoryWrite} (h : s.restoreWrite runtime answers notice projection = some write) :
    write = .deleteProjection notice.notice.projectionKey ∨
      ∃ mutation, write = .enqueue notice.notice.projectionKey mutation := by
  obtain ⟨policy, hrestored⟩ := restoreWrite_restored h
  cases hrestored with
  | gone => exact .inl rfl
  | create => exact .inr ⟨_, rfl⟩
  | update => exact .inr ⟨_, rfl⟩
  | delete => exact .inr ⟨_, rfl⟩

/-- From the write of `enqueueRestore` on. -/
theorem written_atomic_iff {notice : StoredNotice} {projection : StoredProjection}
    {write : RepositoryWrite} (hheld : Held s id notice projection)
    (hrestore : s.restoreWrite runtime answers notice projection = some write)
    {written : Session}
    (hwritten : written =
      ((unheld s notice projection).write answers.now write).become (.marking notice .restore))
    {progress : Progress}
    (hprogress : progress =
      if fails .updateNotice then { session := written, queued := intent write }
      else
        { session := (written.markResolved notice .restore).become .fetching
          queued := intent write
          drains := true })
    (h : Thrown runtime progress u) :
    Atomic id s progress u ↔
      (!fails .updateNotice && ((intent write).isSome && (intent write).all (accepted s))) = true := by
  have hresolvable : resolvable s.repository id = true := resolvable_iff.2 ⟨_, _, hheld⟩
  have hfound : (written.repository.notices.find? fun notice => notice.id = id) = some notice := by
    rw [hwritten]
    rcases restoreWrite_cases hrestore with rfl | ⟨mutation, rfl⟩
    · exact hheld.found
    · simp only [Session.become, Session.write, Repository.write, Repository.enqueue_notices]
      exact hheld.found
  cases hmark : fails .updateNotice with
  | true =>
    rw [hmark, if_pos rfl] at hprogress
    subst hprogress
    refine iff_of_false ?_ (by simp)
    cases h with
    | drain hdrains => cases hdrains
    | early =>
      rcases restoreWrite_cases hrestore with rfl | ⟨mutation, rfl⟩
      · refine not_atomic_of_unqueued rfl hresolvable (not_resolvable hfound ?_)
        have hgone : written.repository.projection notice.notice.projectionKey = none := by
          rw [hwritten]
          exact Repository.deleteProjection_self
        rw [hgone]
        rfl
      · refine not_atomic_of_open rfl ?_
        rw [resolved, hfound, Option.any_some]
        exact decide_eq_false hheld.open_
  | false =>
    rw [hmark, if_neg (by simp)] at hprogress
    subst hprogress
    cases h with
    | early hdrains => cases hdrains
    | drain _ hleads =>
      have hdrained := Drained.leads hleads rfl
      obtain ⟨hresolved, hopen⟩ := resolved_of_marked hfound hdrained.notices
      rcases restoreWrite_cases hrestore with rfl | ⟨mutation, rfl⟩
      · exact iff_of_false (not_atomic_of_unqueued rfl hresolvable hopen) (by simp [intent])
      · have haccepted : accepted s mutation = true ↔ ∃ effect ∈ written.repository.outbox,
            effect.idempotencyKey = mutation.idempotencyKey ∧ effect.unfinished = true := by
          rw [hwritten]
          exact accepted_iff (s := unheld s notice projection)
        simp only [Atomic, intent, Option.isSome_some, Option.all_some, Bool.not_false,
          Bool.true_and, haccepted, hresolved, true_and]
        constructor
        · rintro ⟨effect, heffect, hkey, hunfinished, -⟩
          exact ⟨effect, heffect, hkey, hunfinished⟩
        · rintro ⟨effect, heffect, hkey, hunfinished⟩
          exact ⟨effect, heffect, hkey, hunfinished, hdrained.rows effect heffect⟩

/-- The same, once the hold is off the projection. -/
theorem restoreSaved_atomic_iff {notice : StoredNotice} {projection : StoredProjection}
    (hheld : Held s id notice projection)
    (h : Thrown runtime (restoreSaved runtime fails answers notice { projection with hold := none }
      (unheld s notice projection)) u) :
    Atomic id s (restoreSaved runtime fails answers notice { projection with hold := none }
        (unheld s notice projection)) u ↔
      (!fails .observations && !fails .intent && !fails .updateNotice &&
        (restorable runtime answers s notice projection &&
          ((s.restoreWrite runtime answers notice projection).bind intent).all (accepted s))) =
        true := by
  have hresolvable : resolvable s.repository id = true := resolvable_iff.2 ⟨_, _, hheld⟩
  have hunheld : resolvable (unheld s notice projection).repository id = false :=
    not_resolvable hheld.found (by rw [unheld_free hheld]; rfl)
  have hwrite : (unheld s notice projection).restoreWrite runtime answers notice
      { projection with hold := none } = s.restoreWrite runtime answers notice projection := rfl
  rw [restorable_eq]
  unfold restoreSaved at h ⊢
  rw [hwrite] at h ⊢
  cases hobservations : fails .observations with
  | true =>
    rw [hobservations, if_pos rfl] at h
    rw [if_pos rfl]
    cases h with
    | early => simpa using not_atomic_of_unqueued rfl hresolvable hunheld
    | drain hdrains => cases hdrains
  | false =>
    rw [hobservations, if_neg (by simp)] at h
    rw [if_neg (by simp)]
    cases hrestore : s.restoreWrite runtime answers notice projection with
    | none =>
      rw [hrestore] at h
      cases h with
      | early => simpa using not_atomic_of_unqueued rfl hresolvable hunheld
      | drain hdrains => cases hdrains
    | some write =>
      rw [hrestore] at h
      simp only at h ⊢
      cases hintent : fails .intent with
      | true =>
        rw [hintent, if_pos rfl] at h
        rw [if_pos rfl]
        cases h with
        | early => simpa using not_atomic_of_unqueued rfl hresolvable hunheld
        | drain hdrains => cases hdrains
      | false =>
        rw [hintent, if_neg (by simp)] at h
        rw [if_neg (by simp)]
        simpa [hobservations, hintent] using written_atomic_iff hheld hrestore rfl rfl h

/-- **When restoring is atomic**: a call that throws leaves the notice as resolvable as it was, or
the restoring effect queued and the notice resolved, if and only if it throws before the projection
is saved or nothing goes wrong up to the drain, with something to restore. -/
theorem restore_atomic_iff (h : Thrown runtime (restore runtime fails answers id s) u) :
    Atomic id s (restore runtime fails answers id s) u ↔
      (saves fails id s = true → completes runtime fails answers id s = true) := by
  cases hsaves : saves fails id s with
  | false =>
    rw [restore_of_not_saves hsaves] at h ⊢
    cases h with
    | early => simp [Atomic]
    | drain hdrains => cases hdrains
  | true =>
    obtain ⟨notice, projection, hheld, hrestore⟩ := restore_of_saves runtime answers hsaves
    rw [hrestore] at h ⊢
    simp only [completes, hheld.found, hheld.stored, Option.any_some, forall_const]
    exact restoreSaved_atomic_iff hheld h

/-! ## The call and the machine -/

/-- The writes of the call are those of the machine, which may end at the same points. -/
theorem restore_leads (hidle : s.activity = .idle) :
    (Session.machine runtime).Leads (fun _ _ => True) s
      ((restore runtime fails answers id s).session.become .idle) := by
  have hstep : ∀ {t} (e : Event), (Session.machine runtime).Leads (fun _ _ => True) s t →
      (Session.machine runtime).Leads (fun _ _ => True) s (Session.step runtime t e) :=
    fun e h => .snoc h trivial
  have hs : s.become .idle = s := by
    simp only [Session.become, ← hidle]
  cases hsaves : saves fails id s with
  | false =>
    rw [restore_of_not_saves hsaves]
    exact hstep .abort .refl
  | true =>
    obtain ⟨notice, projection, hheld, hrestore⟩ := restore_of_saves runtime answers hsaves
    rw [hrestore]
    have hunheld : (Session.machine runtime).Leads (fun _ _ => True) s
        (unheld s notice projection) := by
      have hresolve := resolveNotice_of_held hheld
      rw [hs] at hresolve
      have hreopen := hstep (.resolveNotice id .restore) .refl
      simp only [Session.step, hidle, hresolve] at hreopen
      exact hreopen
    unfold restoreSaved
    split
    · exact hstep .abort hunheld
    · split
      · exact hstep .abort hunheld
      · rename_i write hwrite
        split
        · exact hstep .abort hunheld
        · have hwritten := hstep (.advance answers) hunheld
          simp only [Session.step, Session.advance, unheld] at hwritten
          rw [unheld] at hwrite
          rw [hwrite] at hwritten
          split
          · exact hstep .abort hwritten
          · exact hstep .abort (hstep (.advance answers) hwritten)

section Example

open DeletedCopies (exampleRuntime)
open Holds (holdingPolicy editCopy)

/-- The copy has been edited, and the edit is held. -/
def heldMeeting : Session :=
  (Session.machine exampleRuntime).run newSession
    (copyMeeting holdingPolicy ++ editCopy :: passAt 60000 holdingPolicy [] 2 [] [{ now := 60000 }])

/-- The request of the restoring effect fails, and the drain throws. -/
theorem restore_atomic_drain :
    Atomic 1 heldMeeting
      (restore exampleRuntime (fun _ => false) { policy := some holdingPolicy } 1 heldMeeting)
      ((Session.machine exampleRuntime).run
        (restore exampleRuntime (fun _ => false) { policy := some holdingPolicy } 1 heldMeeting).session
        [.advance { now := 60000, due := [2] }, .advance {},
          .advance { failure := some .transient }, .advance {}]) := by
  have hdrains : (restore exampleRuntime (fun _ => false) { policy := some holdingPolicy } 1
      heldMeeting).drains = true := by
    decide +kernel
  refine (restore_atomic_iff (.drain hdrains (Machine.leads_run _ _ ?_))).2 fun _ => ?_
  · decide +kernel
  · decide +kernel

/-- The policy is not available: the hold is gone, and the notice stays open for good. -/
theorem restore_strands_notice :
    (Session.machine exampleRuntime).Reachable (fun _ _ => True) heldMeeting ∧
      ∃ u, Thrown exampleRuntime (restore exampleRuntime (fun _ => false) {} 1 heldMeeting) u ∧
        ¬ Atomic 1 heldMeeting (restore exampleRuntime (fun _ => false) {} 1 heldMeeting) u := by
  refine ⟨⟨newSession, newSession_init, Machine.leads_run_free _ _⟩, _, .early ?_, ?_⟩
  · decide +kernel
  · refine not_atomic_of_unqueued ?_ ?_ ?_
    · decide +kernel
    · decide +kernel
    · decide +kernel

end Example

end Planipus.Native.Restore

import Planipus.Native.Verify.DeletedCopies
import Planipus.Native.Verify.Reconcile

/-!
# What a session can do

`Moves` lists the steps of a session with what they write and what they rest on, so that a statement
about every run is shown by looking at each of them once. `Session.Coherent` ties a drain to the
outbox: the effects that it still has before it are unfinished, and stand in the outbox as they were
fetched.
-/

namespace Planipus.Native

open CalendarSync Library

variable {runtime : Runtime}

/-! ## Steps -/

/-- The steps of a session. -/
inductive Moves (runtime : Runtime) (s : Session) : Event → Session → Prop
  | refuse (e : Event) : Moves runtime s e s
  /-- A call throws without a write, the process ends, or a drain is done. -/
  | stop (e : Event) : Moves runtime s e (s.become .idle)
  | start {policies : List SyncPolicy} {endpoint : CalendarEndpoint} {feeds : List Feed}
      (h : s.activity = .idle) :
    Moves runtime s (.runOnce policies) (s.become (.feeding endpoint [] [] feeds))
  | detach {id : Nat} {notice : StoredNotice} {projection : StoredProjection}
      (h : s.activity = .idle) (hnotice : notice ∈ s.repository.notices) (hid : notice.id = id)
      (hprojection : s.repository.projection notice.notice.projectionKey = some projection)
      (hhold : projection.hold.isSome = true) :
    Moves runtime s (.resolveNotice id .keepAndDetach)
      { s with
        repository := s.repository.saveProjection { projection with hold := none, detached := true }
        activity := .marking notice .keepAndDetach }
  | reopen {id : Nat} {notice : StoredNotice} {projection : StoredProjection}
      (h : s.activity = .idle) (hnotice : notice ∈ s.repository.notices) (hid : notice.id = id)
      (hprojection : s.repository.projection notice.notice.projectionKey = some projection)
      (hhold : projection.hold.isSome = true) (hattached : projection.detached = false) :
    Moves runtime s (.resolveNotice id .restore)
      { s with
        repository := s.repository.saveProjection { projection with hold := none }
        activity := .restoring notice { projection with hold := none } }
  | expire (answers : Answers) (endpoint : CalendarEndpoint) :
    Moves runtime s (.advance answers)
      { s with repository := s.repository.clearSyncToken endpoint, activity := .idle }
  | continue {answers : Answers} {endpoint : CalendarEndpoint} {write : RepositoryWrite}
      {writes : List RepositoryWrite} {pending : List (SyncPolicy × SourceEvent)}
      {feeds : List Feed} (h : s.activity = .feeding endpoint (write :: writes) pending feeds) :
    Moves runtime s (.advance answers)
      ((s.write answers.now write).become (.feeding endpoint writes pending feeds))
  | skip {answers : Answers} {endpoint : CalendarEndpoint} {policy : SyncPolicy}
      {event : SourceEvent} {pending : List (SyncPolicy × SourceEvent)} {feeds : List Feed}
      (h : s.activity = .feeding endpoint [] ((policy, event) :: pending) feeds)
      (hwrites : s.reconcile runtime answers policy event = .ok []) :
    Moves runtime s (.advance answers) (s.become (.feeding endpoint [] pending feeds))
  | reconcile {answers : Answers} {endpoint : CalendarEndpoint} {policy : SyncPolicy}
      {event : SourceEvent} {pending : List (SyncPolicy × SourceEvent)} {feeds : List Feed}
      {write : RepositoryWrite} {writes : List RepositoryWrite}
      (h : s.activity = .feeding endpoint [] ((policy, event) :: pending) feeds)
      (hwrites : s.reconcile runtime answers policy event = .ok (write :: writes)) :
    Moves runtime s (.advance answers)
      ((s.write answers.now write).become (.feeding endpoint writes pending feeds))
  | commit {answers : Answers} {endpoint : CalendarEndpoint} {feed : Feed} {feeds : List Feed}
      (h : s.activity = .feeding endpoint [] [] (feed :: feeds)) :
    Moves runtime s (.advance answers) (s.commit runtime answers feed feeds)
  | fed {answers : Answers} {endpoint : CalendarEndpoint}
      (h : s.activity = .feeding endpoint [] [] []) :
    Moves runtime s (.advance answers) (s.become .fetching)
  | restore {answers : Answers} {notice : StoredNotice} {projection : StoredProjection}
      {write : RepositoryWrite} (h : s.activity = .restoring notice projection)
      (hwrite : s.restoreWrite runtime answers notice projection = some write) :
    Moves runtime s (.advance answers)
      ((s.write answers.now write).become (.marking notice .restore))
  | mark {answers : Answers} {notice : StoredNotice} {action : SyncNoticeResolution}
      {activity : Activity} (h : s.activity = .marking notice action)
      (hnext : activity = .fetching ∨ activity = .idle) :
    Moves runtime s (.advance answers) ((s.markResolved notice action).become activity)
  | fetch {answers : Answers} {due : List OutboxEffect} (h : s.activity = .fetching)
      (hdue : s.repository.DueEffects answers.now due) :
    Moves runtime s (.advance answers) (s.become (.draining .attempt (due.take 100)))
  | applying {answers : Answers} {effect : OutboxEffect} {rest : List OutboxEffect}
      (h : s.activity = .draining .attempt (effect :: rest)) :
    Moves runtime s (.advance answers)
      { s with
        repository := s.repository.markApplying effect.id
        activity := .draining .apply (effect :: rest) }
  | request {answers : Answers} {effect : OutboxEffect} {rest : List OutboxEffect}
      (h : s.activity = .draining .apply (effect :: rest)) :
    Moves runtime s (.advance answers) (s.request runtime answers effect rest)
  | fail {answers : Answers} {stage : Stage} {effect : OutboxEffect} {rest : List OutboxEffect}
      {error : ProviderError} (h : s.activity = .draining stage (effect :: rest))
      (hverdict : s.verdict runtime answers effect stage = some (.error error)) :
    Moves runtime s (.advance answers)
      (s.become (.draining (.settle (.error error)) (effect :: rest)))
  | finish {answers : Answers} {stage : Stage} {effect : OutboxEffect} {rest : List OutboxEffect}
      {providerRevision : Option String} {continues : Bool} {write : RepositoryWrite}
      (h : s.activity = .draining stage (effect :: rest))
      (hverdict : s.verdict runtime answers effect stage =
        some (.ok (.finish providerRevision continues)))
      (hwrite : effect.finish providerRevision = some write) :
    Moves runtime s (.advance answers)
      ((s.write answers.now write).become
        (.draining .succeed (effect :: if continues then rest else [])))
  | pass {answers : Answers} {stage : Stage} {effect : OutboxEffect} {rest : List OutboxEffect}
      {continues : Bool} (h : s.activity = .draining stage (effect :: rest)) :
    Moves runtime s (.advance answers)
      (s.become (.draining .attempt (if continues then rest else [])))
  | meet {answers : Answers} {stage : Stage} {effect : OutboxEffect} {rest : List OutboxEffect}
      (h : s.activity = .draining stage (effect :: rest))
      (hverdict : s.verdict runtime answers effect stage = some (.ok .quarantine)) :
    Moves runtime s (.advance answers) (s.become (.draining .foreign (effect :: rest)))
  | quarantine {answers : Answers} {effect : OutboxEffect} {rest : List OutboxEffect}
      (h : s.activity = .draining .foreign (effect :: rest)) :
    Moves runtime s (.advance answers)
      { s with
        repository := s.repository.markQuarantined effect.id
        activity := .draining .attempt rest }
  | ambiguous {answers : Answers} {stage : Stage} {effect : OutboxEffect}
      {rest : List OutboxEffect} (h : s.activity = .draining stage (effect :: rest)) :
    Moves runtime s (.advance answers)
      { s with repository := s.repository.markAmbiguous effect.id, activity := .idle }
  | retry {answers : Answers} {stage : Stage} {effect : OutboxEffect} {rest : List OutboxEffect}
      (date : Instant) (h : s.activity = .draining stage (effect :: rest)) :
    Moves runtime s (.advance answers)
      { s with repository := s.repository.scheduleRetry effect.id date, activity := .idle }
  | revise {answers : Answers} {stage : Stage} {effect : OutboxEffect} {rest : List OutboxEffect}
      {mutation : ProviderMutation} (h : s.activity = .draining stage (effect :: rest))
      (hverdict : s.verdict runtime answers effect stage = some (.ok (.revise mutation))) :
    Moves runtime s (.advance answers)
      { s with
        repository := s.repository.reviseEffect effect.id mutation answers.now
        activity := .idle }
  | succeed {answers : Answers} {effect : OutboxEffect} {rest : List OutboxEffect}
      (h : s.activity = .draining .succeed (effect :: rest)) :
    Moves runtime s (.advance answers)
      { s with
        repository := s.repository.markSucceeded effect.id
        activity := .draining .attempt rest }
  | edit (place : Place) (version : Option Version) :
    Moves runtime s (.edit place version)
      { s with calendars := s.calendars.push place version }

namespace Session

variable {s : Session} {answers : Answers}

theorem feed_moves {endpoint : CalendarEndpoint} {writes : List RepositoryWrite}
    {pending : List (SyncPolicy × SourceEvent)} {feeds : List Feed}
    (h : s.activity = .feeding endpoint writes pending feeds) :
    Moves runtime s (.advance answers) (s.feed runtime answers endpoint writes pending feeds) := by
  have hfail : ∀ endpoint error,
      Moves runtime s (.advance answers) (s.failFeed endpoint error) := by
    intro endpoint error
    unfold failFeed
    by_cases herror : error = .cursorExpired
    · rw [if_pos herror]
      exact .expire answers endpoint
    · rw [if_neg herror]
      exact .stop _
  unfold feed
  split
  · exact .continue h
  · split
    · exact hfail _ _
    · rename_i hwrites
      exact .skip h hwrites
    · rename_i hwrites
      exact .reconcile h hwrites
  · split
    · exact hfail _ _
    · split
      · exact .commit h
      · exact .stop _
  · exact .fed h

theorem resolveNotice_moves {id : Nat} {action : SyncNoticeResolution} (h : s.activity = .idle) :
    Moves runtime s (.resolveNotice id action) (s.resolveNotice id action) := by
  unfold resolveNotice
  split
  · exact .refuse _
  · rename_i notice hnotice
    obtain ⟨hmem, hid⟩ := find?_key hnotice
    split
    · exact .refuse _
    · split
      · exact .refuse _
      · rename_i projection hprojection
        split
        · exact .refuse _
        · rename_i hheld
          simp only [Bool.or_eq_true, not_or, Bool.not_eq_true, Option.isNone_eq_false_iff] at hheld
          split
          · exact .detach h hmem hid hprojection hheld.1
          · exact .reopen h hmem hid hprojection hheld.1 hheld.2

theorem conclude_moves {stage : Stage} {effect : OutboxEffect} {rest : List OutboxEffect}
    {verdict : Verdict} (h : s.activity = .draining stage (effect :: rest))
    (hverdict : s.verdict runtime answers effect stage = some (.ok verdict)) :
    Moves runtime s (.advance answers) (s.conclude answers.now effect rest verdict) := by
  cases verdict with
  | finish providerRevision continues =>
    simp only [conclude]
    cases hwrite : effect.finish providerRevision with
    | none => exact .pass h
    | some write => exact .finish h hverdict hwrite
  | quarantine => exact .meet h hverdict
  | ambiguous => exact .ambiguous h
  | retry delay => exact .retry (answers.now + delay) h
  | revise mutation => exact .revise h hverdict
  | escape => exact .stop _

theorem drain_moves {stage : Stage} {effect : OutboxEffect} {rest : List OutboxEffect}
    (h : s.activity = .draining stage (effect :: rest)) :
    Moves runtime s (.advance answers) (s.drain runtime answers effect rest stage) := by
  unfold drain
  split
  · rename_i hverdict
    exact conclude_moves h hverdict
  · rename_i hverdict
    exact .fail h hverdict
  · rename_i hverdict
    cases stage with
    | attempt => exact .applying h
    | apply => exact .request h
    | settle result => cases result <;> simp [verdict] at hverdict; split at hverdict <;> cases hverdict
    | succeed => exact .succeed h
    | foreign => exact .quarantine h

theorem advance_moves : Moves runtime s (.advance answers) (s.advance runtime answers) := by
  unfold advance
  split
  · exact .refuse _
  · rename_i h
    exact feed_moves h
  · rename_i h
    split
    · exact .stop _
    · rename_i hwrite
      exact .restore h hwrite
  · rename_i notice action h
    refine .mark h ?_
    cases action
    · exact .inl rfl
    · exact .inr rfl
  · rename_i h
    simp only
    split
    · rename_i hdue
      exact .fetch h hdue
    · exact .refuse _
  · exact .stop _
  · rename_i h
    exact drain_moves h

/-- **Every step is one of `Moves`.** -/
theorem step_moves (e : Event) : Moves runtime s e (step runtime s e) := by
  cases e with
  | runOnce policies =>
    unfold step
    simp only
    split
    · rename_i h
      split
      · exact .refuse _
      · exact .start h
    · exact .refuse _
  | resolveNotice id action =>
    unfold step
    simp only
    split
    · rename_i h
      exact resolveNotice_moves h
    · exact .refuse _
  | advance answers => exact advance_moves
  | abort => exact .stop _
  | edit place version => exact .edit place version

end Session

/-! ## The outbox -/

theorem OutboxEffect.finish_eq_some {effect : OutboxEffect} {providerRevision : Option String}
    {write : RepositoryWrite} (h : effect.finish providerRevision = some write) :
    (effect.mutation.operation = .delete ∧ write = .deleteProjection effect.projectionKey) ∨
      ∃ desired, effect.mutation.operation ≠ .delete ∧
        effect.mutation.desiredCopy = some desired ∧
        write = .saveProjection
          { key := effect.projectionKey
            destinationEndpoint := effect.mutation.destinationEndpoint
            destinationEventID := effect.mutation.destinationEventID
            desiredFingerprint := fingerprint desired
            providerRevision } := by
  unfold OutboxEffect.finish at h
  split at h
  · rename_i hop
    cases h
    exact .inl ⟨hop, rfl⟩
  · rename_i desired hdesired hnot
    cases h
    exact .inr ⟨desired, hnot, hdesired, rfl⟩
  · cases h

namespace Repository

/-- Every effect has an ID of its own, given out before. -/
structure Numbered (repository : Repository) : Prop where
  nodup : (repository.outbox.map OutboxEffect.id).Nodup
  given : ∀ effect ∈ repository.outbox, effect.id < repository.nextID

variable {repository : Repository}

theorem mem_enqueue {now : Instant} {key : ProjectionKey} {mutation : ProviderMutation}
    {effect : OutboxEffect} (h : effect ∈ (repository.enqueue now key mutation).outbox) :
    effect ∈ repository.outbox ∨
      (repository.refused mutation = false ∧ effect = repository.newEffect now key mutation) := by
  unfold enqueue at h
  cases hrefused : repository.refused mutation with
  | true =>
    rw [hrefused, if_pos rfl] at h
    exact .inl h
  | false =>
    rw [hrefused, if_neg (by simp)] at h
    rcases List.mem_append.1 h with h | h
    · exact .inl (List.mem_of_mem_filter h)
    · exact .inr ⟨rfl, List.mem_singleton.1 h⟩

/-- An intent that has not succeeded stays. -/
theorem mem_enqueue_of_mem {now : Instant} {key : ProjectionKey} {mutation : ProviderMutation}
    {effect : OutboxEffect} (h : effect ∈ repository.outbox) (hstate : effect.state ≠ .succeeded) :
    effect ∈ (repository.enqueue now key mutation).outbox := by
  unfold enqueue
  split
  · exact h
  · rename_i hrefused
    refine List.mem_append_left _ (List.mem_filter.2 ⟨h, ?_⟩)
    by_contra hkey
    refine hrefused (List.any_eq_true.2 ⟨effect, h, ?_⟩)
    simp only [ne_eq, decide_not, Bool.not_eq_true', decide_eq_false_iff_not, not_not] at hkey
    simp [hkey, hstate]

theorem projection_key {key : ProjectionKey} {projection : StoredProjection}
    (h : repository.projection key = some projection) : projection.key = key :=
  (find?_key h).2

theorem saveProjection_self (projection : StoredProjection) :
    (repository.saveProjection projection).projection projection.key = some projection :=
  find?_upsertRow_self

theorem saveProjection_of_ne {projection : StoredProjection} {key : ProjectionKey}
    (hkey : key ≠ projection.key) :
    (repository.saveProjection projection).projection key = repository.projection key :=
  find?_upsertRow_of_ne hkey

theorem deleteProjection_self {key : ProjectionKey} :
    (repository.deleteProjection key).projection key = none :=
  find?_delete_self

theorem deleteProjection_of_ne {key key' : ProjectionKey} (hkey : key' ≠ key) :
    (repository.deleteProjection key).projection key' = repository.projection key' :=
  find?_delete_of_ne hkey

theorem saveProjection_eq_some {projection projection' : StoredProjection} {key : ProjectionKey}
    (h : (repository.saveProjection projection).projection key = some projection') :
    (key = projection.key ∧ projection' = projection) ∨
      (key ≠ projection.key ∧ repository.projection key = some projection') := by
  by_cases hkey : key = projection.key
  · subst hkey
    rw [saveProjection_self] at h
    exact .inl ⟨rfl, (Option.some.inj h).symm⟩
  · rw [saveProjection_of_ne hkey] at h
    exact .inr ⟨hkey, h⟩

theorem deleteProjection_eq_some {projection' : StoredProjection} {key key' : ProjectionKey}
    (h : (repository.deleteProjection key).projection key' = some projection') :
    key' ≠ key ∧ repository.projection key' = some projection' := by
  by_cases hkey : key' = key
  · subst hkey
    rw [deleteProjection_self] at h
    cases h
  · rw [deleteProjection_of_ne hkey] at h
    exact ⟨hkey, h⟩

theorem enqueue_projection {now : Instant} {key key' : ProjectionKey}
    {mutation : ProviderMutation} :
    (repository.enqueue now key mutation).projection key' = repository.projection key' := by
  unfold enqueue
  split <;> rfl

theorem enqueue_notices {now : Instant} {key : ProjectionKey} {mutation : ProviderMutation} :
    (repository.enqueue now key mutation).notices = repository.notices := by
  unfold enqueue
  split <;> rfl

theorem nextID_le_write {now : Instant} {write : RepositoryWrite} :
    repository.nextID ≤ (repository.write now write).nextID := by
  cases write with
  | saveProjection projection => exact Nat.le_refl _
  | deleteProjection key => exact Nat.le_refl _
  | recordNotice notice => exact Nat.le_succ _
  | enqueue key mutation =>
    unfold Repository.write enqueue
    simp only
    split
    · exact Nat.le_refl _
    · exact Nat.le_succ _

theorem Numbered.enqueue (h : repository.Numbered) (now : Instant) (key : ProjectionKey)
    (mutation : ProviderMutation) : (repository.enqueue now key mutation).Numbered := by
  unfold Repository.enqueue
  split
  · exact h
  · constructor
    · rw [List.map_append, List.nodup_append]
      refine ⟨h.nodup.sublist ((List.filter_sublist).map _), List.nodup_singleton _, ?_⟩
      rintro a ha b hb rfl
      obtain ⟨effect, heffect, rfl⟩ := List.mem_map.1 ha
      have hgiven := h.given effect (List.mem_of_mem_filter heffect)
      rw [List.map_singleton, List.mem_singleton] at hb
      exact absurd hb (Nat.ne_of_lt hgiven)
    · intro effect heffect
      rcases List.mem_append.1 heffect with hold | hnew
      · exact Nat.lt_succ_of_lt (h.given effect (List.mem_of_mem_filter hold))
      · rw [List.mem_singleton.1 hnew]
        exact Nat.lt_succ_self _

theorem Numbered.write (h : repository.Numbered) (now : Instant) (write : RepositoryWrite) :
    (repository.write now write).Numbered := by
  cases write with
  | saveProjection projection => exact ⟨h.nodup, h.given⟩
  | deleteProjection key => exact ⟨h.nodup, h.given⟩
  | recordNotice notice =>
    exact ⟨h.nodup, fun effect heffect => Nat.lt_succ_of_lt (h.given effect heffect)⟩
  | enqueue key mutation => exact h.enqueue now key mutation

theorem Numbered.updateEffect {id : Nat} {body : OutboxEffect → OutboxEffect}
    (h : repository.Numbered) (hbody : ∀ effect, (body effect).id = effect.id) :
    (repository.updateEffect id body).Numbered := by
  constructor
  · unfold Repository.updateEffect
    rw [map_updateRow hbody]
    exact h.nodup
  · apply forall_updateRow
    · exact fun effect heffect _ => h.given effect heffect
    · intro effect heffect _
      rw [hbody]
      exact h.given effect heffect

/-- The effect stands unfinished in the outbox as it was fetched, but for the marks of the attempt
under way. -/
def Stands (repository : Repository) (effect : OutboxEffect) : Prop :=
  ∃ row ∈ repository.outbox, row.id = effect.id ∧ row.projectionKey = effect.projectionKey ∧
    row.mutation = effect.mutation ∧ row.unfinished = true

theorem Stands.updateEffect_of_ne {id : Nat} {body : OutboxEffect → OutboxEffect}
    {effect : OutboxEffect} (h : repository.Stands effect) (hid : effect.id ≠ id) :
    (repository.updateEffect id body).Stands effect := by
  obtain ⟨row, hrow, hsame, hrest⟩ := h
  exact ⟨row, mem_updateRow_of_ne hrow (hsame ▸ hid), hsame, hrest⟩

theorem Stands.markApplying {id : Nat} {effect : OutboxEffect} (h : repository.Stands effect) :
    (repository.markApplying id).Stands effect := by
  obtain ⟨row, hrow, hsame, hkey, hmutation, hunfinished⟩ := h
  by_cases hid : row.id = id
  · exact ⟨_, mem_updateRow_of_mem hrow hid, hsame, hkey, hmutation, rfl⟩
  · exact ⟨row, mem_updateRow_of_ne hrow hid, hsame, hkey, hmutation, hunfinished⟩

end Repository

namespace Session

/-- The effects that a drain has before it. -/
structure Fetched (repository : Repository) (effects : List OutboxEffect) : Prop where
  nodup : (effects.map OutboxEffect.id).Nodup
  stand : ∀ effect ∈ effects, repository.Stands effect

theorem Fetched.tail {repository : Repository} {effect : OutboxEffect} {rest : List OutboxEffect}
    (h : Fetched repository (effect :: rest)) : Fetched repository rest where
  nodup := (List.nodup_cons.1 h.nodup).2
  stand other hother := h.stand other (.tail _ hother)

/-- The others stand when the first is marked. -/
theorem Fetched.settled {repository : Repository} {effect : OutboxEffect}
    {rest : List OutboxEffect} (body : OutboxEffect → OutboxEffect)
    (h : Fetched repository (effect :: rest)) :
    Fetched (repository.updateEffect effect.id body) rest where
  nodup := h.tail.nodup
  stand other hother := by
    refine (h.tail.stand other hother).updateEffect_of_ne fun hid => ?_
    exact (List.nodup_cons.1 h.nodup).1 (hid ▸ List.mem_map_of_mem hother)

theorem Fetched.due {repository : Repository} {now : Instant} {due : List OutboxEffect}
    (hnumbered : repository.Numbered) (h : repository.DueEffects now due) (limit : Nat) :
    Fetched repository (due.take limit) where
  nodup := by
    have hperm := (h.1.map OutboxEffect.id).nodup_iff.2
      (hnumbered.nodup.sublist (List.filter_sublist.map _))
    exact hperm.sublist ((List.take_sublist _ _).map _)
  stand effect heffect := by
    have hmem := h.1.mem_iff.1 (List.mem_of_mem_take heffect)
    obtain ⟨houtbox, hdue⟩ := List.mem_filter.1 hmem
    exact ⟨effect, houtbox, rfl, rfl, rfl, (Bool.and_eq_true _ _ ▸ hdue).1⟩

/-- A drain works on unfinished effects of the outbox. -/
structure Coherent (s : Session) : Prop where
  numbered : s.repository.Numbered
  fetched : ∀ stage effects, s.activity = .draining stage effects → Fetched s.repository effects

variable {s s' : Session} {e : Event}

theorem Coherent.undrained (h : s.repository.Numbered)
    (hactivity : ∀ stage effects, s.activity ≠ .draining stage effects) : Coherent s :=
  ⟨h, fun stage effects hdrain => absurd hdrain (hactivity stage effects)⟩

theorem Coherent.drained {stage : Stage} {effects : List OutboxEffect} (h : s.repository.Numbered)
    (hactivity : s.activity = .draining stage effects) (hfetched : Fetched s.repository effects) :
    Coherent s := by
  refine ⟨h, fun stage' effects' hdrain => ?_⟩
  rw [hactivity] at hdrain
  cases hdrain
  exact hfetched

theorem Coherent.moves (h : Coherent s) (hmoves : Moves runtime s e s') : Coherent s' := by
  cases hmoves with
  | refuse => exact h
  | stop => exact .undrained h.numbered (by simp [become])
  | start => exact .undrained h.numbered (by simp [become])
  | detach => exact .undrained ⟨h.numbered.nodup, h.numbered.given⟩ (by simp)
  | reopen => exact .undrained ⟨h.numbered.nodup, h.numbered.given⟩ (by simp)
  | expire => exact .undrained ⟨h.numbered.nodup, h.numbered.given⟩ (by simp)
  | «continue» => exact .undrained (h.numbered.write _ _) (by simp [become])
  | skip => exact .undrained h.numbered (by simp [become])
  | reconcile => exact .undrained (h.numbered.write _ _) (by simp [become])
  | commit => exact .undrained ⟨h.numbered.nodup, h.numbered.given⟩ (by simp [commit])
  | fed => exact .undrained h.numbered (by simp [become])
  | restore => exact .undrained (h.numbered.write _ _) (by simp [become])
  | mark _ hnext =>
    refine .undrained ⟨h.numbered.nodup, h.numbered.given⟩ ?_
    rcases hnext with rfl | rfl <;> simp [become]
  | fetch _ hdue => exact .drained h.numbered rfl (.due h.numbered hdue 100)
  | applying hactivity =>
    have hfetched := h.fetched _ _ hactivity
    refine .drained (h.numbered.updateEffect fun _ => rfl) rfl ⟨hfetched.nodup, ?_⟩
    exact fun effect heffect => (hfetched.stand effect heffect).markApplying
  | request hactivity => exact .drained h.numbered rfl (h.fetched _ _ hactivity)
  | fail hactivity => exact .drained h.numbered rfl (h.fetched _ _ hactivity)
  | meet hactivity => exact .drained h.numbered rfl (h.fetched _ _ hactivity)
  | @finish answers stage effect rest revision continues write hactivity _ hwrite =>
    have hfetched := h.fetched _ _ hactivity
    have houtbox : (s.repository.write answers.now write).outbox = s.repository.outbox := by
      unfold OutboxEffect.finish at hwrite
      split at hwrite <;> cases hwrite <;> rfl
    refine .drained (h.numbered.write _ _) rfl ⟨?_, ?_⟩
    · cases continues
      · exact List.nodup_singleton _
      · exact hfetched.nodup
    · intro other hother
      have hmem : other ∈ effect :: rest := by
        cases continues
        · exact List.mem_singleton.1 hother ▸ .head _
        · exact hother
      obtain ⟨row, hrow, hstands⟩ := hfetched.stand other hmem
      exact ⟨row, houtbox.symm ▸ hrow, hstands⟩
  | @pass answers stage effect rest continues hactivity =>
    refine .drained h.numbered rfl ?_
    cases continues
    · exact ⟨List.nodup_nil, fun _ hnil => absurd hnil List.not_mem_nil⟩
    · exact (h.fetched _ _ hactivity).tail
  | quarantine hactivity =>
    exact .drained (h.numbered.updateEffect fun _ => rfl) rfl ((h.fetched _ _ hactivity).settled _)
  | ambiguous => exact .undrained (h.numbered.updateEffect fun _ => rfl) (by simp)
  | retry => exact .undrained (h.numbered.updateEffect fun _ => rfl) (by simp)
  | revise => exact .undrained (h.numbered.updateEffect fun _ => rfl) (by simp)
  | succeed hactivity =>
    exact .drained (h.numbered.updateEffect fun _ => rfl) rfl ((h.fetched _ _ hactivity).settled _)
  | edit => exact ⟨h.numbered, h.fetched⟩

theorem Coherent.step (h : Coherent s) : Coherent (step runtime s e) :=
  h.moves (step_moves e)

theorem Coherent.init (h : (machine runtime).Init s) : Coherent s := by
  refine .undrained ?_ (by simp [h.2])
  rw [h.1]
  exact ⟨List.nodup_nil, fun _ hnil => absurd hnil List.not_mem_nil⟩

end Session

/-! ## Where the rows of the outbox come from -/

/-- A write of a pass or of a decision. -/
inductive Intends (runtime : Runtime) (s : Session) : Event → RepositoryWrite → Prop
  | pending {answers : Answers} {endpoint : CalendarEndpoint} {write : RepositoryWrite}
      {writes : List RepositoryWrite} {pending : List (SyncPolicy × SourceEvent)}
      {feeds : List Feed} (h : s.activity = .feeding endpoint (write :: writes) pending feeds) :
    Intends runtime s (.advance answers) write
  | reconcile {answers : Answers} {endpoint : CalendarEndpoint} {policy : SyncPolicy}
      {event : SourceEvent} {pending : List (SyncPolicy × SourceEvent)} {feeds : List Feed}
      {write : RepositoryWrite} {writes : List RepositoryWrite}
      (h : s.activity = .feeding endpoint [] ((policy, event) :: pending) feeds)
      (hwrites : s.reconcile runtime answers policy event = .ok (write :: writes)) :
    Intends runtime s (.advance answers) write
  | restore {answers : Answers} {notice : StoredNotice} {projection : StoredProjection}
      {write : RepositoryWrite} (h : s.activity = .restoring notice projection)
      (hwrite : s.restoreWrite runtime answers notice projection = some write) :
    Intends runtime s (.advance answers) write

/-- The write of a pass or of a decision that a step makes. -/
def Session.intended (runtime : Runtime) (s : Session) : Event → Option RepositoryWrite
  | .advance answers =>
    match s.activity with
    | .feeding _ (write :: _) _ _ => some write
    | .feeding _ [] ((policy, event) :: _) _ =>
      match s.reconcile runtime answers policy event with
      | .ok writes => writes.head?
      | .error _ => none
    | .restoring notice projection => s.restoreWrite runtime answers notice projection
    | _ => none
  | _ => none

theorem intends_iff {s : Session} {e : Event} {write : RepositoryWrite} :
    Intends runtime s e write ↔ s.intended runtime e = some write := by
  constructor
  · intro h
    cases h with
    | pending hactivity => simp [Session.intended, hactivity]
    | reconcile hactivity hwrites => simp [Session.intended, hactivity, hwrites]
    | restore hactivity hwrite => simp [Session.intended, hactivity, hwrite]
  · intro h
    unfold Session.intended at h
    split at h
    · split at h
      · rename_i hactivity
        cases h
        exact .pending hactivity
      · rename_i hactivity
        split at h
        · rename_i writes hwrites
          cases writes with
          | nil => cases h
          | cons first writes =>
            cases h
            exact .reconcile hactivity hwrites
        · cases h
      · rename_i hactivity
        exact .restore hactivity h
      · cases h
    · cases h

theorem Intends.unique {s : Session} {e : Event} {write write' : RepositoryWrite}
    (h : Intends runtime s e write) (h' : Intends runtime s e write') : write = write' :=
  Option.some.inj ((intends_iff.1 h).symm.trans (intends_iff.1 h'))

/-- What the marks and revisions of a drain leave alone. -/
structure Continues (row row' : OutboxEffect) : Prop where
  id : row'.id = row.id
  projectionKey : row'.projectionKey = row.projectionKey
  destinationEndpoint : row'.mutation.destinationEndpoint = row.mutation.destinationEndpoint
  destinationEventID : row'.mutation.destinationEventID = row.mutation.destinationEventID
  policyID : row'.mutation.policyID = row.mutation.policyID
  desiredCopy : row'.mutation.desiredCopy = row.mutation.desiredCopy
  deletes : row'.mutation.operation = .delete ↔ row.mutation.operation = .delete

theorem Continues.place {row row' : OutboxEffect} (h : Continues row row') :
    row'.mutation.place runtime = row.mutation.place runtime := by
  unfold ProviderMutation.place
  rw [h.destinationEndpoint, h.destinationEventID]

/-- A mark keeps the intent. -/
theorem Continues.marked {row : OutboxEffect} {state : OutboxState} {attemptCount : Nat}
    {nextAttemptAt : Instant} :
    Continues row { row with state, attemptCount, nextAttemptAt } := by
  constructor <;> rfl

/-- What a verdict rests on: an effect is finished or revised by what it deletes, by what has gone, or
by an event that has been found and is owned. -/
inductive Judged (runtime : Runtime) (s : Session) (answers : Answers) (effect : OutboxEffect) :
    Verdict → Prop
  | deleted {continues : Bool} (hop : effect.mutation.operation = .delete) :
    Judged runtime s answers effect (.finish none continues)
  | found {observed : SourceEvent} {continues : Bool}
      (hread : s.existing runtime answers effect = .ok (some observed))
      (howned : effect.owns runtime observed = true) :
    Judged runtime s answers effect (.finish observed.providerRevision continues)
  | gone (hop : effect.mutation.operation ≠ .delete) :
    Judged runtime s answers effect (.revise effect.mutation.recreate)
  | changed {observed : SourceEvent}
      (hread : s.existing runtime answers effect = .ok (some observed))
      (howned : effect.owns runtime observed = true) :
    Judged runtime s answers effect
      (.revise { effect.mutation with expectedProviderRevision := observed.providerRevision })
  | quarantine : Judged runtime s answers effect .quarantine
  | ambiguous : Judged runtime s answers effect .ambiguous
  | retry (delay : Instant) : Judged runtime s answers effect (.retry delay)
  | escape : Judged runtime s answers effect .escape

section Judged

variable {s : Session} {answers : Answers} {effect : OutboxEffect} {verdict : Verdict}

theorem Judged.discover
    (h : discover runtime effect (s.existing runtime answers effect) = some (.ok verdict)) :
    Judged runtime s answers effect verdict := by
  unfold Native.discover at h
  split at h
  · split at h
    · cases h
    · cases h
    · rename_i observed hread
      cases h
      split
      · rename_i howned
        exact .found hread howned
      · exact .quarantine
  · cases h

theorem Judged.verifyApplied
    (h : verifyApplied runtime effect (s.existing runtime answers effect) = .ok verdict) :
    Judged runtime s answers effect verdict := by
  unfold Native.verifyApplied at h
  split at h
  · cases h
  · cases h
    exact .ambiguous
  · rename_i observed hread
    cases h
    split
    · rename_i howned
      exact .found hread howned
    · exact .quarantine

theorem Judged.recoverConflict (s : Session) (answers : Answers) (effect : OutboxEffect) :
    Judged runtime s answers effect
      (recoverConflict runtime effect (s.existing runtime answers effect)) := by
  unfold Native.recoverConflict
  split
  · exact .quarantine
  · exact .escape
  · split
    · rename_i hdelete
      exact .deleted hdelete
    · rename_i hop
      exact .gone hop
  · rename_i observed hread
    split
    · exact .quarantine
    · rename_i howned
      rw [Bool.not_eq_true, Bool.not_eq_false'] at howned
      split
      · exact .found hread howned
      · exact .changed hread howned

theorem Judged.caught (s : Session) (answers : Answers) (effect : OutboxEffect)
    (error : ProviderError) :
    Judged runtime s answers effect
      (caught runtime effect (s.existing runtime answers effect) error) := by
  unfold Native.caught
  split
  · exact .ambiguous
  · exact .quarantine
  · exact .recoverConflict s answers effect
  · split
    · rename_i hdelete
      exact .deleted hdelete
    · rename_i hop
      exact .gone (by simp [hop])
    · exact .retry _
  all_goals exact .retry _

theorem verdict_judged {stage : Stage}
    (h : s.verdict runtime answers effect stage = some (.ok verdict)) :
    Judged runtime s answers effect verdict := by
  unfold Session.verdict at h
  split at h
  · exact .discover h
  · split at h
    · rename_i hdelete
      cases h
      exact .deleted hdelete
    · exact .verifyApplied (Option.some.inj h)
  · cases h
    exact .caught s answers effect _
  all_goals cases h

/-- A revision makes a create of the intent, or takes over the revision of an event that has been
found and is owned. -/
theorem verdict_revise {stage : Stage} {mutation : ProviderMutation}
    (h : s.verdict runtime answers effect stage = some (.ok (.revise mutation))) :
    (effect.mutation.operation ≠ .delete ∧ mutation = effect.mutation.recreate) ∨
      ∃ observed, s.existing runtime answers effect = .ok (some observed) ∧
        effect.owns runtime observed = true ∧
        mutation =
          { effect.mutation with expectedProviderRevision := observed.providerRevision } := by
  cases verdict_judged h with
  | gone hop => exact .inl ⟨hop, rfl⟩
  | changed hread howned => exact .inr ⟨_, hread, howned, rfl⟩

/-- An effect that is taken for done is a deletion, or its event has been found and is owned. -/
theorem verdict_finish {stage : Stage} {providerRevision : Option String} {continues : Bool}
    (h : s.verdict runtime answers effect stage =
      some (.ok (.finish providerRevision continues))) :
    effect.mutation.operation = .delete ∨
      ∃ observed, s.existing runtime answers effect = .ok (some observed) ∧
        effect.owns runtime observed = true ∧ providerRevision = observed.providerRevision := by
  cases verdict_judged h with
  | deleted hop => exact .inl hop
  | found hread howned => exact .inr ⟨_, hread, howned, rfl⟩

end Judged

/-- A revision keeps what the intent is about. -/
theorem Continues.revised {s : Session} {answers : Answers} {effect row : OutboxEffect}
    {stage : Stage} {mutation : ProviderMutation}
    (h : s.verdict runtime answers effect stage = some (.ok (.revise mutation)))
    (hrow : row.mutation = effect.mutation) (date : Instant) :
    Continues row { row with mutation, state := .pending, nextAttemptAt := date } := by
  rcases verdict_revise h with ⟨hop, rfl⟩ | ⟨observed, -, -, rfl⟩
  · constructor <;> simp [ProviderMutation.recreate, hrow, hop]
  · constructor <;> simp [hrow]

namespace Session

variable {s s' : Session} {e : Event}

/-- Where a row of the outbox comes from: it was there, it has been enqueued, or it marks the effect
that a drain is at. -/
inductive RowFrom (runtime : Runtime) (s : Session) (e : Event) (row' : OutboxEffect) : Prop
  | old (h : row' ∈ s.repository.outbox)
  | new (now : Instant) (key : ProjectionKey) (mutation : ProviderMutation)
      (hintends : Intends runtime s e (.enqueue key mutation))
      (h : row' = s.repository.newEffect now key mutation)
  | marked (stage : Stage) (effect row : OutboxEffect) (rest : List OutboxEffect)
      (hactivity : s.activity = .draining stage (effect :: rest))
      (hrow : row ∈ s.repository.outbox) (hunfinished : row.unfinished = true)
      (hid : row.id = effect.id) (h : Continues row row')
      (hmutation : row'.mutation = row.mutation ∨ ∃ answers, e = .advance answers ∧
        s.verdict runtime answers effect stage = some (.ok (.revise row'.mutation)))

theorem RowFrom.write {now : Instant} {write : RepositoryWrite} {row' : OutboxEffect}
    (hintends : Intends runtime s e write)
    (h : row' ∈ (s.repository.write now write).outbox) : RowFrom runtime s e row' := by
  cases write with
  | saveProjection projection => exact .old h
  | deleteProjection key => exact .old h
  | recordNotice notice => exact .old h
  | enqueue key mutation =>
    rcases Repository.mem_enqueue h with h | ⟨-, h⟩
    · exact .old h
    · exact .new now key mutation hintends h

/-- The row of the first effect of a drain. -/
theorem Coherent.row {stage : Stage} {effect row : OutboxEffect} {rest : List OutboxEffect}
    (h : Coherent s) (hactivity : s.activity = .draining stage (effect :: rest))
    (hrow : row ∈ s.repository.outbox) (hid : row.id = effect.id) :
    row.mutation = effect.mutation ∧ row.projectionKey = effect.projectionKey ∧
      row.unfinished = true := by
  obtain ⟨row', hrow', hid', hkey, hmutation, hunfinished⟩ :=
    (h.fetched _ _ hactivity).stand effect (.head _)
  have hsame := List.inj_on_of_nodup_map h.numbered.nodup hrow hrow' (hid.trans hid'.symm)
  subst hsame
  exact ⟨hmutation, hkey, hunfinished⟩

theorem RowFrom.updated {stage : Stage} {effect row' : OutboxEffect} {rest : List OutboxEffect}
    {body : OutboxEffect → OutboxEffect} (h : Coherent s)
    (hactivity : s.activity = .draining stage (effect :: rest))
    (hbody : ∀ row, row.mutation = effect.mutation → Continues row (body row) ∧
      ((body row).mutation = row.mutation ∨ ∃ answers, e = .advance answers ∧
        s.verdict runtime answers effect stage = some (.ok (.revise (body row).mutation))))
    (hrow' : row' ∈ (s.repository.updateEffect effect.id body).outbox) :
    RowFrom runtime s e row' := by
  rcases mem_updateRow hrow' with ⟨row, hrow, hid, rfl⟩ | ⟨hrow, -⟩
  · obtain ⟨hmutation, -, hunfinished⟩ := h.row hactivity hrow hid
    obtain ⟨hcontinues, hrevised⟩ := hbody row hmutation
    exact .marked stage effect row rest hactivity hrow hunfinished hid hcontinues hrevised
  · exact .old hrow

theorem Coherent.rowFrom {row' : OutboxEffect} (h : Coherent s) (hmoves : Moves runtime s e s')
    (hrow' : row' ∈ s'.repository.outbox) : RowFrom runtime s e row' := by
  cases hmoves with
  | «continue» hactivity => exact .write (.pending hactivity) hrow'
  | reconcile hactivity hwrites => exact .write (.reconcile hactivity hwrites) hrow'
  | restore hactivity hwrite => exact .write (.restore hactivity hwrite) hrow'
  | applying hactivity =>
    refine .updated h hactivity (fun _ _ => ?_) hrow'
    exact ⟨.marked, .inl rfl⟩
  | quarantine hactivity =>
    refine .updated h hactivity (fun _ _ => ?_) hrow'
    exact ⟨.marked, .inl rfl⟩
  | ambiguous hactivity =>
    refine .updated h hactivity (fun _ _ => ?_) hrow'
    exact ⟨.marked, .inl rfl⟩
  | retry date hactivity =>
    refine .updated h hactivity (fun _ _ => ?_) hrow'
    exact ⟨.marked, .inl rfl⟩
  | revise hactivity hverdict =>
    refine .updated h hactivity (fun row hrow => ?_) hrow'
    exact ⟨.revised hverdict hrow _, .inr ⟨_, rfl, hverdict⟩⟩
  | succeed hactivity =>
    refine .updated h hactivity (fun _ _ => ?_) hrow'
    exact ⟨.marked, .inl rfl⟩
  | @finish answers stage effect rest revision continues write hactivity _ hwrite =>
    refine .old ?_
    unfold OutboxEffect.finish at hwrite
    split at hwrite <;> cases hwrite <;> exact hrow'
  | _ => exact .old hrow'

end Session

/-! ## Where the projections come from -/

/-- `resolveNotice` is called for the projection. -/
def Resolves (s : Session) (e : Event) (key : ProjectionKey) : Prop :=
  ∃ id action, e = .resolveNotice id action ∧
    ∃ notice ∈ s.repository.notices, notice.id = id ∧ notice.notice.projectionKey = key

instance (s : Session) (e : Event) (key : ProjectionKey) : Decidable (Resolves s e key) :=
  match e with
  | .resolveNotice id action =>
    decidable_of_iff
      (∃ notice ∈ s.repository.notices, notice.id = id ∧ notice.notice.projectionKey = key)
      ⟨fun h => ⟨id, action, rfl, h⟩, fun ⟨_, _, hevent, h⟩ => by cases hevent; exact h⟩
  | .runOnce _ | .advance _ | .abort | .edit _ _ => isFalse (by simp [Resolves])

namespace Session

/-- A write that a reconciliation may leave to a later step. -/
def Deferred (s : Session) (write : RepositoryWrite) : Prop :=
  (∃ notice, write = .recordNotice notice) ∨
    ∃ key mutation, write = .enqueue key mutation ∧
      (s.repository.projection key).all (·.live) = true

/-- What is under way is about projections that are neither held nor detached. -/
structure Tidy (s : Session) : Prop where
  coherent : s.Coherent
  deferred : ∀ endpoint writes pending feeds,
    s.activity = .feeding endpoint writes pending feeds → ∀ write ∈ writes, s.Deferred write
  restoring : ∀ notice projection, s.activity = .restoring notice projection →
    s.repository.projection notice.notice.projectionKey = some projection ∧ projection.live = true

/-- Where a stored projection comes from. -/
inductive ProjectionFrom (runtime : Runtime) (s : Session) (e : Event) (key : ProjectionKey)
    (projection' : StoredProjection) : Prop
  | old (h : s.repository.projection key = some projection')
  | held (projection : StoredProjection) (hold : DestinationEditHold)
      (hold_ : s.repository.projection key = some projection) (hlive : projection.live = true)
      (h : projection' = { projection with hold := some hold })
      (hintends : Intends runtime s e (.saveProjection projection'))
  | resolved (projection : StoredProjection) (detached : Bool)
      (hold_ : s.repository.projection key = some projection) (hheld : projection.hold.isSome = true)
      (h : projection' = { projection with hold := none, detached })
      (hresolves : Resolves s e key)
  | finished (answers : Answers) (stage : Stage) (effect : OutboxEffect)
      (rest : List OutboxEffect) (providerRevision : Option String) (continues : Bool)
      (hevent : e = .advance answers) (hactivity : s.activity = .draining stage (effect :: rest))
      (hverdict : s.verdict runtime answers effect stage =
        some (.ok (.finish providerRevision continues)))
      (hkey : key = effect.projectionKey)
      (h : effect.finish providerRevision = some (.saveProjection projection'))

variable {s s' : Session} {e : Event} {key : ProjectionKey} {projection' : StoredProjection}

theorem ProjectionFrom.reconciled {answers : Answers} {policy : SyncPolicy} {event : SourceEvent}
    {write : RepositoryWrite} {writes : List RepositoryWrite}
    (hintends : Intends runtime s e write)
    (hwrites : s.reconcile runtime answers policy event = .ok (write :: writes))
    (hnew : (s.repository.write answers.now write).projection key = some projection') :
    ProjectionFrom runtime s e key projection' := by
  generalize hresult : write :: writes = result at hwrites
  cases reconcile_reconciled hwrites with
  | nothing => cases hresult
  | @hold projection hold kind desired hstored hlive =>
    cases hresult
    rcases Repository.saveProjection_eq_some hnew with ⟨rfl, rfl⟩ | ⟨-, hold_⟩
    · exact .held projection hold (Repository.projection_key hstored ▸ hstored) hlive rfl hintends
    · exact .old hold_
  | gone =>
    cases hresult
    exact .old (Repository.deleteProjection_eq_some hnew).2
  | delete =>
    cases hresult
    exact .old (Repository.enqueue_projection ▸ hnew)
  | create _ _ hnotice =>
    rcases hnotice with rfl | ⟨notice, rfl⟩
    · cases hresult
      exact .old (Repository.enqueue_projection ▸ hnew)
    · cases hresult
      exact .old hnew
  | update _ _ _ _ hnotice =>
    rcases hnotice with rfl | ⟨notice, rfl⟩
    · cases hresult
      exact .old (Repository.enqueue_projection ▸ hnew)
    · cases hresult
      exact .old hnew

theorem Tidy.projectionFrom (h : Tidy s) (hmoves : Moves runtime s e s')
    (hnew : s'.repository.projection key = some projection') :
    ProjectionFrom runtime s e key projection' := by
  cases hmoves with
  | @detach id notice projection hactivity hnotice hid hprojection hhold =>
    rcases Repository.saveProjection_eq_some hnew with ⟨rfl, rfl⟩ | ⟨-, hold_⟩
    · have hkey := Repository.projection_key hprojection
      refine .resolved projection true (hkey ▸ hprojection) hhold rfl ?_
      exact ⟨id, _, rfl, notice, hnotice, hid, hkey.symm⟩
    · exact .old hold_
  | @reopen id notice projection hactivity hnotice hid hprojection hhold hattached =>
    rcases Repository.saveProjection_eq_some hnew with ⟨rfl, rfl⟩ | ⟨-, hold_⟩
    · have hkey := Repository.projection_key hprojection
      refine .resolved projection projection.detached (hkey ▸ hprojection) hhold rfl ?_
      exact ⟨id, _, rfl, notice, hnotice, hid, hkey.symm⟩
    · exact .old hold_
  | @«continue» answers endpoint write writes pending feeds hactivity =>
    rcases h.deferred _ _ _ _ hactivity write (.head _) with
      ⟨notice, rfl⟩ | ⟨key, mutation, rfl, -⟩
    · exact .old hnew
    · exact .old (Repository.enqueue_projection ▸ hnew)
  | reconcile hactivity hwrites =>
    exact .reconciled (.reconcile hactivity hwrites) hwrites hnew
  | restore hactivity hwrite =>
    obtain ⟨policy, hrestored⟩ := restoreWrite_restored hwrite
    cases hrestored with
    | gone => exact .old (Repository.deleteProjection_eq_some hnew).2
    | create => exact .old (Repository.enqueue_projection ▸ hnew)
    | update => exact .old (Repository.enqueue_projection ▸ hnew)
    | delete => exact .old (Repository.enqueue_projection ▸ hnew)
  | @finish answers stage effect rest revision continues write hactivity hverdict hwrite =>
    rcases OutboxEffect.finish_eq_some hwrite with ⟨-, rfl⟩ | ⟨desired, -, -, rfl⟩
    · exact .old (Repository.deleteProjection_eq_some hnew).2
    · rcases Repository.saveProjection_eq_some hnew with ⟨hkey, rfl⟩ | ⟨-, hold_⟩
      · exact .finished answers stage effect rest revision continues rfl hactivity hverdict hkey
          hwrite
      · exact .old hold_
  | _ => exact .old hnew

/-- What a reconciliation leaves to later steps. -/
theorem Tidy.deferred_reconcile {answers : Answers} {policy : SyncPolicy} {event : SourceEvent}
    {write : RepositoryWrite} {writes : List RepositoryWrite}
    (hwrites : s.reconcile runtime answers policy event = .ok (write :: writes))
    {activity : Activity} :
    ∀ later ∈ writes, ((s.write answers.now write).become activity).Deferred later := by
  generalize hresult : write :: writes = result at hwrites
  cases reconcile_reconciled hwrites with
  | nothing => cases hresult
  | hold hold kind desired =>
    cases hresult
    intro later hlater
    exact .inl ⟨_, List.mem_singleton.1 hlater⟩
  | gone => cases hresult; simp
  | delete => cases hresult; simp
  | create _ hlive hnotice =>
    rcases hnotice with rfl | ⟨notice, rfl⟩
    · cases hresult
      simp
    · cases hresult
      intro later hlater
      exact .inr ⟨_, _, List.mem_singleton.1 hlater, hlive⟩
  | @update _ projection _ _ hstored hlive _ _ hnotice =>
    rcases hnotice with rfl | ⟨notice, rfl⟩
    · cases hresult
      simp
    · cases hresult
      intro later hlater
      refine .inr ⟨_, _, List.mem_singleton.1 hlater, ?_⟩
      have hsame : (s.repository.recordNotice notice).projection
          ⟨policy.id, event.id, event.occurrenceID⟩ = some projection := hstored
      simp only [write, become, Repository.write]
      rw [hsame]
      exact hlive

/-- Where nothing is under way besides a drain. -/
theorem Tidy.settled (hcoherent : s.Coherent)
    (hfeeding : ∀ endpoint write writes pending feeds,
      s.activity ≠ .feeding endpoint (write :: writes) pending feeds)
    (hrestoring : ∀ notice projection, s.activity ≠ .restoring notice projection) : Tidy s := by
  refine ⟨hcoherent, ?_, fun notice projection h => absurd h (hrestoring _ _)⟩
  intro endpoint writes pending feeds hactivity write hwrite
  cases writes with
  | nil => cases hwrite
  | cons first writes => exact absurd hactivity (hfeeding _ _ _ _ _)

theorem Tidy.moves (h : Tidy s) (hmoves : Moves runtime s e s') : Tidy s' := by
  have hcoherent := h.coherent.moves hmoves
  cases hmoves with
  | refuse => exact h
  | @reopen id notice projection hactivity _ _ hprojection hhold hattached =>
    refine ⟨hcoherent, by simp, ?_⟩
    rintro notice' projection' hrestoring
    cases hrestoring
    refine ⟨?_, by simp [StoredProjection.live, hattached]⟩
    rw [← Repository.projection_key hprojection]
    exact Repository.saveProjection_self _
  | @«continue» answers endpoint write writes pending feeds hactivity =>
    refine ⟨hcoherent, ?_, by simp [become]⟩
    intro endpoint' writes' pending' feeds' hactivity' later hlater
    cases hactivity'
    have hfirst := h.deferred _ _ _ _ hactivity write (.head _)
    have hsame : ∀ key, (s.repository.write answers.now write).projection key =
        s.repository.projection key := by
      rcases hfirst with ⟨notice, rfl⟩ | ⟨key, mutation, rfl, -⟩
      · exact fun _ => rfl
      · exact fun _ => Repository.enqueue_projection
    rcases h.deferred _ _ _ _ hactivity later (.tail _ hlater) with
      hnotice | ⟨key, mutation, hwrite, hlive⟩
    · exact .inl hnotice
    · refine .inr ⟨key, mutation, hwrite, ?_⟩
      simp only [become, Session.write, hsame]
      exact hlive
  | @reconcile answers endpoint policy event pending feeds write writes hactivity hwrites =>
    refine ⟨hcoherent, ?_, by simp [become]⟩
    intro endpoint' writes' pending' feeds' hactivity'
    cases hactivity'
    exact Tidy.deferred_reconcile hwrites
  | mark _ hnext =>
    refine .settled hcoherent ?_ ?_
    · rcases hnext with rfl | rfl <;> simp [become]
    · rcases hnext with rfl | rfl <;> simp [become]
  | edit => exact ⟨hcoherent, h.deferred, h.restoring⟩
  | _ => exact .settled hcoherent (by simp [become, commit, request]) (by simp [become, commit, request])

theorem Tidy.step (h : Tidy s) : Tidy (step runtime s e) :=
  h.moves (step_moves e)

theorem Tidy.init (h : (machine runtime).Init s) : Tidy s :=
  .settled (.init h) (by simp [h.2]) (by simp [h.2])

/-- The projection that a write is about. -/
def about : RepositoryWrite → Option ProjectionKey
  | .saveProjection projection => some projection.key
  | .deleteProjection key => some key
  | .recordNotice _ => none
  | .enqueue key _ => some key

/-- Passes and decisions write about projections that are neither held nor detached. -/
theorem Tidy.intends_live (h : Tidy s) {write : RepositoryWrite} {key : ProjectionKey}
    (hintends : Intends runtime s e write) (habout : about write = some key) :
    (s.repository.projection key).all (·.live) = true := by
  cases hintends with
  | pending hactivity =>
    rcases h.deferred _ _ _ _ hactivity write (.head _) with
      ⟨notice, rfl⟩ | ⟨key', mutation, rfl, hlive⟩
    · cases habout
    · cases habout
      exact hlive
  | @reconcile answers endpoint policy event pending feeds _ writes hactivity hwrites =>
    generalize hresult : write :: writes = result at hwrites
    cases reconcile_reconciled hwrites with
    | nothing => cases hresult
    | hold hold kind desired hstored hlive =>
      cases hresult
      have hstoredKey := Repository.projection_key hstored
      have hkey := (Option.some.inj habout).symm.trans hstoredKey
      rw [hkey, hstored]
      exact hlive
    | gone hstored hlive =>
      cases hresult
      cases habout
      rw [hstored]
      exact hlive
    | delete hstored hlive =>
      cases hresult
      cases habout
      rw [hstored]
      exact hlive
    | create _ hlive hnotice =>
      rcases hnotice with rfl | ⟨notice, rfl⟩
      · cases hresult
        cases habout
        exact hlive
      · cases hresult
        cases habout
    | update hstored hlive _ _ hnotice =>
      rcases hnotice with rfl | ⟨notice, rfl⟩
      · cases hresult
        cases habout
        rw [hstored]
        exact hlive
      · cases hresult
        cases habout
  | @restore answers notice projection _ hactivity hrestore =>
    obtain ⟨hstored, hlive⟩ := h.restoring _ _ hactivity
    obtain ⟨policy, hrestored⟩ := restoreWrite_restored hrestore
    have hkey : key = notice.notice.projectionKey := by
      cases hrestored <;> cases habout <;> rfl
    rw [hkey, hstored]
    exact hlive

end Session

/-! ## What a step leaves alone -/

namespace Repository

variable {repository : Repository} {now : Instant} {write : RepositoryWrite}

theorem write_stored : (repository.write now write).stored = repository.stored := by
  cases write with
  | enqueue key mutation =>
    unfold Repository.write enqueue
    simp only
    split <;> rfl
  | _ => rfl

/-- A write leaves the other projections alone. -/
theorem write_projection_of_ne {key : ProjectionKey} (h : Session.about write ≠ some key) :
    (repository.write now write).projection key = repository.projection key := by
  cases write with
  | saveProjection projection =>
    exact saveProjection_of_ne fun hkey => h (congrArg some hkey.symm)
  | deleteProjection deleted =>
    exact deleteProjection_of_ne fun hkey => h (congrArg some hkey.symm)
  | recordNotice notice => rfl
  | enqueue key mutation => exact enqueue_projection

/-- A write keeps the effects that have not succeeded. -/
theorem mem_write_of_mem {effect : OutboxEffect} (h : effect ∈ repository.outbox)
    (hstate : effect.state ≠ .succeeded) : effect ∈ (repository.write now write).outbox := by
  cases write with
  | enqueue key mutation => exact mem_enqueue_of_mem h hstate
  | _ => exact h

end Repository

namespace Session

variable {s s' : Session} {e : Event}

/-- Only a commit changes what is stored. -/
theorem stored_moves (h : Moves runtime s e s') : s'.repository.stored = s.repository.stored ∨
    ∃ answers endpoint feed feeds, e = .advance answers ∧
      s.activity = .feeding endpoint [] [] (feed :: feeds) ∧
      s' = s.commit runtime answers feed feeds := by
  cases h with
  | commit hactivity => exact .inr ⟨_, _, _, _, rfl, hactivity, rfl⟩
  | «continue» => exact .inl Repository.write_stored
  | reconcile => exact .inl Repository.write_stored
  | restore => exact .inl Repository.write_stored
  | finish => exact .inl Repository.write_stored
  | _ => exact .inl rfl

/-- An effect that has not succeeded stays in the outbox until a drain marks it. -/
theorem Coherent.stays {row : OutboxEffect} (h : Coherent s) (hmoves : Moves runtime s e s')
    (hrow : row ∈ s.repository.outbox) (hstate : row.state ≠ .succeeded) :
    (∃ row' ∈ s'.repository.outbox, Continues row row' ∧ row'.state ≠ .succeeded) ∨
      ∃ effect rest, s.activity = .draining .succeed (effect :: rest) ∧ row.id = effect.id := by
  have hmarked : ∀ {stage effect rest} {body : OutboxEffect → OutboxEffect},
      s.activity = .draining stage (effect :: rest) →
      (row.mutation = effect.mutation → Continues row (body row) ∧ (body row).state ≠ .succeeded) →
      ∃ row' ∈ (s.repository.updateEffect effect.id body).outbox,
        Continues row row' ∧ row'.state ≠ .succeeded := by
    intro stage effect rest body hactivity hbody
    by_cases hid : row.id = effect.id
    · obtain ⟨hmutation, -, -⟩ := h.row hactivity hrow hid
      exact ⟨_, mem_updateRow_of_mem hrow hid, hbody hmutation⟩
    · exact ⟨row, mem_updateRow_of_ne hrow hid, .marked, hstate⟩
  cases hmoves with
  | «continue» => exact .inl ⟨row, Repository.mem_write_of_mem hrow hstate, .marked, hstate⟩
  | reconcile => exact .inl ⟨row, Repository.mem_write_of_mem hrow hstate, .marked, hstate⟩
  | restore => exact .inl ⟨row, Repository.mem_write_of_mem hrow hstate, .marked, hstate⟩
  | finish => exact .inl ⟨row, Repository.mem_write_of_mem hrow hstate, .marked, hstate⟩
  | applying hactivity => exact .inl (hmarked hactivity fun _ => ⟨.marked, by simp⟩)
  | quarantine hactivity => exact .inl (hmarked hactivity fun _ => ⟨.marked, by simp⟩)
  | ambiguous hactivity => exact .inl (hmarked hactivity fun _ => ⟨.marked, by simp⟩)
  | retry date hactivity => exact .inl (hmarked hactivity fun _ => ⟨.marked, by simp⟩)
  | revise hactivity hverdict =>
    exact .inl (hmarked hactivity fun hrow => ⟨.revised hverdict hrow _, by simp⟩)
  | @succeed answers effect rest hactivity =>
    by_cases hid : row.id = effect.id
    · exact .inr ⟨effect, rest, hactivity, hid⟩
    · exact .inl ⟨row, mem_updateRow_of_ne hrow hid, .marked, hstate⟩
  | _ => exact .inl ⟨row, hrow, .marked, hstate⟩

end Session

/-! ## What becomes of an effect -/

namespace Session

section Effects

variable (runtime : Runtime) (s : Session)

/-- The effect whose request the provider performs in a step. -/
def performed : Event → Option OutboxEffect
  | .advance answers =>
    match s.activity with
    | .draining .apply (effect :: _) =>
      match apply runtime effect.mutation answers.revision s.calendars with
      | .ok _ => if answers.failure.isNone || answers.performed then some effect else none
      | .error _ => none
    | _ => none
  | _ => none

/-- The effect that a drain takes for done in a step. -/
def completed : Event → Option OutboxEffect
  | .advance answers =>
    match s.activity with
    | .draining stage (effect :: _) =>
      match s.verdict runtime answers effect stage with
      | some (.ok (.finish _ _)) => some effect
      | _ => none
    | _ => none
  | _ => none

end Effects

variable {s : Session} {e : Event} {effect : OutboxEffect}

theorem performed_eq_some (h : s.performed runtime e = some effect) :
    ∃ answers rest calendars, e = .advance answers ∧
      s.activity = .draining .apply (effect :: rest) ∧
      apply runtime effect.mutation answers.revision s.calendars = .ok calendars := by
  unfold performed at h
  split at h
  · split at h
    · rename_i hactivity
      split at h
      · rename_i happly
        split at h
        · cases h
          exact ⟨_, _, _, rfl, hactivity, happly⟩
        · cases h
      · cases h
    · cases h
  · cases h

theorem completed_eq_some (h : s.completed runtime e = some effect) :
    ∃ answers stage rest revision continues, e = .advance answers ∧
      s.activity = .draining stage (effect :: rest) ∧
      s.verdict runtime answers effect stage = some (.ok (.finish revision continues)) := by
  unfold completed at h
  split at h
  · split at h
    · rename_i hactivity
      split at h
      · rename_i hverdict
        cases h
        exact ⟨_, _, _, _, _, rfl, hactivity, hverdict⟩
      · cases h
    · cases h
  · cases h

end Session

/-! ## Runs of an example -/

section Example

open DeletedCopies (exampleRuntime meetingEvent)

/-- A new installation beside empty calendars. -/
def newSession : Session where
  repository := {}
  calendars _ := []
  activity := .idle

theorem newSession_init : (Session.machine exampleRuntime).Init newSession := ⟨rfl, rfl⟩

/-- The meeting of the example under another time and revision. -/
def meetingUntil (finish : Instant) (revision : String) : SourceEvent :=
  { meetingEvent with finish, providerRevision := some revision }

/-- A pass that stages events, reconciles some and drains the effects of `due`. -/
def passAt (now : Instant) (policy : SyncPolicy) (staged : List SourceEvent)
    (reconciliations : Nat) (due : List Nat) (drain : List Answers) : List Event :=
  let here : Answers := { now }
  let answers : List Answers :=
    [{ here with staged, nextSyncToken := some "token", fullEnd := 86400000 }] ++
      List.replicate reconciliations here ++ [here, { here with due }] ++ drain
  .runOnce [policy] :: answers.map .advance

/-- The attempt of an effect that is performed, and the end of the drain. -/
def performedAt (now : Instant) (revision : String) : List Answers :=
  let here : Answers := { now }
  [here, { here with revision }, here, here, here]

/-- The meeting is copied. -/
def copyMeeting (policy : SyncPolicy) : List Event :=
  passAt 0 policy [meetingUntil 7200000 "s1"] 1 [0] (performedAt 0 "r1")

/-- The attempt of an effect whose request is not performed. -/
def failedAt (now : Instant) (error : ProviderError) : List Answers :=
  let here : Answers := { now }
  [here, { here with failure := some error }, here]

end Example

end Planipus.Native

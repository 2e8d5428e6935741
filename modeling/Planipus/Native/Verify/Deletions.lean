import Planipus.Native.Verify.Session

/-!
# Deletions of source events

The commit takes an event out of the store and advances the cursor; what becomes of its copy is
settled by the reconciliation of the tombstone, later in the pass. A copy is covered while it has
no projection, while its deletion is queued, while the event is stored, and while the tombstone is
ahead in the pass. As nothing else keeps the tombstone, a copy that is covered by the pass alone is
forgotten when the pass ends before it comes there.
-/

namespace Planipus.Native.Deletions

open CalendarSync Library

/-- The event that a projection is a copy of. -/
def isSource (key : ProjectionKey) (event : SourceEvent) : Bool :=
  event.id = key.sourceEventID && event.occurrenceID = key.sourceOccurrenceID

/-- A reconciliation for the projection. -/
def isTask (key : ProjectionKey) (task : SyncPolicy × SourceEvent) : Bool :=
  task.1.id = key.policyID && isSource key task.2

/-- The pass comes to a tombstone of the event. -/
def awaits (key : ProjectionKey) : Activity → Bool
  | .feeding _ _ pending _ => (pending.find? (isTask key)).any fun task => task.2.isDeleted
  | _ => false

section Deletions

variable (runtime : Runtime) (source : CalendarEndpoint) (key : ProjectionKey) (s : Session)

/-- The event is stored. -/
def Observed : Prop := ∃ event ∈ s.repository.stored source, isSource key event = true

/-- A deletion of the copy is in the outbox and has not succeeded. -/
def Queued : Prop :=
  ∃ effect ∈ s.repository.outbox, effect.projectionKey = key ∧
    effect.mutation.operation = .delete ∧ effect.state ≠ .succeeded

/-- The copy is not forgotten. -/
def Covered : Prop :=
  s.repository.projection key = none ∨ Queued key s ∨ Observed source key s ∨
    awaits key s.activity = true

/-- Nothing but the pass under way covers the copy. -/
def Exposed : Prop :=
  (s.repository.projection key).isSome = true ∧ ¬ Queued key s ∧ ¬ Observed source key s

instance : Decidable (Observed source key s) :=
  inferInstanceAs (Decidable (∃ event ∈ s.repository.stored source, _))

instance : Decidable (Queued key s) :=
  inferInstanceAs (Decidable (∃ effect ∈ s.repository.outbox, _))

instance : Decidable (Covered source key s) :=
  inferInstanceAs (Decidable (_ ∨ _ ∨ _ ∨ _))

instance : Decidable (Exposed source key s) :=
  inferInstanceAs (Decidable (_ ∧ ¬ _ ∧ ¬ _))

/-- The observation is removed, with a projection that is neither held nor detached. -/
def Removes (e : Event) : Prop :=
  Observed source key s ∧ ¬ Observed source key (Session.step runtime s e) ∧
    (s.repository.projection key).any (·.live) = true

instance (e : Event) : Decidable (Removes runtime source key s e) :=
  inferInstanceAs (Decidable (_ ∧ ¬ _ ∧ _))

end Deletions

variable {runtime : Runtime} {source : CalendarEndpoint} {key : ProjectionKey} {s s' : Session}
  {e : Event}

/-! ## What a commit leaves of an event -/

section Commit

variable (env : Platform) (key : ProjectionKey)

/-- The event has the observation key that the event of the projection has. -/
def sharesKey (event : SourceEvent) : Bool :=
  Policy.sameText env (key.sourceEventID ++ "\u001f" ++ occurrenceKey key.sourceOccurrenceID)
    (observationKey event)

/-- The events that a commit takes up, in their order: those of the window, then the batch. -/
def taken (inWindow : Option (SourceEvent → Bool)) (staged stored : List SourceEvent) :
    List SourceEvent :=
  (inWindow.elim [] fun inWindow => stored.filter inWindow) ++ staged

/-- Of what a commit takes up under the observation key of the event, the event comes last. -/
def comesLast (events : List SourceEvent) : Bool :=
  (events.filter (sharesKey env key)).getLast?.any (isSource key)

variable {env key} {commit : Commit} {event : SourceEvent} {seen : List SourceEvent}

theorem observationKey_of_isSource (h : isSource key event = true) :
    observationKey event =
      key.sourceEventID ++ "\u001f" ++ occurrenceKey key.sourceOccurrenceID := by
  simp only [isSource, Bool.and_eq_true, decide_eq_true_eq] at h
  rw [observationKey, h.1, h.2]

theorem isSource_iff_of_sameObservation {left right : SourceEvent}
    (h : sameObservation left right = true) : isSource key left = isSource key right := by
  simp only [sameObservation, Bool.and_eq_true, decide_eq_true_eq] at h
  rw [isSource, isSource, h.1, h.2]

/-- What is left of the event when `seen` has been taken up: it is stored, or its tombstone is
there unless something came later under its observation key. -/
def Traced (env : Platform) (key : ProjectionKey) (seen : List SourceEvent) (commit : Commit) :
    Prop :=
  (∃ event ∈ commit.stored, isSource key event = true) ∨
    (comesLast env key seen = true → ∃ tombstone ∈ commit.removed, isSource key tombstone = true)

/-- `==` on the keys of `removedByKey`. -/
def sameKey (env : Platform) (left right : SourceEvent) : Bool :=
  Policy.sameText env (observationKey left) (observationKey right)

theorem comesLast_concat (h : sharesKey env key event = false) :
    comesLast env key (seen ++ [event]) = comesLast env key seen := by
  simp [comesLast, List.filter_append, h]

/-- A tombstone of the event stays where another observation key is taken up. -/
theorem exists_removed_of_other {other : SourceEvent} {removed : List SourceEvent}
    (hother : sharesKey env key other = false)
    (h : ∃ tombstone ∈ removed, isSource key tombstone = true) :
    ∃ tombstone ∈ removed.filter fun tombstone => !sameKey env other tombstone,
      isSource key tombstone = true := by
  obtain ⟨tombstone, hmem, hsource⟩ := h
  refine ⟨tombstone, List.mem_filter.2 ⟨hmem, ?_⟩, hsource⟩
  rw [sharesKey, ← observationKey_of_isSource hsource, Policy.sameText, decide_eq_false_iff_not]
    at hother
  simp only [sameKey, Policy.sameText, Bool.not_eq_true', decide_eq_false_iff_not]
  exact fun h => hother h.symm

/-- One more event under the observation key, or under another. -/
theorem comesLast_concat_cases (hnot : isSource key event = false)
    (h : comesLast env key (seen ++ [event]) = true) :
    sharesKey env key event = false ∧ comesLast env key seen = true := by
  cases hshares : sharesKey env key event with
  | false => exact ⟨rfl, comesLast_concat hshares ▸ h⟩
  | true => simp [comesLast, List.filter_append, hshares, hnot] at h

theorem Traced.bury {tombstone : SourceEvent}
    (h : isSource key event = false → Traced env key seen commit)
    (hsame : sameObservation event tombstone = true) :
    Traced env key (seen ++ [event]) (commit.bury (sameKey env) tombstone) := by
  have hsource : isSource key event = isSource key tombstone :=
    isSource_iff_of_sameObservation hsame
  cases hevent : isSource key event with
  | true =>
    refine .inr fun _ => ⟨_, List.mem_append_right _ (.head _), ?_⟩
    rw [hsource] at hevent
    exact hevent
  | false =>
    rcases h hevent with hstored | hremoved
    · exact .inl hstored
    · refine .inr fun hlast => ?_
      obtain ⟨hshares, hseen⟩ := comesLast_concat_cases hevent hlast
      have hkey : observationKey event = observationKey tombstone := by
        simp only [sameObservation, Bool.and_eq_true, decide_eq_true_eq] at hsame
        rw [observationKey, observationKey, hsame.1, hsame.2]
      rw [sharesKey, hkey] at hshares
      obtain ⟨kept, hkept, hkeptSource⟩ := exists_removed_of_other hshares (hremoved hseen)
      exact ⟨kept, List.mem_append_left _ hkept, hkeptSource⟩

/-- Another row stays in the store. -/
theorem exists_stored_of_other {stored : List SourceEvent} (hevent : isSource key event = false)
    (h : ∃ other ∈ stored, isSource key other = true) :
    ∃ other ∈ stored.filter fun other => !sameObservation event other,
      isSource key other = true := by
  obtain ⟨other, hmem, hsource⟩ := h
  refine ⟨other, List.mem_filter.2 ⟨hmem, ?_⟩, hsource⟩
  cases hsame : sameObservation event other with
  | false => rfl
  | true =>
    rw [isSource_iff_of_sameObservation hsame, hsource] at hevent
    cases hevent

theorem sameObservation_existing :
    sameObservation event ((commit.stored.find? (sameObservation event)).getD event) = true := by
  cases hfound : commit.stored.find? (sameObservation event) with
  | none => simp [sameObservation]
  | some existing => exact List.find?_some hfound

theorem Traced.stage (h : Traced env key seen commit) :
    Traced env key (seen ++ [event]) (commit.stage sameObservation (sameKey env) event) := by
  unfold Commit.stage
  cases hdeleted : event.isDeleted with
  | true =>
    refine .bury (fun hevent => ?_) sameObservation_existing
    exact h.imp_left (exists_stored_of_other hevent)
  | false =>
    cases hevent : isSource key event with
    | true => exact .inl ⟨event, List.mem_append_right _ (.head _), hevent⟩
    | false =>
      rcases h with hstored | hremoved
      · obtain ⟨other, hother, hsource⟩ := exists_stored_of_other hevent hstored
        exact .inl ⟨other, List.mem_append_left _ hother, hsource⟩
      · refine .inr fun hlast => ?_
        obtain ⟨hshares, hseen⟩ := comesLast_concat_cases hevent hlast
        exact exists_removed_of_other hshares (hremoved hseen)

theorem Traced.foldl {step : Commit → SourceEvent → Commit}
    (hstep : ∀ {seen commit event}, Traced env key seen commit →
      Traced env key (seen ++ [event]) (step commit event))
    (events : List SourceEvent) (h : Traced env key seen commit) :
    Traced env key (seen ++ events) (events.foldl step commit) := by
  induction events generalizing seen commit with
  | nil => simpa using h
  | cons event events ih =>
    have hnext : Traced env key (seen ++ [event]) (step commit event) := hstep h
    have hrest := ih hnext
    rwa [List.append_assoc] at hrest

/-- **What a commit leaves of an event** that comes last under its observation key. -/
theorem traced_run (inWindow : Option (SourceEvent → Bool)) (staged stored : List SourceEvent) :
    Traced env key (taken inWindow staged stored)
      (Commit.run sameObservation (sameKey env) inWindow staged stored) := by
  have hnothing : ∀ commit, Traced env key [] commit := by
    intro commit
    refine .inr fun hlast => ?_
    simp [comesLast] at hlast
  refine .foldl .stage _ ?_
  cases inWindow with
  | none => exact hnothing _
  | some inWindow =>
    refine .foldl (fun h => .bury (fun _ => h) ?_) _ (hnothing _)
    simp [sameObservation]

/-- What a commit returns is deleted. -/
theorem isDeleted_of_removed (inWindow : Option (SourceEvent → Bool))
    (staged stored : List SourceEvent) :
    ∀ tombstone ∈ (Commit.run sameObservation (sameKey env) inWindow staged stored).removed,
      tombstone.isDeleted = true := by
  have hbury : ∀ (commit : Commit) tombstone,
      (∀ other ∈ commit.removed, other.isDeleted = true) →
        ∀ other ∈ (commit.bury (sameKey env) tombstone).removed, other.isDeleted = true := by
    intro commit tombstone h other hother
    rcases List.mem_append.1 hother with hold | hnew
    · exact h other (List.mem_of_mem_filter hold)
    · rw [List.mem_singleton.1 hnew]
  refine List.foldlRecOn (motive := fun (commit : Commit) => ∀ other ∈ commit.removed, other.isDeleted = true)
    _ _ ?_ fun commit h event _ => ?_
  · cases inWindow with
    | none => exact fun _ hnone => nomatch hnone
    | some inWindow =>
      refine List.foldlRecOn
        (motive := fun (commit : Commit) => ∀ other ∈ commit.removed, other.isDeleted = true) _ _ ?_ ?_
      · exact fun _ hnone => nomatch hnone
      · exact fun commit h event _ => hbury commit event h
  · unfold Commit.stage
    cases event.isDeleted with
    | true => exact hbury _ _ h
    | false => exact fun other hother => h other (List.mem_of_mem_filter hother)

end Commit

/-! ## The condition -/

/-- The reconciliation that a step makes. -/
def reconciling (s : Session) : Event → Option (Answers × SyncPolicy × SourceEvent)
  | .advance answers =>
    match s.activity with
    | .feeding _ [] ((policy, event) :: _) _ => some (answers, policy, event)
    | _ => none
  | _ => none

/-- The commit that a step makes, if any. -/
def committing (s : Session) : Event → Option (Answers × Feed)
  | .advance answers =>
    match s.activity with
    | .feeding _ [] [] (feed :: _) => some (answers, feed)
    | _ => none
  | _ => none

def aborts : Event → Bool
  | .abort => true
  | _ => false

/-- The window of the traversal that is committed. -/
def window (s : Session) (answers : Answers) (endpoint : CalendarEndpoint) :
    Option (SourceEvent → Bool) :=
  match s.repository.syncToken endpoint with
  | none => (ChangeBatchMode.full answers.fullStart answers.fullEnd).window
  | some _ => ChangeBatchMode.incremental.window

/-- No effect that has not succeeded has the idempotency key of the intent. -/
def unrefused (s : Session) : List RepositoryWrite → Bool
  | .enqueue _ mutation :: _ => !s.repository.refused mutation
  | _ => true

section Condition

variable (runtime : Runtime) (source : CalendarEndpoint) (key : ProjectionKey) (s : Session)

/-- The policy has its copies elsewhere now, or its evaluation of the tombstone is to delete. -/
def deletes (policy : SyncPolicy) (event : SourceEvent) (projection : StoredProjection) : Bool :=
  otherEndpoint runtime projection.destinationEndpoint policy.destinationEndpoint ||
    (evaluate runtime.env runtime.formatters.dateText runtime.services event policy true).action =
      .delete

/-- The reconciliation does not throw, and that of the tombstone deletes the copy. -/
def passes (answers : Answers) (policy : SyncPolicy) (event : SourceEvent) : Bool :=
  match s.reconcile runtime answers policy event with
  | .error _ => false
  | .ok writes => !isTask key (policy, event) ||
      ((s.repository.projection key).all (deletes runtime policy event) && unrefused s writes)

/-- A commit that removes the event has its policy in the pass, nothing later under the same
observation key, and a projection that is neither held nor detached. -/
def CommitKept (answers : Answers) (feed : Feed) : Prop :=
  Observed source key s → ¬ Observed source key (s.commit runtime answers feed []) →
    ¬ Queued key s → ∀ projection ∈ s.repository.projection key,
      projection.live = true ∧ (∃ policy ∈ feed.policies, policy.id = key.policyID) ∧
        comesLast runtime.env key
          (taken (window s answers feed.endpoint) answers.staged
            (s.repository.stored feed.endpoint)) = true

instance (answers : Answers) (feed : Feed) : Decidable (CommitKept runtime source key s answers feed) :=
  inferInstanceAs (Decidable (_ → ¬ _ → ¬ _ → ∀ projection ∈ s.repository.projection key, _))

/-- No create or update of the copy is done once the copy is gone and the event forgotten. -/
def CompletionKept (effect : OutboxEffect) : Prop :=
  effect.projectionKey = key → effect.mutation.operation ≠ .delete →
    (s.repository.projection key).isSome = true ∨ Queued key s ∨ Observed source key s

instance (effect : OutboxEffect) : Decidable (CompletionKept source key s effect) :=
  inferInstanceAs (Decidable (_ → _ ≠ _ → _ ∨ _ ∨ _))

/-- A step that forgets no deletion: a pass that covers the copy goes on. -/
structure Kept (e : Event) : Prop where
  stays : Exposed source key s → aborts e = false
  reconciles : Exposed source key s → ∀ task ∈ reconciling s e,
    passes runtime key s task.1 task.2.1 task.2.2 = true
  commits : ∀ batch ∈ committing s e, CommitKept runtime source key s batch.1 batch.2
  completes : ∀ effect ∈ s.completed runtime e, CompletionKept source key s effect

instance (e : Event) : Decidable (Kept runtime source key s e) :=
  decidable_of_iff
    ((Exposed source key s → aborts e = false) ∧
      (Exposed source key s → ∀ task ∈ reconciling s e,
        passes runtime key s task.1 task.2.1 task.2.2 = true) ∧
      (∀ batch ∈ committing s e, CommitKept runtime source key s batch.1 batch.2) ∧
      ∀ effect ∈ s.completed runtime e, CompletionKept source key s effect)
    ⟨fun ⟨h₁, h₂, h₃, h₄⟩ => ⟨h₁, h₂, h₃, h₄⟩, fun ⟨h₁, h₂, h₃, h₄⟩ => ⟨h₁, h₂, h₃, h₄⟩⟩

end Condition

/-! ## The steps of a pass -/

/-- The projection of a deletion that has been made is gone. -/
structure Settled (s : Session) : Prop where
  tidy : s.Tidy
  gone : ∀ effect rest, s.activity = .draining .succeed (effect :: rest) →
    effect.mutation.operation = .delete → s.repository.projection effect.projectionKey = none

theorem Settled.init (h : (Session.machine runtime).Init s) : Settled s :=
  ⟨.init h, by simp [h.2]⟩

theorem Settled.moves (h : Settled s) (hmoves : Moves runtime s e s') : Settled s' := by
  refine ⟨h.tidy.moves hmoves, ?_⟩
  cases hmoves with
  | refuse => exact h.gone
  | edit => exact h.gone
  | @finish answers stage effect rest revision continues write hactivity _ hwrite =>
    intro effect' rest' hactivity' hdelete
    cases hactivity'
    rcases OutboxEffect.finish_eq_some hwrite with ⟨-, rfl⟩ | ⟨desired, hop, -, -⟩
    · exact Repository.deleteProjection_self
    · exact absurd hdelete hop
  | mark _ hnext => rcases hnext with rfl | rfl <;> simp [Session.become]
  | _ => simp [Session.become, Session.commit, Session.request]

theorem Settled.step (h : Settled s) : Settled (Session.step runtime s e) :=
  h.moves (Session.step_moves e)

/-- A projection comes only from a create or an update that is done. -/
theorem none_moves (h : s.Tidy) (hmoves : Moves runtime s e s')
    (hnone : s.repository.projection key = none) :
    s'.repository.projection key = none ∨
      ∃ effect, s.completed runtime e = some effect ∧ effect.projectionKey = key ∧
        effect.mutation.operation ≠ .delete := by
  cases hnew : s'.repository.projection key with
  | none => exact .inl rfl
  | some projection' =>
    refine .inr ?_
    cases h.projectionFrom hmoves hnew with
    | old hold_ =>
      rw [hnone] at hold_
      cases hold_
    | held projection hold hold_ =>
      rw [hnone] at hold_
      cases hold_
    | resolved projection detached hold_ =>
      rw [hnone] at hold_
      cases hold_
    | finished answers stage effect rest revision continues hevent hactivity hverdict hkey hfinish =>
      refine ⟨effect, ?_, hkey.symm, ?_⟩
      · subst hevent
        simp only [Session.completed, hactivity, hverdict]
      · rcases OutboxEffect.finish_eq_some hfinish with ⟨-, hdelete⟩ | ⟨desired, hop, -, -⟩
        · cases hdelete
        · exact hop

/-- A deletion stays queued until the projection is gone. -/
theorem Queued.moves (h : Queued key s) (hsettled : Settled s) (hmoves : Moves runtime s e s') :
    Queued key s' ∨ s'.repository.projection key = none := by
  obtain ⟨row, hrow, hkey, hdelete, hstate⟩ := h
  rcases hsettled.tidy.coherent.stays hmoves hrow hstate with
    ⟨row', hrow', hcontinues, hstate'⟩ | ⟨effect, rest, hactivity, hid⟩
  · exact .inl ⟨row', hrow', hcontinues.projectionKey.trans hkey, hcontinues.deletes.2 hdelete,
      hstate'⟩
  · obtain ⟨hmutation, hrowKey, -⟩ := hsettled.tidy.coherent.row hactivity hrow hid
    have hgone := hsettled.gone effect rest hactivity (hmutation ▸ hdelete)
    rw [← hrowKey, hkey] at hgone
    rcases none_moves hsettled.tidy hmoves hgone with hnone | ⟨effect', hcompleted, -⟩
    · exact .inr hnone
    · -- At this stage nothing is completed any more.
      obtain ⟨answers, stage, rest', revision, continues, -, hactivity', hverdict⟩ :=
        Session.completed_eq_some hcompleted
      rw [hactivity] at hactivity'
      cases hactivity'
      cases hverdict

/-- What a reconciliation writes is about its own projection. -/
theorem about_reconcile {answers : Answers} {policy : SyncPolicy} {event : SourceEvent}
    {writes : List RepositoryWrite} (h : s.reconcile runtime answers policy event = .ok writes) :
    ∀ write ∈ writes, ∀ other, Session.about write = some other →
      other = ⟨policy.id, event.id, event.occurrenceID⟩ := by
  have hnotice : ∀ {notices : List RepositoryWrite} {write : RepositoryWrite} {other},
      AtMostNotice notices → write ∈ notices → Session.about write = some other → False := by
    rintro notices write other (rfl | ⟨notice, rfl⟩) hwrite habout
    · cases hwrite
    · rw [List.mem_singleton.1 hwrite] at habout
      cases habout
  intro write hwrite other habout
  cases reconcile_reconciled h with
  | nothing => cases hwrite
  | hold hold kind desired hstored =>
    rcases List.mem_cons.1 hwrite with rfl | hwrite
    · cases habout
      have hkey := Repository.projection_key hstored
      exact hkey
    · rw [List.mem_singleton.1 hwrite] at habout
      cases habout
  | gone =>
    rw [List.mem_singleton.1 hwrite] at habout
    exact (Option.some.inj habout).symm
  | delete =>
    rw [List.mem_singleton.1 hwrite] at habout
    exact (Option.some.inj habout).symm
  | create _ _ hnotices =>
    rcases List.mem_append.1 hwrite with hwrite | hwrite
    · exact (hnotice hnotices hwrite habout).elim
    · rw [List.mem_singleton.1 hwrite] at habout
      exact (Option.some.inj habout).symm
  | update _ _ _ _ hnotices =>
    rcases List.mem_append.1 hwrite with hwrite | hwrite
    · exact (hnotice hnotices hwrite habout).elim
    · rw [List.mem_singleton.1 hwrite] at habout
      exact (Option.some.inj habout).symm

theorem key_of_isTask {policy : SyncPolicy} {event : SourceEvent}
    (h : isTask key (policy, event) = true) :
    (⟨policy.id, event.id, event.occurrenceID⟩ : ProjectionKey) = key := by
  simp only [isTask, isSource, Bool.and_eq_true, decide_eq_true_eq] at h
  rw [h.1, h.2.1, h.2.2]

theorem enqueueOwnedDeletion_ok {policy : SyncPolicy} {event : SourceEvent}
    {projection : StoredProjection} {reply : Google.HTTPResponse} {writes : List RepositoryWrite}
    (h : enqueueOwnedDeletion runtime event policy key projection reply = .ok writes) :
    writes = [.deleteProjection key] ∨
      ∃ mutation, writes = [.enqueue key mutation] ∧ mutation.operation = .delete := by
  unfold enqueueOwnedDeletion at h
  cases hread : verifiedDestination runtime projection policy.id reply with
  | error error =>
    rw [hread] at h
    cases h
  | ok observed =>
    rw [hread] at h
    cases observed with
    | none =>
      cases h
      exact .inl rfl
    | some observed =>
      cases h
      exact .inr ⟨_, rfl, rfl⟩

/-- The reconciliation of a tombstone deletes the projection or enqueues the deletion. -/
theorem reconcile_tombstone {answers : Answers} {policy : SyncPolicy} {event : SourceEvent}
    {writes : List RepositoryWrite} {projection : StoredProjection}
    (h : s.reconcile runtime answers policy event = .ok writes)
    (htask : isTask key (policy, event) = true)
    (hprojection : s.repository.projection key = some projection) (hlive : projection.live = true)
    (hdeletes : deletes runtime policy event projection = true) :
    writes = [.deleteProjection key] ∨
      ∃ mutation, writes = [.enqueue key mutation] ∧ mutation.operation = .delete := by
  have hkey := key_of_isTask htask
  unfold Session.reconcile Native.reconcile at h
  simp only [hkey, hprojection, Option.any_some] at h
  simp only [StoredProjection.live, Bool.not_eq_true'] at hlive
  rw [hlive, if_neg (by simp)] at h
  cases hother : otherEndpoint runtime projection.destinationEndpoint policy.destinationEndpoint with
  | true =>
    simp only [Option.filter_some, hother, if_true] at h
    exact enqueueOwnedDeletion_ok h
  | false =>
    simp only [deletes, hother, Bool.false_or, decide_eq_true_eq] at hdeletes
    simp only [Option.filter_some, hother, Option.isSome_some, hdeletes, Bool.false_eq_true,
      if_false] at h
    exact enqueueOwnedDeletion_ok h

/-! ## Runs -/

/-- The copy is covered, and by the pass alone only where its projection is neither held nor
detached. -/
structure Known (source : CalendarEndpoint) (key : ProjectionKey) (s : Session) : Prop where
  settled : Settled s
  covered : Covered source key s
  live : Exposed source key s → (s.repository.projection key).all (·.live) = true

/-- The pass still comes to the tombstone. -/
theorem Known.awaiting (hsettled : Settled s') (hawaits : awaits key s'.activity = true)
    (hsame : s'.repository.projection key = s.repository.projection key)
    (hlive : (s.repository.projection key).all (·.live) = true) : Known source key s' :=
  ⟨hsettled, .inr (.inr (.inr hawaits)), fun _ => hsame ▸ hlive⟩

/-- The copy is covered by more than the pass. -/
theorem Known.secured (hsettled : Settled s')
    (h : s'.repository.projection key = none ∨ Queued key s' ∨ Observed source key s') :
    Known source key s' := by
  refine ⟨hsettled, ?_, ?_⟩
  · rcases h with hnone | hqueued | hobserved
    · exact .inl hnone
    · exact .inr (.inl hqueued)
    · exact .inr (.inr (.inl hobserved))
  · rintro ⟨hsome, hnotQueued, hnotObserved⟩
    rcases h with hnone | hqueued | hobserved
    · rw [hnone] at hsome
      cases hsome
    · exact absurd hqueued hnotQueued
    · exact absurd hobserved hnotObserved

/-- A write of a pass that leaves the projection alone. -/
theorem deferred_projection {write : RepositoryWrite} (h : s.Deferred write) (now : Instant) :
    (s.repository.write now write).projection key = s.repository.projection key := by
  rcases h with ⟨notice, rfl⟩ | ⟨key', mutation, rfl, -⟩
  · rfl
  · exact Repository.enqueue_projection

/-- A deletion that is enqueued now. -/
theorem queued_enqueue {mutation : ProviderMutation} {now : Instant}
    (hop : mutation.operation = .delete) (hunrefused : s.repository.refused mutation = false) :
    Queued key (s.write now (.enqueue key mutation)) := by
  refine ⟨s.repository.newEffect now key mutation, ?_, rfl, hop, by simp [Repository.newEffect]⟩
  simp [Session.write, Repository.write, Repository.enqueue, hunrefused]

theorem Known.by_pass (h : Known source key s) (hexposed : Exposed source key s) :
    awaits key s.activity = true := by
  obtain ⟨hsome, hnotQueued, hnotObserved⟩ := hexposed
  rcases h.covered with hnone | hqueued | hobserved | hawaits
  · rw [hnone] at hsome
    cases hsome
  · exact absurd hqueued hnotQueued
  · exact absurd hobserved hnotObserved
  · exact hawaits

/-- A step of the pass that alone covers the copy. -/
theorem Known.feed (h : Known source key s) (hexposed : Exposed source key s)
    {answers : Answers} {endpoint : CalendarEndpoint} {writes : List RepositoryWrite}
    {pending : List (SyncPolicy × SourceEvent)} {feeds : List Feed}
    (hactivity : s.activity = .feeding endpoint writes pending feeds)
    (hkept : Kept runtime source key s (.advance answers)) :
    Known source key (Session.step runtime s (.advance answers)) := by
  have hsettled : Settled (Session.step runtime s (.advance answers)) := h.settled.step
  have hstep : Session.step runtime s (.advance answers) =
      s.feed runtime answers endpoint writes pending feeds := by
    simp only [Session.step, Session.advance, hactivity]
  rw [hstep] at hsettled ⊢
  have hlive := h.live hexposed
  have hawaits := h.by_pass hexposed
  rw [hactivity] at hawaits
  cases writes with
  | cons write writes =>
    have hdeferred := h.settled.tidy.deferred _ _ _ _ hactivity write (.head _)
    exact .awaiting hsettled hawaits (deferred_projection hdeferred _) hlive
  | nil =>
    cases pending with
    | nil => cases hawaits
    | cons task pending =>
      obtain ⟨policy, event⟩ := task
      have hpasses := hkept.reconciles hexposed (answers, policy, event) (by
        simp [reconciling, hactivity])
      simp only [passes] at hpasses
      simp only [Session.feed] at hsettled ⊢
      cases hwrites : s.reconcile runtime answers policy event with
      | error error =>
        rw [hwrites] at hpasses
        cases hpasses
      | ok writes =>
        simp only [hwrites, Bool.or_eq_true, Bool.not_eq_true', Bool.and_eq_true] at hpasses
        cases htask : isTask key (policy, event) with
        | false =>
          have hrest : awaits key (.feeding endpoint [] pending feeds) = true := by
            simpa [awaits, List.find?_cons, htask] using hawaits
          cases writes with
          | nil =>
            rw [hwrites] at hsettled
            exact .awaiting hsettled hrest rfl hlive
          | cons write later =>
            rw [hwrites] at hsettled
            refine .awaiting hsettled hrest (Repository.write_projection_of_ne fun habout => ?_) hlive
            have hkey := about_reconcile hwrites write (.head _) key habout
            rw [hkey] at htask
            simp [isTask, isSource] at htask
        | true =>
          rcases hpasses with hfalse | ⟨hdeletes, hunrefused⟩
          · rw [htask] at hfalse
            cases hfalse
          · obtain ⟨projection, hprojection⟩ := Option.isSome_iff_exists.1 hexposed.1
            rw [hprojection, Option.all_some] at hlive hdeletes
            rcases reconcile_tombstone hwrites htask hprojection hlive hdeletes with
              rfl | ⟨mutation, rfl, hop⟩
            · rw [hwrites] at hsettled
              exact .secured hsettled (.inl Repository.deleteProjection_self)
            · rw [hwrites] at hsettled
              simp only [unrefused, Bool.not_eq_true'] at hunrefused
              exact .secured hsettled (.inr (.inl (queued_enqueue hop hunrefused)))

/-- Any step where the pass alone covers the copy. -/
theorem Known.exposed_step (h : Known source key s) (hexposed : Exposed source key s)
    (hkept : Kept runtime source key s e) : Known source key (Session.step runtime s e) := by
  have hawaits : awaits key s.activity = true := h.by_pass hexposed
  cases hactivity : s.activity with
  | feeding endpoint writes pending feeds =>
    cases e with
    | runOnce policies =>
      simp only [Session.step, hactivity]
      exact h
    | resolveNotice id action =>
      simp only [Session.step, hactivity]
      exact h
    | advance answers => exact h.feed hexposed hactivity hkept
    | abort => cases hkept.stays hexposed
    | edit place version => exact .awaiting h.settled.step hawaits rfl (h.live hexposed)
  | _ =>
    rw [hactivity] at hawaits
    cases hawaits

/-- The reconciliations of a pass come to a tombstone first where the event is not stored. -/
theorem find?_isTask {policies : List SyncPolicy} {observations tombstones : List SourceEvent}
    (hpolicy : ∃ policy ∈ policies, policy.id = key.policyID)
    (hobservations : ∀ event ∈ observations, isSource key event = false)
    (htombstone : ∃ tombstone ∈ tombstones, isSource key tombstone = true)
    (hdeleted : ∀ tombstone ∈ tombstones, tombstone.isDeleted = true) :
    (((policies.flatMap fun policy =>
        (observations ++ tombstones).map fun event => (policy, event)).find? (isTask key)).any
      fun task => task.2.isDeleted) = true := by
  obtain ⟨policy, hpolicy, hid⟩ := hpolicy
  obtain ⟨tombstone, htombstone, hsource⟩ := htombstone
  have hfound : ((policies.flatMap fun policy =>
      (observations ++ tombstones).map fun event => (policy, event)).find? (isTask key)).isSome := by
    refine List.find?_isSome.2 ⟨(policy, tombstone), ?_, by simp [isTask, hid, hsource]⟩
    refine List.mem_flatMap.2 ⟨policy, hpolicy, List.mem_map_of_mem ?_⟩
    exact List.mem_append_right _ htombstone
  obtain ⟨task, htask⟩ := Option.isSome_iff_exists.1 hfound
  rw [htask, Option.any_some]
  obtain ⟨policy', -, hmem⟩ := List.mem_flatMap.1 (List.mem_of_find?_eq_some htask)
  obtain ⟨event, hevent, rfl⟩ := List.mem_map.1 hmem
  have hisTask := List.find?_some htask
  rcases List.mem_append.1 hevent with hstored | hremoved
  · simp [isTask, hobservations event hstored] at hisTask
  · exact hdeleted event hremoved

/-- What `syncFeed` commits. -/
def committed (runtime : Runtime) (s : Session) (answers : Answers) (feed : Feed) : Commit :=
  Commit.run sameObservation (sameKey runtime.env) (window s answers feed.endpoint) answers.staged
    (s.repository.stored feed.endpoint)

theorem commit_stored {answers : Answers} {feed : Feed} {feeds : List Feed} :
    (s.commit runtime answers feed feeds).repository.stored =
      Function.update s.repository.stored feed.endpoint (committed runtime s answers feed).stored := by
  unfold committed window
  cases htoken : s.repository.syncToken feed.endpoint <;>
    simp only [Session.commit, Repository.commit, htoken] <;> rfl

/-- The reconciliations that follow a commit. -/
theorem commit_pending (runtime : Runtime) (s : Session) (answers : Answers) (feed : Feed)
    (feeds : List Feed) :
    ∃ observations tombstones : List SourceEvent,
      (s.commit runtime answers feed feeds).activity =
        .feeding feed.endpoint [] (feed.policies.flatMap fun policy =>
          (observations ++ tombstones).map fun event => (policy, event)) feeds ∧
        observations.Perm (committed runtime s answers feed).stored ∧
        tombstones.Perm (committed runtime s answers feed).removed := by
  unfold committed window
  cases htoken : s.repository.syncToken feed.endpoint with
  | none =>
    simp only [Session.commit, Repository.commit, htoken]
    refine ⟨_, _, rfl, ?_, List.mergeSort_perm _ _⟩
    simp only [Repository.observations, Function.update_self]
    exact List.mergeSort_perm _ _
  | some token =>
    simp only [Session.commit, Repository.commit, htoken]
    refine ⟨_, _, rfl, ?_, List.mergeSort_perm _ _⟩
    simp only [Repository.observations, Function.update_self]
    exact List.mergeSort_perm _ _

/-- The commit of a batch. -/
theorem Known.commit {answers : Answers} {feed : Feed} {feeds : List Feed}
    (hobserved : Observed source key s) (hkept : CommitKept runtime source key s answers feed)
    (hsettled : Settled (s.commit runtime answers feed feeds)) :
    Known source key (s.commit runtime answers feed feeds) := by
  by_cases hobserved' : Observed source key (s.commit runtime answers feed feeds)
  · exact .secured hsettled (.inr (.inr hobserved'))
  by_cases hqueued : Queued key s
  · exact .secured hsettled (.inr (.inl hqueued))
  cases hprojection : s.repository.projection key with
  | none => exact .secured hsettled (.inl hprojection)
  | some projection =>
    obtain ⟨hlive, hpolicy, hlast⟩ := hkept hobserved hobserved' hqueued projection hprojection
    unfold Observed at hobserved hobserved'
    rw [commit_stored] at hobserved'
    have hendpoint : source = feed.endpoint := by
      by_contra hother
      rw [Function.update_of_ne hother] at hobserved'
      exact hobserved' hobserved
    rw [hendpoint, Function.update_self] at hobserved'
    -- The event has left the store, so its tombstone is among those that are returned.
    have htombstone : ∃ tombstone ∈ (committed runtime s answers feed).removed,
        isSource key tombstone = true := by
      have htraced : Traced runtime.env key
          (taken (window s answers feed.endpoint) answers.staged (s.repository.stored feed.endpoint))
          (committed runtime s answers feed) := traced_run _ _ _
      rcases htraced with hstored | hremoved
      · exact absurd hstored hobserved'
      · exact hremoved hlast
    obtain ⟨observations, tombstones, hactivity, hobservations, htombstones⟩ :=
      commit_pending runtime s answers feed feeds
    refine .awaiting (s := s) hsettled ?_ rfl (by simpa [hprojection] using hlive)
    rw [hactivity]
    refine find?_isTask hpolicy ?_ ?_ ?_
    · intro event hevent
      by_contra hsource
      exact hobserved' ⟨event, hobservations.mem_iff.1 hevent, by simpa using hsource⟩
    · obtain ⟨tombstone, hmem, hsource⟩ := htombstone
      exact ⟨tombstone, htombstones.mem_iff.2 hmem, hsource⟩
    · intro tombstone hmem
      exact isDeleted_of_removed _ _ _ tombstone (htombstones.mem_iff.1 hmem)

theorem Known.step (h : Known source key s) (hkept : Kept runtime source key s e) :
    Known source key (Session.step runtime s e) := by
  have hsettled : Settled (Session.step runtime s e) := h.settled.step
  by_cases hexposed : Exposed source key s
  · exact h.exposed_step hexposed hkept
  · have hmoves : Moves runtime s e _ := Session.step_moves e
    by_cases hobserved : Observed source key s
    · rcases Session.stored_moves hmoves with
        hsame | ⟨answers, endpoint, feed, feeds, rfl, hactivity, hcommit⟩
      · obtain ⟨event, hevent, hsource⟩ := hobserved
        exact .secured hsettled (.inr (.inr ⟨event, hsame ▸ hevent, hsource⟩))
      · have hcommitKept := hkept.commits (answers, feed) (by simp [committing, hactivity])
        rw [hcommit] at hsettled ⊢
        exact .commit hobserved hcommitKept hsettled
    · by_cases hqueued : Queued key s
      · rcases hqueued.moves h.settled hmoves with hqueued | hnone
        · exact .secured hsettled (.inr (.inl hqueued))
        · exact .secured hsettled (.inl hnone)
      · have hnone : s.repository.projection key = none := by
          by_contra hsome
          exact hexposed ⟨Option.isSome_iff_ne_none.2 hsome, hqueued, hobserved⟩
        rcases none_moves h.settled.tidy hmoves hnone with hnone' | ⟨effect, hcompleted, hkey, hop⟩
        · exact .secured hsettled (.inl hnone')
        · rcases hkept.completes effect hcompleted hkey hop with hsome | hqueued' | hobserved'
          · rw [hnone] at hsome
            cases hsome
          · exact absurd hqueued' hqueued
          · exact absurd hobserved' hobserved

/-- **Deletions of source events are not lost**: from the removal of an observation on, in a run in
which the passes that alone cover the copy go on to the tombstone and delete, the copy has no
projection, its deletion is queued, the event is stored again, or the pass comes to it. -/
theorem deletions_covered {t u : Session}
    (ht : (Session.machine runtime).Reachable (fun _ _ => True) t)
    (hremoves : Removes runtime source key t e) (hkept : Kept runtime source key t e)
    (h : (Session.machine runtime).Leads (Kept runtime source key) (Session.step runtime t e) u) :
    Covered source key u := by
  have hsettled : Settled t := ht.invariant (fun _ => .init) fun _ _ h _ => h.step
  have hknown : Known source key t := .secured hsettled (.inr (.inr hremoves.1))
  exact (h.invariant (hknown.step hkept) fun _ _ => Known.step).covered

section Example

open DeletedCopies (exampleRuntime)
open LoopFreedom (allTimesPolicy)

/-- The meeting is deleted at the source. -/
def deletedMeeting : SourceEvent :=
  { meetingUntil 7200000 "s2" with isDeleted := true }

/-- The copy of the meeting. -/
def meetingKey : ProjectionKey := ⟨"policy", "event", none⟩

/-- Before the commit of a pass that brings the deletion. -/
def beforeDeletion : List Event :=
  copyMeeting allTimesPolicy ++ [.runOnce [allTimesPolicy]]

/-- The commit of that pass. -/
def commitDeletion : Event :=
  .advance { now := 60000, staged := [deletedMeeting], nextSyncToken := some "token" }

theorem deletions_covered_drain :
    Covered allTimesPolicy.sourceEndpoint meetingKey
      ((Session.machine exampleRuntime).run
        (Session.step exampleRuntime ((Session.machine exampleRuntime).run newSession beforeDeletion)
          commitDeletion)
        ((passAt 60000 allTimesPolicy [] 1 [1] (performedAt 60000 "r2")).drop 2)) := by
  refine deletions_covered (e := commitDeletion)
    ⟨newSession, newSession_init, Machine.leads_run_free beforeDeletion _⟩ ?_ ?_
    (Machine.leads_run _ _ ?_)
  · decide +kernel
  · decide +kernel
  · decide +kernel

/-- The pass ends after the commit, and those that follow do not hear of the deletion again. -/
theorem deletion_forgotten : ∃ t e u,
    (Session.machine exampleRuntime).Reachable (fun _ _ => True) t ∧
      Removes exampleRuntime allTimesPolicy.sourceEndpoint meetingKey t e ∧
      (Session.machine exampleRuntime).Leads (fun _ _ => True) (Session.step exampleRuntime t e) u ∧
      ¬ Covered allTimesPolicy.sourceEndpoint meetingKey u := by
  refine ⟨(Session.machine exampleRuntime).run newSession beforeDeletion, commitDeletion,
    (Session.machine exampleRuntime).run _
      (.abort :: passAt 120000 allTimesPolicy [] 0 [] [{ now := 120000 }]),
    ⟨newSession, newSession_init, Machine.leads_run_free _ _⟩, ?_, Machine.leads_run_free _ _, ?_⟩
  · decide +kernel
  · decide +kernel

end Example

end Planipus.Native.Deletions

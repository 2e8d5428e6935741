import Planipus.Native.Verify.Session

/-!
# Holds and detachment

`reconcile` leaves a projection alone that is held or detached; the drain does not look. So an
effect that was queued before the hold is applied during it, and `finish` then writes the projection
anew without its flags. A hold or a detachment is respected as long as nothing unfinished is left
for the projection or its copy when the hold is saved, and no other projection with the same copy
asks for a write.
-/

namespace Planipus.Native.Holds

open Library

section Holds

variable (runtime : Runtime)

/-- The step leaves the projections that are held or detached, and their copies, except for the one
that `resolveNotice` is called for. -/
def Respects (s : Session) (e : Event) : Prop :=
  ∀ key projection, s.repository.projection key = some projection → projection.live = false →
    ¬ Resolves s e key →
      (Session.step runtime s e).repository.projection key = some projection ∧
        ∀ effect, s.performed runtime e = some effect →
          effect.mutation.place runtime ≠ projection.place runtime

/-- A hold finds nothing unfinished for the projection or its copy, and what is enqueued is not for
the copy of a projection that is held or detached. -/
def Admissible (s : Session) : RepositoryWrite → Prop
  | .saveProjection projection =>
    ∀ effect ∈ s.repository.outbox, effect.unfinished = true →
      effect.projectionKey ≠ projection.key ∧
        effect.mutation.place runtime ≠ projection.place runtime
  | .enqueue _ mutation =>
    ∀ projection ∈ s.repository.projections, projection.live = false →
      mutation.place runtime ≠ projection.place runtime
  | .deleteProjection _ | .recordNotice _ => True

/-- The step makes no write of a pass or of a decision that is not admissible. -/
def Undisturbed (s : Session) (e : Event) : Prop :=
  ∀ write, Intends runtime s e write → Admissible runtime s write

instance (s : Session) (write : RepositoryWrite) : Decidable (Admissible runtime s write) :=
  match write with
  | .saveProjection _ => inferInstanceAs (Decidable (∀ effect ∈ s.repository.outbox, _ → _))
  | .enqueue _ _ =>
    inferInstanceAs (Decidable (∀ projection ∈ s.repository.projections, _ → _))
  | .deleteProjection _ | .recordNotice _ => isTrue trivial

instance (s : Session) (e : Event) : Decidable (Undisturbed runtime s e) :=
  decidable_of_iff (∀ write ∈ s.intended runtime e, Admissible runtime s write)
    ⟨fun h write hintends => h write (intends_iff.1 hintends),
      fun h write hwrite => h write (intends_iff.2 hwrite)⟩

instance (s : Session) (e : Event) : Decidable (Respects runtime s e) :=
  decidable_of_iff
    (∀ projection ∈ s.repository.projections,
      s.repository.projection projection.key = some projection → projection.live = false →
        ¬ Resolves s e projection.key →
          (Session.step runtime s e).repository.projection projection.key = some projection ∧
            ∀ effect ∈ s.performed runtime e,
              effect.mutation.place runtime ≠ projection.place runtime)
    (by
      constructor
      · intro h key projection hstored
        have hkey := Repository.projection_key hstored
        subst hkey
        exact h projection (List.mem_of_find?_eq_some hstored) hstored
      · exact fun h projection _ hstored => h projection.key projection hstored)

end Holds

variable {runtime : Runtime} {s s' : Session} {e : Event}

/-- Nothing unfinished is for a projection that is held or detached, or for its copy. -/
structure Quiet (runtime : Runtime) (s : Session) : Prop where
  tidy : s.Tidy
  quiet : ∀ key projection, s.repository.projection key = some projection →
    projection.live = false → ∀ effect ∈ s.repository.outbox, effect.unfinished = true →
      effect.projectionKey ≠ key ∧ effect.mutation.place runtime ≠ projection.place runtime

/-- A projection that is held or detached after a step was so before, or has been held by it. -/
theorem frozen_from (h : s.Tidy) (hmoves : Moves runtime s e s') {key : ProjectionKey}
    {projection' : StoredProjection}
    (hnew : s'.repository.projection key = some projection') (hfrozen : projection'.live = false) :
    (∃ projection, s.repository.projection key = some projection ∧ projection.live = false ∧
        projection'.place runtime = projection.place runtime) ∨
      (Intends runtime s e (.saveProjection projection') ∧ projection'.key = key) := by
  cases h.projectionFrom hmoves hnew with
  | old hold_ => exact .inl ⟨projection', hold_, hfrozen, rfl⟩
  | held projection hold hold_ hlive hsame hintends =>
    refine .inr ⟨hintends, ?_⟩
    have hkey := Repository.projection_key hold_
    rw [hsame]
    exact hkey
  | resolved projection detached hold_ hheld hsame =>
    refine .inl ⟨projection, hold_, ?_, by rw [hsame]; rfl⟩
    simp [StoredProjection.live, hheld]
  | finished answers stage effect rest revision continues _ _ _ _ hfinish =>
    rcases OutboxEffect.finish_eq_some hfinish with ⟨-, hdelete⟩ | ⟨desired, -, -, hsave⟩
    · cases hdelete
    · cases hsave
      simp [StoredProjection.live] at hfrozen

theorem Quiet.step (h : Quiet runtime s) (hundisturbed : Undisturbed runtime s e) :
    Quiet runtime (Session.step runtime s e) := by
  have hmoves : Moves runtime s e _ := Session.step_moves e
  refine ⟨h.tidy.moves hmoves, ?_⟩
  intro key projection' hnew hfrozen effect heffect hunfinished
  -- Whatever stood unfinished before the step is not for the projection.
  have hbefore : ∀ row ∈ s.repository.outbox, row.unfinished = true →
      row.projectionKey ≠ key ∧ row.mutation.place runtime ≠ projection'.place runtime := by
    intro row hrow hrowUnfinished
    rcases frozen_from h.tidy hmoves hnew hfrozen with
      ⟨projection, hold_, hfrozen, hplace⟩ | ⟨hintends, hkey⟩
    · rw [hplace]
      exact h.quiet key projection hold_ hfrozen row hrow hrowUnfinished
    · rw [← hkey]
      exact hundisturbed _ hintends row hrow hrowUnfinished
  cases h.tidy.coherent.rowFrom hmoves heffect with
  | old hold_ => exact hbefore effect hold_ hunfinished
  | new now newKey mutation hintends hsame =>
    subst hsame
    have hlive := h.tidy.intends_live hintends rfl
    rcases frozen_from h.tidy hmoves hnew hfrozen with
      ⟨projection, hold_, hfrozen, hplace⟩ | ⟨hhold, -⟩
    · refine ⟨?_, ?_⟩
      · rintro rfl
        simp only [Repository.newEffect] at hold_
        rw [hold_, Option.all_some, hfrozen] at hlive
        cases hlive
      · rw [hplace]
        exact hundisturbed _ hintends projection (List.mem_of_find?_eq_some hold_) hfrozen
    · cases hintends.unique hhold
  | marked stage first row rest hactivity hrow hrowUnfinished hid hcontinues _ =>
    rw [hcontinues.projectionKey, hcontinues.place]
    exact hbefore row hrow hrowUnfinished

/-- An effect of a projection that is held or detached is neither performed nor completed. -/
theorem Quiet.ne (h : Quiet runtime s) {key : ProjectionKey} {projection : StoredProjection}
    (hold_ : s.repository.projection key = some projection) (hfrozen : projection.live = false)
    {stage : Stage} {effect : OutboxEffect} {rest : List OutboxEffect}
    (hactivity : s.activity = .draining stage (effect :: rest)) :
    effect.projectionKey ≠ key ∧
      effect.mutation.place runtime ≠ projection.place runtime := by
  obtain ⟨row, hrow, -, hkey, hmutation, hunfinished⟩ :=
    (h.tidy.coherent.fetched _ _ hactivity).stand effect (.head _)
  rw [← hkey, ← hmutation]
  exact h.quiet key projection hold_ hfrozen row hrow hunfinished

/-- Only `resolveNotice`, or an effect of the projection, changes a projection that is held or
detached. -/
theorem projection_kept (h : Quiet runtime s) {key : ProjectionKey} {projection : StoredProjection}
    (hold_ : s.repository.projection key = some projection) (hfrozen : projection.live = false)
    (hresolves : ¬ Resolves s e key) (hmoves : Moves runtime s e s') :
    s'.repository.projection key = s.repository.projection key := by
  have hother : ∀ write, Intends runtime s e write → ∀ now,
      (s.repository.write now write).projection key = s.repository.projection key := by
    intro write hintends now
    refine Repository.write_projection_of_ne fun habout => ?_
    have hlive := h.tidy.intends_live hintends habout
    rw [hold_, Option.all_some, hfrozen] at hlive
    cases hlive
  cases hmoves with
  | @detach id notice stored hactivity hnotice hid hstored =>
    have hstoredKey := Repository.projection_key hstored
    refine Repository.saveProjection_of_ne fun hkey => hresolves ?_
    exact ⟨id, _, rfl, notice, hnotice, hid, (hkey.trans hstoredKey).symm⟩
  | @reopen id notice stored hactivity hnotice hid hstored =>
    have hstoredKey := Repository.projection_key hstored
    refine Repository.saveProjection_of_ne fun hkey => hresolves ?_
    exact ⟨id, _, rfl, notice, hnotice, hid, (hkey.trans hstoredKey).symm⟩
  | «continue» hactivity => exact hother _ (.pending hactivity) _
  | reconcile hactivity hwrites => exact hother _ (.reconcile hactivity hwrites) _
  | restore hactivity hwrite => exact hother _ (.restore hactivity hwrite) _
  | finish hactivity _ hwrite =>
    have hkey := (h.ne hold_ hfrozen hactivity).1
    rcases OutboxEffect.finish_eq_some hwrite with ⟨-, rfl⟩ | ⟨desired, -, -, rfl⟩
    · exact Repository.deleteProjection_of_ne hkey.symm
    · exact Repository.saveProjection_of_ne hkey.symm
  | _ => rfl

theorem Quiet.respects (h : Quiet runtime s) (e : Event) : Respects runtime s e := by
  intro key projection hold_ hfrozen hresolves
  refine ⟨?_, ?_⟩
  · have hmoves : Moves runtime s e _ := Session.step_moves e
    rw [← hold_]
    exact projection_kept h hold_ hfrozen hresolves hmoves
  · intro effect hperformed
    obtain ⟨answers, rest, calendars, -, hactivity, -⟩ := Session.performed_eq_some hperformed
    exact (h.ne hold_ hfrozen hactivity).2

/-- **Holds and detachment are respected**: in a run in which a hold finds nothing unfinished for
the projection or its copy, and no other projection with that copy asks for a write, a projection
that is held or detached stays as it is, and its copy is not written to, until `resolveNotice` is
called for it. -/
theorem holds_respected {es : List Event} (hinit : (Session.machine runtime).Init s)
    (h : (Session.machine runtime).Admits (Undisturbed runtime) s es) :
    (Session.machine runtime).Throughout (fun _ => True) (Respects runtime) s es := by
  have hquiet : Quiet runtime s := by
    refine ⟨.init hinit, ?_⟩
    rw [hinit.1]
    exact fun _ _ hnone => nomatch hnone
  refine h.throughout hquiet (fun _ _ => trivial) ?_
  · exact fun s e hquiet hok => ⟨hquiet.respects e, hquiet.step hok⟩

section Example

open DeletedCopies (exampleRuntime)
open LoopFreedom (allTimesPolicy returned)

/-- Edits and deletions are held. -/
def holdingPolicy : SyncPolicy :=
  { allTimesPolicy with destinationEdits := some ⟨.holdForReview, .holdForReview⟩ }

/-- Somebody edits the copy. -/
def editCopy : Event :=
  .edit ⟨"work", "primary", "pcopy11"⟩ (some
    { resource := { returned [("planipus_managed", "1"), ("planipus_policy", "policy"),
        ("planipus_projection", "pcopy11")] with etag := some "edited" } })

/-- The edit is held, and later passes leave it alone. -/
theorem holds_respected_edit :
    (Session.machine exampleRuntime).Throughout (fun _ => True) (Respects exampleRuntime) newSession
      (copyMeeting holdingPolicy ++ editCopy :: passAt 60000 holdingPolicy [] 2 [] [{ now := 60000 }] ++
        passAt 120000 holdingPolicy [meetingUntil 10800000 "s2"] 1 [] [{ now := 120000 }]) :=
  holds_respected newSession_init (by decide +kernel)

/-- An update is put off, the copy is edited and the edit is held; then the update is tried again. -/
theorem held_copy_overwritten :
    ¬ (Session.machine exampleRuntime).Throughout (fun _ => True) (Respects exampleRuntime)
      newSession
      (copyMeeting holdingPolicy ++
        passAt 60000 holdingPolicy [meetingUntil 10800000 "s2"] 1 [1] (failedAt 60000 .transient) ++
        editCopy :: passAt 65000 holdingPolicy [] 2 [] [{ now := 65000 }] ++
        passAt 125000 holdingPolicy [] 1 [1]
          [{ now := 125000 }, { now := 125000 }, { now := 125000 }] ++
        passAt 185000 holdingPolicy [] 1 [1] (performedAt 185000 "r2")) := by
  decide +kernel

end Example

end Planipus.Native.Holds

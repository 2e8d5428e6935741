import Planipus.Sync.Verify.Stamps
import Planipus.Sync.Verify.Start

/-!
# Reuse of event IDs

The ID of a copy is made from the projection's generation, and a create under an ID that was used
before brings a deleted event back or is refused. Generations only grow, so the question is whether
the current one has been used. The projection knows it when it names the event; otherwise an effect
whose outcome is unknown has to remember it (`Remembered`). The service forgets when it gives such an
effect up, and it creates again under a name it has when a second create is in the queue
(`second_create_reuses`). `ids_not_reused` says that there are no other ways.
-/

namespace Planipus.Sync

open CalendarSync Provider Provider.Session Library

/-- The ID that a request asks to create an event under. -/
def createdId : Request → Option EventId
  | .create id _ => some id
  | .update _ _ _ => none
  | .delete _ _ => none

/-- No create goes to an ID under which an event was created and is gone: the ID is that of the
projection's generation, which is above that of every such ID. -/
def NeverReuses (setup : Setup) (s : State) (event : Event) : Prop :=
  ∀ call ∈ issued setup s event, ∀ id ∈ createdId call.request,
    (id ∈ call.before.created → (call.before.events id).isSome = true) ∧
    ∃ p ∈ s.projection, id = managedEventId setup.projectionId p.generation ∧
      ∀ g, managedEventId setup.projectionId g ∈ call.before.created →
        call.before.events (managedEventId setup.projectionId g) = none → g < p.generation

/-- A write of the effect may have been carried out without being recorded: it is ambiguous, or its
worker is gone. -/
def outcomeUnknown (s : State) (e : EffectRow) : Bool :=
  e.state ≠ .succeeded &&
    (e.ambiguous || (e.state = .leased && e.leaseOwner.any fun owner => owner ∈ s.crashed))

/-- The ID of the projection's generation has been used, and the projection names no event. -/
def consumed (setup : Setup) (s : State) (p : ProjectionRow) : Bool :=
  p.destinationEventId = none &&
    decide (managedEventId setup.projectionId p.generation ∈ s.calendar.created)

/-- What the first request of an execution finds under an ID. -/
def firstFound (input : ExecuteInput) (s : State) (id : EventId) : Option RemoteEvent :=
  (⟨s.calendar, input.script, []⟩ : Session).arrival.events id

/-- The execution gives the effect up: the policy defers it, its basis has been overtaken, or it is a
create that finds no event while another effect is under way. -/
def givesUp (setup : Setup) (input : ExecuteInput) (s : State) (e : EffectRow)
    (p : ProjectionRow) : Bool :=
  defers setup s e || basisOvertaken setup s e ||
    ((gate setup s e).toOption.isSome && e.operation = .create &&
      (firstFound input s (managedEventId setup.projectionId p.generation)).isNone &&
      s.effects.any fun e' => e'.id ≠ e.id && e'.unfinished)

/-- An execution that may create an event without knowing whether there was one. -/
def createsBlindly (e : EffectRow) : Bool :=
  (e.operation = .create && !e.ambiguous) || e.operation = .update

/-- While the ID is consumed, an ambiguous effect is given up only if another effect's outcome is
unknown; a create that is not ambiguous finds the event that the projection names; and where the
projection names none, nothing is created blindly while an outcome is unknown. -/
def KeepsIds (setup : Setup) (s : State) : Event → Prop
  | .execute input => ∀ e ∈ leasedEffect input s, ∀ p ∈ s.projection,
      (consumed setup s p = true ∧ e.ambiguous = true ∧ givesUp setup input s e p = true →
        ∃ e' ∈ s.effects, e'.id ≠ e.id ∧ outcomeUnknown s e' = true) ∧
      ((gate setup s e).toOption.isSome = true ∧ e.operation = .create ∧ e.ambiguous = false →
        ∀ id ∈ p.destinationEventId, (firstFound input s id).isSome = true) ∧
      ((gate setup s e).toOption.isSome = true ∧ p.destinationEventId = none ∧
          createsBlindly e = true →
        ∀ e' ∈ s.effects, outcomeUnknown s e' = false)
  | .retryBlocked _ => ∀ p ∈ s.projection, ∀ dead ∈ blockingDeadEffect s.effects,
      consumed setup s p = true ∧ dead.ambiguous = true ∧
          deadReplayable setup s p dead = false ∧ recoverable setup s p = false →
        ∃ e' ∈ s.effects, e'.id ≠ dead.id ∧ outcomeUnknown s e' = true
  | _ => True

instance (setup : Setup) (s : State) : (event : Event) → Decidable (KeepsIds setup s event)
  | .execute input => inferInstanceAs (Decidable (∀ e ∈ leasedEffect input s, ∀ p ∈ s.projection,
      (consumed setup s p = true ∧ e.ambiguous = true ∧ givesUp setup input s e p = true →
        ∃ e' ∈ s.effects, e'.id ≠ e.id ∧ outcomeUnknown s e' = true) ∧
      ((gate setup s e).toOption.isSome = true ∧ e.operation = .create ∧ e.ambiguous = false →
        ∀ id ∈ p.destinationEventId, (firstFound input s id).isSome = true) ∧
      ((gate setup s e).toOption.isSome = true ∧ p.destinationEventId = none ∧
          createsBlindly e = true →
        ∀ e' ∈ s.effects, outcomeUnknown s e' = false)))
  | .retryBlocked _ => inferInstanceAs (Decidable (∀ p ∈ s.projection,
      ∀ dead ∈ blockingDeadEffect s.effects, consumed setup s p = true ∧ dead.ambiguous = true ∧
          deadReplayable setup s p dead = false ∧ recoverable setup s p = false →
        ∃ e' ∈ s.effects, e'.id ≠ dead.id ∧ outcomeUnknown s e' = true))
  | .store _ | .beginPass | .readObservation | .reconcile _ _ _ | .lease _ | .crash _ | .loadTarget
  | .observe _ _ | .settle _ _ | .resolve _ _ _ | .acknowledge _ | .setPaused _ _
  | .setEndpoints _ _ | .edit _ | .cleanup _ => isTrue trivial

/-! ## Unknown outcomes -/

/-- The outcome of some effect is unknown. -/
def UnknownLeft (s : State) : Prop := ∃ e ∈ s.effects, outcomeUnknown s e = true

section Unknown

variable {setup : Setup} {s s' : State} {e e' : EffectRow}

theorem outcomeUnknown_iff : outcomeUnknown s e = true ↔ e.state ≠ .succeeded ∧
    (e.ambiguous = true ∨
      (e.state = .leased ∧ ∃ owner, e.leaseOwner = some owner ∧ owner ∈ s.crashed)) := by
  cases howner : e.leaseOwner with
  | none => simp [outcomeUnknown, howner]
  | some owner => simp [outcomeUnknown, howner]

theorem outcomeUnknown_mono (hcr : ∀ owner ∈ s.crashed, owner ∈ s'.crashed)
    (h : outcomeUnknown s e = true) : outcomeUnknown s' e = true := by
  rw [outcomeUnknown_iff] at h ⊢
  refine ⟨h.1, h.2.imp_right ?_⟩
  rintro ⟨hl, owner, hown, hmem⟩
  exact ⟨hl, owner, hown, hcr owner hmem⟩

theorem outcomeUnknown_flagged (hstate : e.state ≠ .succeeded) (hflag : e.ambiguous = true) :
    outcomeUnknown s e = true :=
  outcomeUnknown_iff.2 ⟨hstate, Or.inl hflag⟩

theorem state_ne_succeeded_iff : e.state ≠ .succeeded ↔ e.unfinished = true ∨ e.dead = true := by
  cases hs : e.state <;> simp [EffectRow.unfinished, EffectRow.dead, hs]

theorem Touched.outcomeUnknown (h : Touched e e') (hcr : s'.crashed = s.crashed)
    (hun : Sync.outcomeUnknown s e = true) : Sync.outcomeUnknown s' e' = true := by
  rw [outcomeUnknown_iff] at hun ⊢
  refine ⟨?_, ?_⟩
  · rw [state_ne_succeeded_iff, h.unfinished, h.dead]
    exact state_ne_succeeded_iff.1 hun.1
  · rcases hun.2 with hflag | ⟨hl, owner, hown, hmem⟩
    · exact Or.inl (h.flagged hflag)
    · rcases h.leased hl with ⟨hl', hown'⟩ | hflag
      · exact Or.inr ⟨hl', owner, hown'.trans hown, hcr ▸ hmem⟩
      · exact Or.inl hflag

/-- For the worker's own effect only the flag counts. -/
theorem IsLeased.outcomeUnknown {input : ExecuteInput} (h : IsLeased input s e)
    (hun : Sync.outcomeUnknown s e = true) : e.ambiguous = true := by
  obtain ⟨-, hflag | ⟨-, owner, hown, hmem⟩⟩ := outcomeUnknown_iff.1 hun
  · exact hflag
  · rw [h.owner, Option.some.injEq] at hown
    exact absurd (hown ▸ hmem) h.alive

/-- An execution leaves the other effects as they are. -/
theorem Recorded.unknown_of_ne {input : ExecuteInput} {outcome : Outcome}
    (hr : Recorded input e outcome s s') (he' : e' ∈ s.effects) (hne : e'.id ≠ e.id)
    (hun : outcomeUnknown s e' = true) : UnknownLeft s' :=
  ⟨e', hr.mem_of_ne he' hne, outcomeUnknown_mono (by simp [hr.crashed]) hun⟩

theorem Recorded.unknown_of_flagged {input : ExecuteInput} {outcome : Outcome}
    (hr : Recorded input e outcome s s') (he : e ∈ s.effects)
    (hstate : (effectAfter input outcome e).state ≠ .succeeded)
    (hflag : (effectAfter input outcome e).ambiguous = true) : UnknownLeft s' :=
  ⟨_, hr.mem_self he, outcomeUnknown_flagged hstate hflag⟩

/-- An error leaves the flag, and sets it when the request may have been carried out. -/
theorem flagged_of_caught (input : ExecuteInput) {error : ProviderError}
    (h : e.ambiguous = true ∨ error.ambiguous = true) :
    (effectAfter input (caught error) e).state ≠ .succeeded ∧
      (effectAfter input (caught error) e).ambiguous = true := by
  unfold caught
  split
  · exact ⟨by simp [effectAfter, closeEffect], rfl⟩
  · refine ⟨?_, by simpa [effectAfter, failEffect, closeEffect] using h⟩
    simp only [effectAfter, failEffect, closeEffect]
    split <;> simp

end Unknown

/-! ## Generations -/

/-- No generation above the projection's has been used, and the projection names only its own ID. -/
structure Numbered (setup : Setup) (s : State) : Prop where
  created_le : ∀ g, managedEventId setup.projectionId g ∈ s.calendar.created →
    ∃ p ∈ s.projection, g ≤ p.generation
  named : ∀ p ∈ s.projection, ∀ id ∈ p.destinationEventId,
    id = managedEventId setup.projectionId p.generation

section Generations

variable {setup : Setup} {s s' : State} {p p' : ProjectionRow}

theorem Numbered.eventId (h : Numbered setup s) (hp : s.projection = some p) :
    executionEventId setup p = managedEventId setup.projectionId p.generation := by
  cases hdest : p.destinationEventId with
  | none => exact executionEventId_of_none hdest
  | some id => exact (executionEventId_of_dest hdest).trans (h.named p hp id hdest)

theorem Numbered.le (h : Numbered setup s) (hp : s.projection = some p) {g : Nat}
    (hg : managedEventId setup.projectionId g ∈ s.calendar.created) : g ≤ p.generation := by
  obtain ⟨q, hq, hle⟩ := h.created_le g hg
  rw [hp, Option.mem_def, Option.some.injEq] at hq
  exact hq ▸ hle

/-- The row names its own ID under the same generation, or nothing under the next. -/
def NextRow (setup : Setup) (p p' : ProjectionRow) : Prop :=
  (p'.generation = p.generation ∧
    ∀ id ∈ p'.destinationEventId, id = managedEventId setup.projectionId p.generation) ∨
  (p'.generation = p.generation + 1 ∧ p'.destinationEventId = none)

theorem Numbered.sameRow (h : Numbered setup s) (hp : s.projection = some p)
    (hdest : p'.destinationEventId = p.destinationEventId) (hgen : p'.generation = p.generation) :
    NextRow setup p p' :=
  Or.inl ⟨hgen, fun id hid => h.named p hp id (hdest ▸ hid)⟩

/-- Rows only move on, and only the ID of the row is used. -/
theorem Numbered.advance (h : Numbered setup s) (hp : s.projection = some p)
    (hp' : s'.projection = some p') (hrow : NextRow setup p p')
    (hc : ∀ id ∈ s'.calendar.created,
      id ∈ s.calendar.created ∨ id = managedEventId setup.projectionId p.generation) :
    Numbered setup s' where
  created_le g hg := by
    have hle : g ≤ p.generation := by
      rcases hc _ hg with hold | hid
      · exact h.le hp hold
      · exact Nat.le_of_eq (managedEventId_inj hid)
    refine ⟨p', hp', ?_⟩
    rcases hrow with ⟨hgen, -⟩ | ⟨hgen, -⟩
    · exact hgen ▸ hle
    · exact hgen ▸ Nat.le_succ_of_le hle
  named q hq id hid := by
    rw [hp', Option.mem_def, Option.some.injEq] at hq
    subst hq
    rcases hrow with ⟨hgen, hown⟩ | ⟨-, hnone⟩
    · rw [hgen]
      exact hown id hid
    · rw [hnone] at hid
      cases hid

theorem Numbered.evolve (h : Numbered setup s) (hp : s'.projection = s.projection)
    (hc : s'.calendar.created = s.calendar.created) : Numbered setup s' where
  created_le g hg := hp ▸ h.created_le g (hc ▸ hg)
  named := hp ▸ h.named

/-! ### Steps -/

theorem numbered_reconciled (h : Numbered setup s) {ctx : PassContext} {o : ObservationRow}
    {ins : Insertion} (hr : Reconciled setup ctx o ins s s') : Numbered setup s' := by
  cases hr with
  | absent hnone hop => exact h
  | shadowed p hp hb => exact h.advance hp rfl (h.sameRow hp rfl rfl) fun _ => Or.inl
  | settled p hp hb hop => exact h.advance hp rfl (h.sameRow hp rfl rfl) fun _ => Or.inl
  | queued p' operation hp' hop effects heff =>
    rcases hp' with ⟨hnone, rfl⟩ | ⟨p, hp, hb, rfl⟩
    · refine ⟨fun g hg => ?_, fun q hq id hid => ?_⟩
      · obtain ⟨q, hq, -⟩ := h.created_le g hg
        rw [hnone] at hq
        cases hq
      · cases hq
        cases hid
    · exact h.advance hp rfl (h.sameRow hp rfl rfl) fun _ => Or.inl

theorem numbered_settled (h : Numbered setup s) {lookup : Lookup} {input : SettleInput}
    (hset : Settled setup input lookup s s') : Numbered setup s' := by
  cases hset with
  | unchanged => exact h
  | repaired p hp hun observed revision hshow desired hd notices =>
    refine h.advance hp rfl ?_ fun _ => Or.inl
    cases observed with
    | missing => exact Or.inr ⟨rfl, rfl⟩
    | drifted => exact h.sameRow hp rfl rfl
  | editHeld p hp hun observed revision hshow desired hd code hcode notices =>
    exact h.advance hp rfl (h.sameRow hp rfl rfl) fun _ => Or.inl
  | mismatchHeld p hp hun event hobs hown =>
    exact h.advance hp rfl (h.sameRow hp rfl rfl) fun _ => Or.inl

theorem numbered_recovered (h : Numbered setup s) {input : RecoveryInput}
    (hr : Resolved setup input s s' ∨ Retried setup input s s') : Numbered setup s' := by
  rcases hr with hr | hr
  · cases hr with
    | detached p hp => exact h.advance hp rfl (h.sameRow hp rfl rfl) fun _ => Or.inl
    | restored p hp => exact h.advance hp rfl (h.sameRow hp rfl rfl) fun _ => Or.inl
  · cases hr with
    | unchanged => exact h
    | replayed p hp => exact h.advance hp rfl (h.sameRow hp rfl rfl) fun _ => Or.inl
    | gaveUp p hp => exact h.advance hp rfl (h.sameRow hp rfl rfl) fun _ => Or.inl
    | stale p hp => exact h.advance hp rfl (h.sameRow hp rfl rfl) fun _ => Or.inl
    | requeued p hp => exact h.advance hp rfl (h.sameRow hp rfl rfl) fun _ => Or.inl

/-- What a conversation adds to the IDs that were used. -/
theorem Concluded.created {e : EffectRow} {session session' : Session} {ended : ProviderOutcome}
    (h : Concluded setup p e session session' ended) :
    session'.calendar.created = session.calendar.created ∨
      (session'.calendar.created = executionEventId setup p :: session.calendar.created ∧
        ((∃ r, ended = .succeeded (some (executionEventId setup p, r))) ∨
          ∃ error, ended = .raised error ∧ error.ambiguous = true)) := by
  have hperform : ∀ {c c' : Calendar} {request : Request}, c.perform request = .ok c' →
      c'.created = c.created ∨ c'.created = request.target :: c.created := by
    intro c c' request hok
    cases request with
    | create id payload =>
      obtain ⟨-, rfl⟩ := perform_create hok
      exact Or.inr rfl
    | update id expected payload =>
      obtain ⟨_, -, -, rfl⟩ := perform_update hok
      exact Or.inl rfl
    | delete id expected =>
      obtain ⟨_, -, -, rfl⟩ := perform_delete hok
      exact Or.inl rfl
  have hwritten : ∀ {s₁ : Session} {after : Calendar} {request : Request},
      Asked setup p e session s₁ → Reason setup p e session s₁ request →
      s₁.arrival.perform request = .ok after → after.created = session.calendar.created ∨
        after.created = executionEventId setup p :: session.calendar.created := by
    rintro s₁ after request hs ⟨read, -, -, hauth⟩ hok
    have hcr := hperform hok
    rwa [hs.drifts_arrival.created, hauth.target] at hcr
  cases h with
  | raised hs => exact Or.inl hs.drifts.created
  | missing hs => exact Or.inl hs.drifts.created
  | mismatch hs => exact Or.inl hs.drifts.created
  | vacant hs => exact Or.inl hs.drifts.created
  | written hs request payload hr hpay after h =>
    exact (hwritten hs hr h).imp_right fun hcr => ⟨hcr, Or.inl ⟨_, rfl⟩⟩
  | removed hs expected hop hr after h =>
    obtain ⟨_, -, -, rfl⟩ := perform_delete h
    exact Or.inl hs.drifts_arrival.created
  | lost hs request hr after h error hamb hretry herr =>
    exact (hwritten hs hr h).imp_right fun hcr => ⟨hcr, Or.inr ⟨error, rfl, hamb⟩⟩
  | rejected hs => exact Or.inl hs.drifts_arrival.created

/-- The row that a conversation leads to. -/
theorem Numbered.nextRow (h : Numbered setup s) (hp : s.projection = some p) {e : EffectRow}
    {session session' : Session} {ended : ProviderOutcome}
    (hconc : Concluded setup p e session session' ended) :
    NextRow setup p (projectionAfter e (conclude setup s p e ended) p) := by
  cases hout : conclude setup s p e ended with
  | succeeded remote =>
    have hended := conclude_succeeded hout
    subst hended
    cases remote with
    | none =>
      have hop := hconc.removed_operation
      exact Or.inr (by simp [projectionAfter, succeedProjection, hop])
    | some written =>
      obtain ⟨id, r⟩ := written
      obtain ⟨hid, hop, -⟩ := hconc.written_event
      refine Or.inl ⟨by simp [projectionAfter, succeedProjection], fun id' hid' => ?_⟩
      have heq : id' = id := by simpa [projectionAfter, succeedProjection] using hid'.symm
      exact heq ▸ hid.trans (h.eventId hp)
  | replaced d => exact Or.inr ⟨rfl, rfl⟩
  | deferred reason | superseded reason | basisChanged | heldAmbiguous error | failed error =>
    exact h.sameRow hp rfl rfl

theorem numbered_executed (h : Numbered setup s) {input : ExecuteInput}
    (hx : Executed setup input s s') : Numbered setup s' := by
  cases hx with
  | idle => exact h
  | stopped e he outcome hg s' hs' =>
    rcases hs' with rfl | hrec
    · exact h.evolve rfl rfl
    · have hr := record_recorded hrec
      have hproj := hr.projection
      have hc : s'.calendar.created = s.calendar.created := by rw [hr.calendar]
      cases hp : s.projection with
      | none =>
        rw [hp] at hproj
        exact h.evolve (hproj.trans hp.symm) hc
      | some p =>
        rw [hp] at hproj
        have hstop := gate_error hg
        obtain ⟨hdest, -, hgen, -⟩ := projectionAfter_named (p := p) (e := e)
          (by rintro remote rfl; cases hstop) (gateStopped_ne_replaced hstop)
        refine h.advance hp hproj (h.sameRow hp hdest hgen) fun id hid => ?_
        rw [hc] at hid
        exact Or.inl hid
  | ran e he p hg session ended hrun s' hs' =>
    have hp := (gate_ok hg).projection
    have hconc := ran_concluded hrun
    have hused : ∀ id ∈ session.calendar.created, id ∈ s.calendar.created ∨
        id = managedEventId setup.projectionId p.generation := by
      intro id hid
      rcases hconc.created with hcr | ⟨hcr, -⟩
      · exact Or.inl (hcr ▸ hid)
      · rw [hcr, h.eventId hp, List.mem_cons] at hid
        exact hid.symm
    rcases hs' with rfl | hrec
    · exact h.advance hp hp (h.sameRow hp rfl rfl) hused
    · have hr := record_recorded hrec
      have hproj := hr.projection_some hp
      refine h.advance hp hproj (h.nextRow hp hconc) fun id hid => hused id ?_
      rwa [hr.calendar] at hid

theorem numbered_stepped (h : Numbered setup s) {event : Event} (hs : Stepped setup s event s') :
    Numbered setup s' := by
  cases hs with
  | rest _ _ hp he hc ht hl hcr hpol hr ho => exact h.evolve hp (by rw [hc])
  | touched _ effects htouched policyStatus hpol jobs => exact h.evolve rfl rfl
  | loaded target htarget => exact h.evolve rfl rfl
  | observed target htarget reply => exact h.evolve rfl rfl
  | edited edit => exact h.evolve rfl (Calendar.applyAll_created s.calendar [edit])
  | reconciled ctx o ins ho hpass hfresh _ hr => exact numbered_reconciled h hr
  | executed input hfresh _ hx => exact numbered_executed h hx
  | settled lookup input hl hfresh _ hset => exact numbered_settled h hset
  | resolved notice action input hfresh _ hr => exact numbered_recovered h (Or.inl hr)
  | retried input hfresh _ hr => exact numbered_recovered h (Or.inr hr)

theorem numbered_init (h : Initial setup s) : Numbered setup s where
  created_le g hg := absurd hg (h.calendar.unused g)
  named := by simp [h.projection]

end Generations

/-! ## Used IDs that nothing names -/

/-- A used ID that the projection does not name is remembered by an effect. -/
def Remembered (setup : Setup) (s : State) : Prop :=
  ∀ p ∈ s.projection, consumed setup s p = true → UnknownLeft s

section EventIds

variable {setup : Setup} {s s' : State} {p p' : ProjectionRow}

theorem consumed_iff : consumed setup s p = true ↔ p.destinationEventId = none ∧
    managedEventId setup.projectionId p.generation ∈ s.calendar.created := by
  simp [consumed]

theorem remembered_of_left (h : UnknownLeft s) : Remembered setup s := fun _ _ _ => h

/-- A step that keeps the stored event, its generation and what was created. -/
theorem Remembered.keep (h : Remembered setup s) (hp : s.projection = some p)
    (hp' : s'.projection = some p') (hdest : p'.destinationEventId = p.destinationEventId)
    (hgen : p'.generation = p.generation) (hc : s'.calendar.created = s.calendar.created)
    (hun : consumed setup s p = true → UnknownLeft s → UnknownLeft s') : Remembered setup s' := by
  intro q hq hcons
  rw [hp', Option.mem_def, Option.some.injEq] at hq
  subst hq
  have hcons' : consumed setup s p = true := by
    rw [consumed_iff, hdest, hgen, hc] at hcons
    exact consumed_iff.2 hcons
  exact hun hcons' (h p hp hcons')

theorem Remembered.evolve (h : Remembered setup s) (hp : s'.projection = s.projection)
    (hc : s'.calendar.created = s.calendar.created) (hun : UnknownLeft s → UnknownLeft s') :
    Remembered setup s' := by
  intro q hq hcons
  rw [hp] at hq
  rw [consumed_iff, hc] at hcons
  exact hun (h q hq (consumed_iff.2 hcons))

theorem remembered_of_named {id : EventId} (hp' : s'.projection = some p')
    (hdest : p'.destinationEventId = some id) : Remembered setup s' := by
  intro q hq hcons
  rw [hp', Option.mem_def, Option.some.injEq] at hq
  subst hq
  rw [consumed_iff, hdest] at hcons
  cases hcons.1

/-- A new generation has not been used. -/
theorem Numbered.remembered (h : Numbered setup s) (hp : s.projection = some p)
    (hp' : s'.projection = some p') (hgen : p'.generation = p.generation + 1)
    (hc : s'.calendar.created = s.calendar.created) : Remembered setup s' := by
  intro q hq hcons
  rw [hp', Option.mem_def, Option.some.injEq] at hq
  subst hq
  rw [consumed_iff, hc] at hcons
  have hle := h.le hp hcons.2
  rw [hgen] at hle
  exact absurd hle (Nat.not_succ_le_self _)

/-! ### Steps -/

theorem unknownLeft_append {effects : List EffectRow} {row : EffectRow}
    (h : ∃ e ∈ effects, outcomeUnknown s e = true) :
    ∃ e ∈ effects ++ [row], outcomeUnknown s e = true := by
  obtain ⟨e, he, hun⟩ := h
  exact ⟨e, List.mem_append_left _ he, hun⟩

theorem remembered_reconciled (h : Remembered setup s) (hnum : Numbered setup s)
    {ctx : PassContext} {o : ObservationRow} {ins : Insertion}
    (hr : Reconciled setup ctx o ins s s') : Remembered setup s' := by
  cases hr with
  | absent hnone hop => exact h
  | shadowed p hp hb => exact h.keep hp rfl rfl rfl rfl fun _ hun => hun
  | settled p hp hb hop => exact h.keep hp rfl rfl rfl rfl fun _ hun => hun
  | queued p' operation hp' hop effects heff =>
    rcases hp' with ⟨hnone, rfl⟩ | ⟨p, hp, hb, rfl⟩
    · intro q hq hcons
      obtain ⟨q', hq', -⟩ := hnum.created_le _ (consumed_iff.1 hcons).2
      rw [hnone] at hq'
      cases hq'
    · refine h.keep hp rfl rfl rfl rfl fun _ hun => ?_
      rcases heff with rfl | ⟨rfl, -⟩
      · exact unknownLeft_append hun
      · exact hun

theorem remembered_settled (h : Remembered setup s) (hnum : Numbered setup s) {lookup : Lookup}
    {input : SettleInput} (hset : Settled setup input lookup s s') : Remembered setup s' := by
  cases hset with
  | unchanged => exact h
  | repaired p hp hun observed revision hshow desired hd notices =>
    cases observed with
    | missing => exact hnum.remembered hp rfl rfl rfl
    | drifted => exact h.keep hp rfl rfl rfl rfl fun _ hun => unknownLeft_append hun
  | editHeld p hp hun observed revision hshow desired hd code hcode notices =>
    exact h.keep hp rfl rfl rfl rfl fun _ hun => hun
  | mismatchHeld p hp hun event hobs hown => exact h.keep hp rfl rfl rfl rfl fun _ hun => hun

theorem remembered_resolved (h : Remembered setup s) {input : RecoveryInput}
    (hr : Resolved setup input s s') : Remembered setup s' := by
  cases hr with
  | detached p hp hheld notices => exact h.keep hp rfl rfl rfl rfl fun _ hun => hun
  | restored p hp hheld operation hop hrev hbasis hevid notices =>
    exact h.keep hp rfl rfl rfl rfl fun _ hun => unknownLeft_append hun

theorem remembered_retried (h : Remembered setup s) (hcoh : Coherent setup s)
    {input : RecoveryInput} (hok : KeepsIds setup s (.retryBlocked input))
    (hr : Retried setup input s s') : Remembered setup s' := by
  cases hr with
  | unchanged => exact h
  | replayed p hp dead hdead hreplay =>
    have hmem := (blockingDeadEffect_mem hdead).1
    exact remembered_of_left ⟨replayEffect input.now dead, mem_updateRow_of_mem hmem rfl,
      outcomeUnknown_flagged (by simp [replayEffect, closeEffect]) rfl⟩
  | gaveUp p hp dead hdead hreplay hno jobs =>
    refine h.keep hp rfl rfl rfl rfl fun hcons hleft => ?_
    -- What is given up is the dead effect, and another one must remember the ID.
    have hother : ∃ e' ∈ s.effects, e'.id ≠ dead.id ∧ outcomeUnknown s e' = true := by
      obtain ⟨e, he, hun⟩ := hleft
      by_cases hid : e.id = dead.id
      · obtain ⟨hmem, hstate⟩ := blockingDeadEffect_mem hdead
        have heq := eq_of_id_eq hcoh.ids he hmem hid
        subst heq
        obtain ⟨-, hflag | ⟨hl, -⟩⟩ := outcomeUnknown_iff.1 hun
        · exact hok p hp e hdead ⟨hcons, hflag, hreplay, hno⟩
        · rw [hstate] at hl
          cases hl
      · exact ⟨e, he, hid, hun⟩
    obtain ⟨e', he', hne, hun⟩ := hother
    exact ⟨e', mem_updateRow_of_ne he' hne, hun⟩
  | stale p hp hdead hheld jobs => exact h.keep hp rfl rfl rfl rfl fun _ hun => hun
  | requeued p hp effects heff operation hop hrev hbasis hevid =>
    exact remembered_of_left ⟨_, List.mem_append_right _ (List.mem_singleton_self _),
      outcomeUnknown_flagged (by simp [recoveryEffect]) rfl⟩

/-! ### Executions -/

theorem remembered_stopped (h : Remembered setup s) (hcoh : Coherent setup s) {input : ExecuteInput}
    {e : EffectRow} {outcome : Outcome} (he : leasedEffect input s = some e)
    (hg : gate setup s e = .error outcome) (hok : KeepsIds setup s (.execute input))
    (hr : Recorded input e outcome s s') : Remembered setup s' := by
  have hleased := leasedEffect_isLeased he
  have hc : s'.calendar.created = s.calendar.created := by rw [hr.calendar]
  cases hp : s.projection with
  | none =>
    have hmem := hleased.mem
    rw [hcoh.orphans hp] at hmem
    cases hmem
  | some p =>
    have hproj := hr.projection_some hp
    -- An effect that is given up leaves the ID to another one.
    have hforget : givesUp setup input s e p = true → consumed setup s p = true →
        UnknownLeft s → UnknownLeft s' := by
      rintro hgives hcons ⟨e₁, he₁, hun⟩
      by_cases hid : e₁.id = e.id
      · rw [eq_of_id_eq hcoh.ids he₁ hleased.mem hid] at hun
        obtain ⟨e', he', hne, hun'⟩ :=
          (hok e he p hp).1 ⟨hcons, hleased.outcomeUnknown hun, hgives⟩
        exact hr.unknown_of_ne he' hne hun'
      · exact hr.unknown_of_ne he₁ hid hun
    cases gate_error hg with
    | deferred reason _ =>
      refine h.keep hp hproj rfl rfl hc (hforget ?_)
      simp [givesUp, gate_deferred hg]
    | deleted hdel =>
      have hmem := hleased.mem
      rw [(hcoh.deleted hdel).2.2] at hmem
      cases hmem
    | basisChanged =>
      refine h.keep hp hproj rfl rfl hc (hforget ?_)
      simp [givesUp, gate_basisChanged hg]
    | failed error hretry hamb =>
      refine h.keep hp hproj rfl rfl hc fun _ ⟨e₁, he₁, hun⟩ => ?_
      by_cases hid : e₁.id = e.id
      · rw [eq_of_id_eq hcoh.ids he₁ hleased.mem hid] at hun
        refine hr.unknown_of_flagged hleased.mem ?_ ?_
        · simp only [effectAfter, failEffect, closeEffect]
          split <;> simp
        · simp [effectAfter, failEffect, closeEffect, hleased.outcomeUnknown hun]
      · exact hr.unknown_of_ne he₁ hid hun

/-- A conversation that raised an error leaves the flag, or sets it. -/
theorem remembered_caught (h : Remembered setup s) (hcoh : Coherent setup s)
    (hp : s.projection = some p) {input : ExecuteInput} {e : EffectRow} {error : ProviderError}
    {c : Calendar} (hleased : IsLeased input s e)
    (hc : c.created = s.calendar.created ∨ error.ambiguous = true)
    (hr : Recorded input e (caught error) { s with calendar := c } s') : Remembered setup s' := by
  have hproj := hr.projection_some hp
  have hrow : (projectionAfter e (caught error) p).destinationEventId = p.destinationEventId ∧
      (projectionAfter e (caught error) p).generation = p.generation := by
    unfold caught
    split <;> exact ⟨rfl, rfl⟩
  have hflagged : e.ambiguous = true ∨ error.ambiguous = true → UnknownLeft s' := by
    intro hflag
    obtain ⟨hstate, hset⟩ := flagged_of_caught input hflag
    exact hr.unknown_of_flagged hleased.mem hstate hset
  rcases hc with hc | hamb
  · have hcal : s'.calendar.created = s.calendar.created := by rw [hr.calendar, hc]
    refine h.keep hp hproj hrow.1 hrow.2 hcal fun _ ⟨e₁, he₁, hun⟩ => ?_
    by_cases hid : e₁.id = e.id
    · rw [eq_of_id_eq hcoh.ids he₁ hleased.mem hid] at hun
      exact hflagged (Or.inl (hleased.outcomeUnknown hun))
    · exact hr.unknown_of_ne he₁ hid hun
  · exact remembered_of_left (hflagged (Or.inr hamb))

theorem remembered_ran (h : Remembered setup s) (hnum : Numbered setup s) (hcoh : Coherent setup s)
    {input : ExecuteInput} {e : EffectRow} {session : Session} {ended : ProviderOutcome}
    (he : leasedEffect input s = some e) (hg : gate setup s e = .ok p)
    (hok : KeepsIds setup s (.execute input))
    (hconc : Concluded setup p e ⟨s.calendar, input.script, []⟩ session ended)
    (hr : Recorded input e (conclude setup s p e ended) { s with calendar := session.calendar } s') :
    Remembered setup s' := by
  have hleased := leasedEffect_isLeased he
  have hp := (gate_ok hg).projection
  have hproj := hr.projection_some hp
  have hcal : s'.calendar.created = session.calendar.created := by rw [hr.calendar]
  have hcr := hconc.created
  have hsame : (∀ r, ended ≠ .succeeded (some (executionEventId setup p, r))) →
      (∀ error, ended ≠ .raised error) → s'.calendar.created = s.calendar.created := by
    intro hsucc hraised
    rcases hcr with hcr | ⟨-, ⟨r, hended⟩ | ⟨error, hended, -⟩⟩
    · exact hcal.trans hcr
    · exact absurd hended (hsucc r)
    · exact absurd hended (hraised error)
  cases ended with
  | raised error =>
    refine remembered_caught h hcoh hp hleased (hcr.imp_right ?_) hr
    rintro ⟨-, ⟨r, hended⟩ | ⟨error', hended, hamb⟩⟩
    · cases hended
    · cases hended
      exact hamb
  | mismatch =>
    exact remembered_of_left
      (hr.unknown_of_flagged hleased.mem (by simp [conclude, effectAfter, closeEffect]) rfl)
  | succeeded remote =>
    cases remote with
    | none =>
      have hop := hconc.removed_operation
      refine hnum.remembered hp hproj ?_ (hsame (by simp) (by simp))
      simp [conclude, projectionAfter, succeedProjection, hop]
    | some written =>
      obtain ⟨id, r⟩ := written
      obtain ⟨-, hop, -⟩ := hconc.written_event
      refine remembered_of_named hproj (show _ = some id from ?_)
      simp [conclude, projectionAfter, succeedProjection]
  | missing =>
    have hc := hsame (by simp) (by simp)
    simp only [conclude] at hr hproj
    split at hr
    · rename_i hany
      rw [if_pos hany] at hproj
      refine h.keep hp hproj rfl rfl hc ?_
      rintro hcons ⟨e₁, he₁, hun⟩
      by_cases hid : e₁.id = e.id
      · rw [eq_of_id_eq hcoh.ids he₁ hleased.mem hid] at hun
        have hdest := (consumed_iff.1 hcons).1
        -- Only a create misses an event that the projection does not name.
        cases hconc with
        | missing hs hop habsent hcreate hupdate =>
          have hcreate' : e.operation = .create := by
            cases hop' : e.operation with
            | create => rfl
            | update => exact absurd hdest (hupdate hop')
            | delete => exact absurd hop' hop
          have hfirst := (hcreate hcreate').2
          rw [executionEventId_of_none hdest] at hfirst
          have hgives : givesUp setup input s e p = true := by
            unfold givesUp firstFound
            rw [hany, hg, hfirst, hcreate']
            simp [Except.toOption]
          obtain ⟨e', he', hne, hun'⟩ :=
            (hok e he p hp).1 ⟨hcons, hleased.outcomeUnknown hun, hgives⟩
          exact hr.unknown_of_ne he' hne hun'
      · exact hr.unknown_of_ne he₁ hid hun
    · rename_i hnone
      rw [if_neg hnone] at hproj
      split at hr
      · rename_i desired hrep
        rw [hrep] at hproj
        exact hnum.remembered hp hproj rfl hc
      · exact remembered_caught h hcoh hp hleased (Or.inl (hcal.symm.trans hc)) hr

theorem remembered_executed (h : Remembered setup s) (hnum : Numbered setup s)
    (hcoh : Coherent setup s) {input : ExecuteInput} (hok : KeepsIds setup s (.execute input))
    (hx : Executed setup input s s') : Remembered setup s' := by
  cases hx with
  | idle => exact h
  | stopped e he outcome hg s' hs' =>
    rcases hs' with rfl | hrec
    · refine h.evolve rfl rfl fun ⟨e, he, hun⟩ => ⟨e, he, ?_⟩
      exact outcomeUnknown_mono (fun _ hmem => List.mem_cons_of_mem _ hmem) hun
    · exact remembered_stopped h hcoh he hg hok (record_recorded hrec)
  | ran e he p hg session ended hrun s' hs' =>
    have hleased := leasedEffect_isLeased he
    rcases hs' with rfl | hrec
    · -- The worker is gone and its effect remembers the ID.
      exact remembered_of_left ⟨e, hleased.mem, outcomeUnknown_iff.2 ⟨by simp [hleased.state],
        Or.inr ⟨hleased.state, _, hleased.owner, List.mem_cons_self⟩⟩⟩
    · exact remembered_ran h hnum hcoh he hg hok (ran_concluded hrun) (record_recorded hrec)

theorem remembered_stepped (h : Remembered setup s) (hnum : Numbered setup s)
    (hcoh : Coherent setup s) {event : Event} (hok : KeepsIds setup s event)
    (hs : Stepped setup s event s') : Remembered setup s' := by
  cases hs with
  | rest _ _ hp he hc ht hl hcr hpol hr ho =>
    refine h.evolve hp (by rw [hc]) fun ⟨e, hmem, hun⟩ => ⟨e, he ▸ hmem, ?_⟩
    exact outcomeUnknown_mono hcr hun
  | touched _ effects htouched policyStatus hpol jobs =>
    refine h.evolve rfl rfl fun ⟨e, hmem, hun⟩ => ?_
    obtain ⟨e', he', htouch⟩ := htouched.forth e hmem (outcomeUnknown_iff.1 hun).1
    exact ⟨e', he', htouch.outcomeUnknown rfl hun⟩
  | loaded target htarget => exact h.evolve rfl rfl fun hun => hun
  | observed target htarget reply => exact h.evolve rfl rfl fun hun => hun
  | edited edit =>
    exact h.evolve rfl (Calendar.applyAll_created s.calendar [edit]) fun hun => hun
  | reconciled ctx o ins ho hpass hfresh _ hr => exact remembered_reconciled h hnum hr
  | executed input hfresh _ hx => exact remembered_executed h hnum hcoh hok hx
  | settled lookup input hl hfresh _ hset => exact remembered_settled h hnum hset
  | resolved notice action input hfresh _ hr => exact remembered_resolved h hr
  | retried input hfresh _ hr => exact remembered_retried h hcoh hok hr

/-! ## The creates -/

/-- An execution that creates does so under an ID that has not been used. -/
theorem Remembered.unused (h : Remembered setup s) (hnum : Numbered setup s)
    (hp : s.projection = some p) {input : ExecuteInput} {e : EffectRow}
    (he : leasedEffect input s = some e) (hg : gate setup s e = .ok p)
    (hok : KeepsIds setup s (.execute input)) {read : Calendar} {request : Request} {id : EventId}
    (hauth : Authorized setup p e ⟨s.calendar, input.script, []⟩ read request)
    (hid : id ∈ createdId request) : id = managedEventId setup.projectionId p.generation ∧
      id ∉ s.calendar.created := by
  have hpass : (gate setup s e).toOption.isSome = true := by
    rw [hg]
    rfl
  -- Where the projection names no event, an unknown outcome would have to remember the ID.
  have hblind : p.destinationEventId = none → createsBlindly e = true →
      managedEventId setup.projectionId p.generation ∉ s.calendar.created := by
    intro hdest hcreates hused
    obtain ⟨e', he', hun⟩ := h p hp (consumed_iff.2 ⟨hdest, hused⟩)
    rw [(hok e he p hp).2.2 ⟨hpass, hdest, hcreates⟩ e' he'] at hun
    cases hun
  cases hauth with
  | createAbsent payload hd hop hflag habsent =>
    cases hid
    rw [hnum.eventId hp] at habsent ⊢
    refine ⟨rfl, ?_⟩
    cases hdest : p.destinationEventId with
    | none => exact hblind hdest (by simp [createsBlindly, hop, hflag])
    | some id =>
      have hfound := (hok e he p hp).2.1 ⟨hpass, hop, hflag⟩ id hdest
      rw [hnum.named p hp id hdest, firstFound, habsent] at hfound
      cases hfound
  | createUnnamed payload hd hop hdest =>
    cases hid
    rw [hnum.eventId hp]
    exact ⟨rfl, hblind hdest (by simp [createsBlindly, hop])⟩
  | rewrite | trusted | removeFound | removeTrusted => cases hid

/-- **IDs are not reused**, in every run whose steps keep the used IDs in mind. -/
theorem ids_not_reused (h : (system setup).Reachable (KeepsIds setup) s) {event : Event}
    (hok : KeepsIds setup s event) : NeverReuses setup s event := by
  have hinv : Coherent setup s ∧ Numbered setup s ∧ Remembered setup s := by
    refine h.invariant
      (I := fun s => Coherent setup s ∧ Numbered setup s ∧ Remembered setup s) ?_ ?_
    · intro s hs
      refine ⟨coherent_init hs, numbered_init hs, fun p hp => ?_⟩
      rw [hs.projection] at hp
      cases hp
    · rintro s event ⟨hcoh, hnum, hrem⟩ hok
      have hs := step_stepped setup s event
      exact ⟨coherent_stepped hcoh hs, numbered_stepped hnum hs,
        remembered_stepped hrem hnum hcoh hok hs⟩
  obtain ⟨-, hnum, hrem⟩ := hinv
  intro call hcall id hid
  obtain ⟨input, e, p, rfl, he, hg, htried⟩ := issued_tried hcall
  have hp := (gate_ok hg).projection
  obtain ⟨read, -, -, hauth⟩ := htried.reason
  obtain ⟨hid', hunused⟩ := hrem.unused hnum hp he hg hok hauth hid
  have hcr : call.before.created = s.calendar.created := htried.drifts.created
  refine ⟨fun hused => absurd (hcr ▸ hused) hunused, p, hp, hid', fun g hg' _ => ?_⟩
  rw [hcr] at hg'
  refine Nat.lt_of_le_of_ne (hnum.le hp hg') fun heq => hunused ?_
  rw [hid', ← heq]
  exact hg'

end EventIds

/-- A copy is created and deleted by a person, verification notices, and the replacement is
leased. -/
def replacedCopy : List Event :=
  createdCopy ++
    [.edit (.remove "pcopy11"), .loadTarget, .observe plainTarget .delivered,
      .settle ⟨plainTarget, none⟩ ⟨0, ⟨2, 2⟩, 1⟩, leaseBy "other" 2]

/-- The plain replacement is such a run, and its create is under the next generation. -/
theorem ids_not_reused_replacedCopy :
    (issued plainSetup (runFrom plainSetup (startState (plainEvent "meeting" 1)) replacedCopy)
        (executeBy "other" 2)).map (fun call => createdId call.request) = [some "pcopy12"] ∧
    NeverReuses plainSetup
      (runFrom plainSetup (startState (plainEvent "meeting" 1)) replacedCopy)
      (executeBy "other" 2) :=
  ⟨by decide +kernel,
    ids_not_reused (reachable_admitted (by decide +kernel)) (by decide +kernel)⟩

/-- Two passes queue a create each before the first is executed, and a person deletes the copy before
the second is. -/
def secondCreate : List Event :=
  passOver (plainEvent "meeting" 1) 1 ++ passOver (plainEvent "meeting" 1) 2 ++
    [leaseBy "worker" 3, executeBy "worker" 1, .edit (.remove "pcopy11"), leaseBy "other" 4]

theorem second_create_reuses :
    ¬ NeverReuses plainSetup
      (runFrom plainSetup (startState (plainEvent "meeting" 1)) secondCreate)
      (executeBy "other" 2) := by
  intro h
  have hused := fun call hcall id hid => (h call hcall id hid).1
  exact absurd hused (by decide +kernel)

end Planipus.Sync

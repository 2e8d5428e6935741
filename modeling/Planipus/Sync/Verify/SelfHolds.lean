import Planipus.Sync.Verify.EventIds
import Planipus.Sync.Verify.Quiet

/-!
# Holds that the service brings on itself

Nobody else writes the destination, so an event is as the service left it, and a hold is a mistake.
What the service left need not be what the rows say: a write whose answer was lost is known only
through the effect that made it. As long as that effect reads before it writes, the difference is
found and repaired; when its flag is dropped, the next write relies on a revision that is gone and
the projection is held (`deferred_update_holds`). `no_self_holds` says when this cannot happen.
-/

namespace Planipus.Sync

open CalendarSync Provider Provider.Session Library

/-- No projection is held, neither for unknown ownership nor for an edit. -/
def Unheld (s : State) : Prop :=
  ∀ p ∈ s.projection, p.ownership ≠ .ambiguous ∧ p.status ≠ .held

instance (s : State) : Decidable (Unheld s) :=
  inferInstanceAs (Decidable (∀ p ∈ s.projection, p.ownership ≠ .ambiguous ∧ p.status ≠ .held))

/-- The destination is as the row says: the event it names is there with the stored revision, and
where it names none, its ID is unused or the event is there. -/
def Accounted (setup : Setup) (c : Calendar) (p : ProjectionRow) : Prop :=
  (∀ id ∈ p.destinationEventId, ∃ ev ∈ c.events id, p.destinationEtag = some ev.revision) ∧
    (p.destinationEventId = none →
      c.events (managedEventId setup.projectionId p.generation) = none →
        managedEventId setup.projectionId p.generation ∉ c.created)

instance (setup : Setup) (c : Calendar) (p : ProjectionRow) : Decidable (Accounted setup c p) :=
  inferInstanceAs (Decidable
    ((∀ id ∈ p.destinationEventId, ∃ ev ∈ c.events id, p.destinationEtag = some ev.revision) ∧
    (p.destinationEventId = none →
      c.events (managedEventId setup.projectionId p.generation) = none →
        managedEventId setup.projectionId p.generation ∉ c.created)))

/-- An effect with an unknown outcome that keeps verification away: it is under way, or the
projection is not converged. -/
def outstanding (s : State) (p : ProjectionRow) (e : EffectRow) : Bool :=
  outcomeUnknown s e && (e.unfinished || p.status ≠ .converged)

/-- The execution gives the effect up: the policy defers it, its basis has been overtaken, or the
event is missing while another effect is under way. -/
def leavesOpen (setup : Setup) (s : State) (e : EffectRow) (p : ProjectionRow) : Bool :=
  defers setup s e || basisOvertaken setup s e ||
    ((gate setup s e).toOption.isSome && e.operation ≠ .delete &&
      (s.calendar.events (managedEventId setup.projectionId p.generation)).isNone &&
      s.effects.any fun e' => e'.id ≠ e.id && e'.unfinished)

/-- Nobody else writes the destination and no user recovers. While the destination is not as the row
says, an ambiguous effect is given up only if another one is outstanding, and an effect that is not
ambiguous runs only if no outcome is unknown. An effect that writes carries the projection's
generation. -/
def KeepsFlags (setup : Setup) (s : State) : Event → Prop
  | .execute input => (∀ exchange ∈ input.script, exchange.edits = []) ∧
      ∀ e ∈ leasedEffect input s, ∀ p ∈ s.projection,
        (e.ambiguous = true ∧ leavesOpen setup s e p = true ∧ ¬ Accounted setup s.calendar p →
          ∃ e' ∈ s.effects, e'.id ≠ e.id ∧ outstanding s p e' = true) ∧
        ((gate setup s e).toOption.isSome = true ∧ e.ambiguous = false ∧
            ¬ Accounted setup s.calendar p →
          ∀ e' ∈ s.effects, outcomeUnknown s e' = false) ∧
        ((gate setup s e).toOption.isSome = true ∧ e.operation ≠ .delete →
          ∀ d ∈ e.desiredState, d.provenance.generation = p.generation)
  | .resolve _ _ _ | .retryBlocked _ | .edit _ => False
  | _ => True

instance (setup : Setup) (s : State) : (event : Event) → Decidable (KeepsFlags setup s event)
  | .execute input => inferInstanceAs (Decidable ((∀ exchange ∈ input.script, exchange.edits = []) ∧
      ∀ e ∈ leasedEffect input s, ∀ p ∈ s.projection,
        (e.ambiguous = true ∧ leavesOpen setup s e p = true ∧ ¬ Accounted setup s.calendar p →
          ∃ e' ∈ s.effects, e'.id ≠ e.id ∧ outstanding s p e' = true) ∧
        ((gate setup s e).toOption.isSome = true ∧ e.ambiguous = false ∧
            ¬ Accounted setup s.calendar p →
          ∀ e' ∈ s.effects, outcomeUnknown s e' = false) ∧
        ((gate setup s e).toOption.isSome = true ∧ e.operation ≠ .delete →
          ∀ d ∈ e.desiredState, d.provenance.generation = p.generation)))
  | .resolve _ _ _ | .retryBlocked _ | .edit _ => isFalse id
  | .store _ | .beginPass | .readObservation | .reconcile _ _ _ | .lease _ | .crash _ | .loadTarget
  | .observe _ _ | .settle _ _ | .acknowledge _ | .setPaused _ _ | .setEndpoints _ _
  | .cleanup _ => isTrue trivial

/-! ## What verification has seen -/

/-- The revisions of targets have been handed out, and a lookup whose event still has the target's
revision saw that event. -/
structure Watched (s : State) : Prop where
  targets : ∀ t ∈ s.targets, ∀ r ∈ t.destinationRevision, r < s.calendar.nextRevision
  lookups : ∀ l ∈ s.lookups, ∀ r ∈ l.target.destinationRevision, r < s.calendar.nextRevision ∧
    ∀ ev ∈ s.calendar.events l.target.destinationEventId, ev.revision = r → l.observed = some ev

section Watched

variable {setup : Setup} {s s' : State}

theorem Watched.evolve (h : Watched s) (ht : s'.targets = s.targets)
    (hl : s'.lookups = s.lookups) (hc : Calendar.Evolves s.calendar s'.calendar) : Watched s' where
  targets t hmem r hr := Nat.lt_of_lt_of_le (h.targets t (ht ▸ hmem) r hr) hc.next_le
  lookups l hmem r hr := by
    obtain ⟨hlt, hseen⟩ := h.lookups l (hl ▸ hmem) r hr
    refine ⟨Nat.lt_of_lt_of_le hlt hc.next_le, fun ev hev hrev => hseen ev ?_ hrev⟩
    exact hc.old hev (hrev ▸ hlt)

theorem watched_executed (h : Watched s) {input : ExecuteInput}
    (hx : Executed setup input s s') : Watched s' := by
  cases hx with
  | idle => exact h
  | stopped e he outcome hg s' hs' =>
    rcases hs' with rfl | hrec
    · exact h.evolve rfl rfl (Calendar.Evolves.refl _)
    · have hr := record_recorded hrec
      exact h.evolve hr.targets hr.lookups (hr.calendar ▸ Calendar.Evolves.refl _)
  | ran e he p hg session ended hrun s' hs' =>
    have hevolves := (ran_concluded hrun).evolves
    rcases hs' with rfl | hrec
    · exact h.evolve rfl rfl hevolves
    · have hr := record_recorded hrec
      exact h.evolve hr.targets hr.lookups (hr.calendar ▸ hevolves)

theorem watched_stepped (h : Watched s) (hst : Stamped s) {event : Event}
    (hs : Stepped setup s event s') : Watched s' := by
  have hsame := Calendar.Evolves.refl s.calendar
  cases hs with
  | rest _ _ hp he hc ht hl hcr hpol hr ho => exact h.evolve ht hl (hc ▸ hsame)
  | touched _ effects htouched policyStatus hpol jobs => exact h.evolve rfl rfl hsame
  | loaded target htarget =>
    refine ⟨fun t hmem r hr => ?_, h.lookups⟩
    rcases List.mem_cons.1 hmem with rfl | hmem
    · obtain ⟨p, hp, -, -, -, -, -, -, -, hetag, -⟩ := loadTarget_some htarget
      exact hst.etag p hp r (hetag ▸ hr)
    · exact h.targets t hmem r hr
  | observed target htarget reply =>
    refine ⟨h.targets, fun l hmem r hr => ?_⟩
    rcases List.mem_cons.1 hmem with rfl | hmem
    · exact ⟨h.targets target htarget r hr, fun ev hev _ => hev⟩
    · exact h.lookups l hmem r hr
  | edited edit => exact h.evolve rfl rfl (Calendar.Evolves.apply _ edit)
  | executed input hfresh _ hx => exact watched_executed h hx
  | reconciled ctx o ins ho hpass hfresh _ hr => cases hr <;> exact h.evolve rfl rfl hsame
  | settled lookup input hl hfresh _ hset => cases hset <;> exact h.evolve rfl rfl hsame
  | resolved notice action input hfresh _ hr => cases hr <;> exact h.evolve rfl rfl hsame
  | retried input hfresh _ hr => cases hr <;> exact h.evolve rfl rfl hsame

end Watched

/-! ## Events and effects of a generation -/

/-- Every event under an ID of the projection was created under it. -/
def Originated (setup : Setup) (c : Calendar) : Prop :=
  ∀ g, ∀ ev ∈ c.events (managedEventId setup.projectionId g),
    managedEventId setup.projectionId g ∈ c.created

/-- No effect is ahead of the projection, and an update of its generation is of an event that it
names. -/
def Timely (s : State) : Prop :=
  ∀ p ∈ s.projection, ∀ e ∈ s.effects, ∀ d ∈ e.desiredState,
    d.provenance.generation ≤ p.generation ∧
      (e.operation = .update → d.provenance.generation = p.generation →
        p.destinationEventId ≠ none)

section Generations

variable {setup : Setup} {s s' : State} {p p' : ProjectionRow} {e : EffectRow} {c c' : Calendar}

theorem originated_perform (h : Originated setup c) {request : Request}
    (hok : c.perform request = .ok c') : Originated setup c' := by
  intro g ev hev
  cases request with
  | create id payload =>
    obtain ⟨-, rfl⟩ := perform_create hok
    by_cases hid : managedEventId setup.projectionId g = id
    · rw [hid]
      exact List.mem_cons_self
    · rw [Calendar.consume_events, Calendar.put_of_ne c _ hid] at hev
      exact List.mem_cons_of_mem _ (h g ev hev)
  | update id expected payload =>
    obtain ⟨old, hold, -, rfl⟩ := perform_update hok
    by_cases hid : managedEventId setup.projectionId g = id
    · exact h g old (hid ▸ hold)
    · rw [Calendar.put_of_ne c _ hid] at hev
      exact h g ev hev
  | delete id expected =>
    obtain ⟨_, -, -, rfl⟩ := perform_delete hok
    by_cases hid : managedEventId setup.projectionId g = id
    · rw [hid, Calendar.remove_self] at hev
      cases hev
    · rw [Calendar.remove_of_ne c hid] at hev
      exact h g ev hev

theorem Undisturbed.originated {ended : ProviderOutcome}
    (h : Undisturbed setup p e c c' ended) (hor : Originated setup c) : Originated setup c' := by
  cases h with
  | raised | missing | mismatch | vacant | rejected => exact hor
  | written request payload hr hpay after h => exact originated_perform hor h
  | removed expected hop hr after h => exact originated_perform hor h
  | lost request hr after h => exact originated_perform hor h

theorem originated_stepped (h : Originated setup s.calendar) {event : Event}
    (hok : KeepsFlags setup s event) (hs : Stepped setup s event s') :
    Originated setup s'.calendar := by
  cases hs with
  | rest _ _ hp he hc ht hl hcr hpol hr ho => exact hc ▸ h
  | touched | loaded | observed => exact h
  | edited edit => exact absurd hok id
  | reconciled ctx o ins ho hpass hfresh _ hr => cases hr <;> exact h
  | executed input hfresh _ hx =>
    cases hx with
    | idle => exact h
    | stopped e he outcome hg s' hs' =>
      rcases hs' with rfl | hrec
      · exact h
      · exact (record_recorded hrec).calendar ▸ h
    | ran e he p hg session ended hrun s' hs' =>
      have hor := ((ran_concluded hrun).undisturbed hok.1).originated h
      rcases hs' with rfl | hrec
      · exact hor
      · exact (record_recorded hrec).calendar ▸ hor
  | settled lookup input hl hfresh _ hset => cases hset <;> exact h
  | resolved notice action input hfresh _ hr => exact absurd hok id
  | retried input hfresh _ hr => exact absurd hok id

theorem Timely.advance (h : Timely s) (hp : s.projection = some p) (hp' : s'.projection = some p')
    (hrow : (p'.generation = p.generation ∧
        (p.destinationEventId ≠ none → p'.destinationEventId ≠ none)) ∨
      p.generation < p'.generation)
    (heff : ∀ e' ∈ s'.effects,
      (∃ e ∈ s.effects, e'.desiredState = e.desiredState ∧ e'.operation = e.operation) ∨
      ∀ d ∈ e'.desiredState, d.provenance.generation = p'.generation ∧
        (e'.operation = .update → p'.destinationEventId ≠ none)) : Timely s' := by
  intro q hq e' he' d hd
  rw [hp', Option.mem_def, Option.some.injEq] at hq
  subst hq
  rcases heff e' he' with ⟨e, he, hdes, hop⟩ | hnew
  · obtain ⟨hle, hupd⟩ := h p hp e he d (hdes ▸ hd)
    rw [hop]
    rcases hrow with ⟨hgen, hdest⟩ | hlt
    · rw [hgen]
      exact ⟨hle, fun hup heq => hdest (hupd hup heq)⟩
    · refine ⟨Nat.le_of_lt (Nat.lt_of_le_of_lt hle hlt), fun _ heq => ?_⟩
      exact absurd (heq ▸ hlt) (Nat.not_lt.2 hle)
  · exact ⟨Nat.le_of_eq (hnew d hd).1, fun hup _ => (hnew d hd).2 hup⟩

theorem Timely.evolve (h : Timely s) (hp : s'.projection = s.projection)
    (heff : ∀ e' ∈ s'.effects,
      ∃ e ∈ s.effects, e'.desiredState = e.desiredState ∧ e'.operation = e.operation) :
    Timely s' := by
  intro q hq e' he' d hd
  obtain ⟨e, he, hdes, hop⟩ := heff e' he'
  rw [hop]
  exact h q (hp ▸ hq) e he d (hdes ▸ hd)

theorem timely_reconciled (h : Timely s) (hcoh : Coherent setup s) {ctx : PassContext}
    {o : ObservationRow} {ins : Insertion} (hr : Reconciled setup ctx o ins s s') : Timely s' := by
  have hkeep : ∀ e' ∈ s.effects,
      ∃ e ∈ s.effects, e'.desiredState = e.desiredState ∧ e'.operation = e.operation :=
    fun e' he' => ⟨e', he', rfl, rfl⟩
  cases hr with
  | absent hnone hop => exact h
  | shadowed p hp hb =>
    exact h.advance hp rfl (Or.inl ⟨rfl, fun hd => hd⟩) fun e' he' => Or.inl (hkeep e' he')
  | settled p hp hb hop =>
    exact h.advance hp rfl (Or.inl ⟨rfl, fun hd => hd⟩) fun e' he' => Or.inl (hkeep e' he')
  | queued p' operation hp' hop effects heff =>
    rcases hp' with ⟨hnone, rfl⟩ | ⟨p, hp, hb, rfl⟩
    · rw [hnone] at hop
      intro q hq e' he' d hd
      cases hq
      have hrow : e' = intentFor setup ctx o ins operation
          (newProjection setup o (evaluate setup ctx o none)) := by
        rcases heff with rfl | ⟨rfl, -⟩
        · simpa [hcoh.orphans hnone] using he'
        · simp [hcoh.orphans hnone] at he'
      subst hrow
      have hcopy : (evaluate setup ctx o none).desiredCopy = some d :=
        (newProjection_desiredState setup o).symm.trans hd
      refine ⟨by rw [(evaluate_copy hcopy).2]; exact Nat.le_refl 1, fun hup => ?_⟩
      have hupdate : (evaluate setup ctx o none).operation = .update := by
        have hop' : operation = .update := hup
        subst hop'
        cases hev : (evaluate setup ctx o none).operation <;> simp [hev, Operation.ofEvaluation] at hop
        rfl
      obtain ⟨_, hsome, -⟩ := evaluate_update hupdate
      cases hsome
    · rw [hp] at hop
      refine h.advance hp rfl (Or.inl ⟨rfl, fun hd => hd⟩) fun e' he' => ?_
      have hcase : e' ∈ s.effects ∨ e' = intentFor setup ctx o ins operation
          (refresh setup o (evaluate setup ctx o (some p)) p) := by
        rcases heff with rfl | ⟨rfl, -⟩
        · simpa using he'
        · exact Or.inl he'
      rcases hcase with he' | rfl
      · exact Or.inl (hkeep e' he')
      · refine Or.inr fun d hd => ?_
        have hcopy : (evaluate setup ctx o (some p)).desiredCopy = some d :=
          (refresh_desiredState setup o p).symm.trans hd
        refine ⟨congrArg Provenance.generation (evaluate_copy hcopy).2, fun hup => ?_⟩
        have hupdate : (evaluate setup ctx o (some p)).operation = .update := by
          have hop' : operation = .update := hup
          subst hop'
          cases hev : (evaluate setup ctx o (some p)).operation <;>
            simp [hev, Operation.ofEvaluation] at hop
          rfl
        obtain ⟨_, hsome, hdest⟩ := evaluate_update hupdate
        cases hsome
        exact hdest

theorem effectAfter_intent (input : ExecuteInput) (outcome : Outcome) (e : EffectRow) :
    (effectAfter input outcome e).desiredState = e.desiredState ∧
      (effectAfter input outcome e).operation = e.operation := by
  cases outcome <;> exact ⟨rfl, rfl⟩

theorem timely_recorded (h : Timely s) (hcoh : Coherent setup s) (hp : s.projection = some p)
    {input : ExecuteInput} {outcome : Outcome} {c : Calendar} (he : e ∈ s.effects)
    (hrow : (∃ d, outcome = .replaced d ∧ d.provenance.generation = p.generation + 1) ∨
      (∀ d, outcome ≠ .replaced d) ∧
        (e.operation ≠ .delete → ∀ remote, outcome = .succeeded remote → remote ≠ none))
    (hr : Recorded input e outcome { s with calendar := c } s') : Timely s' := by
  have hproj := hr.projection_some hp
  refine h.advance hp hproj ?_ fun e' he' => ?_
  · rcases hrow with ⟨d, rfl, -⟩ | ⟨hrep, hsucc⟩
    · exact Or.inr (Nat.lt_succ_self _)
    · cases outcome with
      | replaced d => exact absurd rfl (hrep d)
      | succeeded remote =>
        by_cases hop : e.operation = .delete
        · exact Or.inr (by simp [projectionAfter, succeedProjection, hop])
        · refine Or.inl ⟨by simp [projectionAfter, succeedProjection], fun _ => ?_⟩
          obtain ⟨written, hw⟩ := Option.ne_none_iff_exists'.1 (hsucc hop remote rfl)
          simp [projectionAfter, succeedProjection, hw]
      | _ => exact Or.inl ⟨rfl, fun hd => hd⟩
  · rcases hr.mem_effects hcoh.ids he he' with rfl | ⟨he', -⟩ | hins
    · exact Or.inl ⟨e, he, effectAfter_intent input outcome e⟩
    · exact Or.inl ⟨e', he', rfl, rfl⟩
    · rcases hrow with ⟨d, rfl, hgen⟩ | ⟨hrep, -⟩
      · rw [insertedAfter, show ({ s with calendar := c } : State).projection = some p from hp,
          Option.map_some, Option.toList_some, List.mem_singleton] at hins
        subst hins
        refine Or.inr fun d' hd' => ⟨?_, fun hup => by cases hup⟩
        cases hd'
        exact hgen
      · cases outcome with
        | replaced d => exact absurd rfl (hrep d)
        | _ => cases hins

end Generations

/-! ## The invariant -/

/-- An effect with an unknown outcome keeps verification away. -/
def Outstanding (s : State) (p : ProjectionRow) : Prop :=
  ∃ e ∈ s.effects, outstanding s p e = true

/-- The event of the projection's generation carries its markers, the destination is as the row says
or an effect is outstanding, and nothing is held. -/
structure Consistent (setup : Setup) (s : State) : Prop where
  owned : ∀ p ∈ s.projection,
    ∀ ev ∈ s.calendar.events (managedEventId setup.projectionId p.generation),
      belongs setup p ev = true
  accounted : ∀ p ∈ s.projection, Accounted setup s.calendar p ∨ Outstanding s p
  unheld : Unheld s

section Consistent

variable {setup : Setup} {s s' : State} {p p' : ProjectionRow} {e : EffectRow} {c c' : Calendar}

theorem outstanding_iff : outstanding s p e = true ↔
    outcomeUnknown s e = true ∧ (e.unfinished = true ∨ p.status ≠ .converged) := by
  simp [outstanding]

theorem consistent_of (hp : s'.projection = some p')
    (howned : ∀ ev ∈ s'.calendar.events (managedEventId setup.projectionId p'.generation),
      belongs setup p' ev = true)
    (hacc : Accounted setup s'.calendar p' ∨ Outstanding s' p')
    (hun : p'.ownership ≠ .ambiguous ∧ p'.status ≠ .held) : Consistent setup s' where
  owned q hq := by
    rw [hp, Option.mem_def, Option.some.injEq] at hq
    exact hq ▸ howned
  accounted q hq := by
    rw [hp, Option.mem_def, Option.some.injEq] at hq
    exact hq ▸ hacc
  unheld q hq := by
    rw [hp, Option.mem_def, Option.some.injEq] at hq
    exact hq ▸ hun

theorem belongs_congr (hgen : p'.generation = p.generation) (ev : RemoteEvent) :
    belongs setup p' ev = belongs setup p ev := by
  unfold belongs
  rw [hgen]

theorem accounted_congr (hdest : p'.destinationEventId = p.destinationEventId)
    (hetag : p'.destinationEtag = p.destinationEtag) (hgen : p'.generation = p.generation) :
    Accounted setup c p' ↔ Accounted setup c p := by
  unfold Accounted
  rw [hdest, hetag, hgen]

/-- A step that keeps the calendar and what the row says about it. -/
theorem Consistent.keep (h : Consistent setup s) (hp : s.projection = some p)
    (hp' : s'.projection = some p') (hdest : p'.destinationEventId = p.destinationEventId)
    (hetag : p'.destinationEtag = p.destinationEtag) (hgen : p'.generation = p.generation)
    (hc : s'.calendar = s.calendar) (hun : p'.ownership ≠ .ambiguous ∧ p'.status ≠ .held)
    (hout : ¬ Accounted setup s.calendar p → Outstanding s p → Outstanding s' p') :
    Consistent setup s' := by
  refine consistent_of hp' (fun ev hev => ?_) ?_ hun
  · rw [hc, hgen] at hev
    rw [belongs_congr hgen]
    exact h.owned p hp ev hev
  · rw [hc, accounted_congr hdest hetag hgen]
    by_cases hacc : Accounted setup s.calendar p
    · exact Or.inl hacc
    · exact Or.inr (hout hacc ((h.accounted p hp).resolve_left hacc))

theorem Consistent.evolve (h : Consistent setup s) (hp : s'.projection = s.projection)
    (hc : s'.calendar = s.calendar) (hout : ∀ p, Outstanding s p → Outstanding s' p) :
    Consistent setup s' where
  owned q hq := by
    rw [hc]
    exact h.owned q (hp ▸ hq)
  accounted q hq := by
    rw [hc]
    exact (h.accounted q (hp ▸ hq)).imp_right (hout q)
  unheld q hq := h.unheld q (hp ▸ hq)

/-- A row under a generation that has not been used. -/
theorem consistent_of_unused (hor : Originated setup s'.calendar) (hp : s'.projection = some p')
    (hdest : p'.destinationEventId = none)
    (hnew : managedEventId setup.projectionId p'.generation ∉ s'.calendar.created)
    (hun : p'.ownership ≠ .ambiguous ∧ p'.status ≠ .held) : Consistent setup s' := by
  refine consistent_of hp (fun ev hev => absurd (hor _ ev hev) hnew) (Or.inl ⟨?_, ?_⟩) hun
  · intro id hid
    rw [hdest] at hid
    cases hid
  · exact fun _ _ => hnew

/-! ### Passes -/

theorem consistent_reconciled (h : Consistent setup s) (hnum : Numbered setup s)
    (hor : Originated setup s.calendar) {ctx : PassContext} {o : ObservationRow} {ins : Insertion}
    (hr : Reconciled setup ctx o ins s s') : Consistent setup s' := by
  cases hr with
  | absent hnone hop => exact h
  | shadowed p hp hb =>
    obtain ⟨hown, hstatus⟩ := h.unheld p hp
    have hfailed : (shadowRefresh setup o (evaluate setup ctx o (some p))
        (blockingDeadEffect s.effects) p).status = .failed := by
      simp [shadowRefresh, hown, isDestinationEditHold, hstatus]
    refine h.keep hp rfl rfl rfl rfl rfl ⟨hown, by simp [hfailed]⟩ fun _ ⟨e, he, hout⟩ => ?_
    exact ⟨e, he, outstanding_iff.2 ⟨(outstanding_iff.1 hout).1, Or.inr (by simp [hfailed])⟩⟩
  | settled p hp hb hop =>
    obtain ⟨hown, -⟩ := h.unheld p hp
    refine h.keep hp rfl rfl rfl rfl rfl ⟨hown, ?_⟩ fun _ ⟨e, he, hout⟩ => ?_
    · simp only [refresh, hop, if_true, settledStatus, evaluate_selection_ne_held, if_false]
      split <;> simp
    · -- No effect has died, so the one that is outstanding is under way.
      have hnone : blockingDeadEffect s.effects = none := by
        simp only [blocked, Bool.or_eq_false_iff] at hb
        simpa using hb.1.1
      have hunknown := (outstanding_iff.1 hout).1
      refine ⟨e, he, outstanding_iff.2 ⟨hunknown, Or.inl ?_⟩⟩
      rcases state_ne_succeeded_iff.1 (outcomeUnknown_iff.1 hunknown).1 with hun | hdead
      · exact hun
      · refine absurd ?_ (blockingDeadEffect_eq_none hnone e he)
        simpa [EffectRow.dead] using hdead
  | queued p' operation hp' hop effects heff =>
    have hpending := queued_pending hp' hop
    rcases hp' with ⟨hnone, rfl⟩ | ⟨p, hp, hb, rfl⟩
    · refine consistent_of_unused hor rfl rfl (fun hused => ?_) ⟨by simp, by simp [hpending]⟩
      obtain ⟨q, hq, -⟩ := hnum.created_le _ hused
      rw [hnone] at hq
      cases hq
    · refine h.keep hp rfl rfl rfl rfl rfl ⟨(h.unheld p hp).1, by simp [hpending]⟩
        fun _ ⟨e, he, hout⟩ => ⟨e, ?_, ?_⟩
      · rcases heff with rfl | ⟨rfl, -⟩
        · exact List.mem_append_left _ he
        · exact he
      · exact outstanding_iff.2 ⟨(outstanding_iff.1 hout).1, Or.inr (by simp [hpending])⟩

/-! ### Verification -/

/-- A lookup of a projection that has not moved shows the event as it was left. -/
theorem settled_unchanged (h : Consistent setup s) (hnum : Numbered setup s) (hw : Watched s)
    {lookup : Lookup} {input : SettleInput} (hl : lookup ∈ s.lookups)
    (hset : Settled setup input lookup s s') : s' = s := by
  have hseen : ∀ {p}, s.projection = some p → unmoved setup lookup.target s p = true →
      ∃ ev, lookup.observed = some ev ∧ some ev.revision = lookup.target.destinationRevision ∧
        eventBelongsToProjection ev setup.policyId setup.projectionId
          lookup.target.generation = true := by
    intro p hp hun
    have hsame := unmoved_spec hun
    have hacc : Accounted setup s.calendar p := by
      refine (h.accounted p hp).resolve_right ?_
      rintro ⟨e, he, hout⟩
      rcases (outstanding_iff.1 hout).2 with hrun | hstatus
      · rw [hsame.idle e he] at hrun
        cases hrun
      · exact hstatus hsame.status
    obtain ⟨ev, hev, hrev⟩ := hacc.1 _ hsame.destinationEventId
    rw [hsame.destinationEtag] at hrev
    have hobs := (hw.lookups lookup hl ev.revision hrev).2 ev hev rfl
    refine ⟨ev, hobs, hrev.symm, ?_⟩
    rw [hnum.named p hp _ hsame.destinationEventId] at hev
    exact hsame.generation ▸ h.owned p hp ev hev
  have hshows : ∀ {p observed revision}, s.projection = some p →
      unmoved setup lookup.target s p = true → ¬ lookup.Shows setup observed revision := by
    intro p observed revision hp hun hshow
    obtain ⟨ev, hobs, hrev, -⟩ := hseen hp hun
    cases observed with
    | missing =>
      rw [hshow.2] at hobs
      cases hobs
    | drifted =>
      obtain ⟨ev', hobs', -, -, hne⟩ := hshow
      rw [hobs, Option.some.injEq] at hobs'
      exact hne (hobs' ▸ hrev)
  cases hset with
  | unchanged => rfl
  | repaired p hp hun observed revision hshow => exact absurd hshow (hshows hp hun)
  | editHeld p hp hun observed revision hshow => exact absurd hshow (hshows hp hun)
  | mismatchHeld p hp hun event hobs hown =>
    obtain ⟨ev, hobs', -, hbelongs⟩ := hseen hp hun
    rw [hobs, Option.some.injEq] at hobs'
    rw [← hobs', hown] at hbelongs
    cases hbelongs

/-! ### Executions -/

/-- The write of a copy of the projection's generation leaves its markers. -/
theorem Undisturbed.owned {ended : ProviderOutcome} (h : Undisturbed setup p e c c' ended)
    (hmade : Made setup e.sourceBasisHash e.desiredState)
    (hgen : e.operation ≠ .delete → ∀ d ∈ e.desiredState, d.provenance.generation = p.generation)
    (hold : ∀ ev ∈ c.events (executionEventId setup p), belongs setup p ev = true) :
    ∀ ev ∈ c'.events (executionEventId setup p), belongs setup p ev = true := by
  have hbody : ∀ {payload : Payload}, e.operation ≠ .delete →
      e.desiredState = some payload.desired →
      ∀ r, belongs setup p ⟨payload.body, r⟩ = true := by
    intro payload hop hd r
    obtain ⟨o, -, hprod⟩ := hmade payload.desired hd
    have hprov := hprod.provenance
    rw [hgen hop payload.desired hd] at hprov
    unfold belongs eventBelongsToProjection
    rw [serialize_identity payload.serialized, hprov]
    exact decide_eq_true rfl
  have hperform : ∀ {request : Request}, Caused setup p e c request →
      c.perform request = .ok c' →
      ∀ ev ∈ c'.events (executionEventId setup p), belongs setup p ev = true := by
    rintro request ⟨session, -, hauth⟩ hok ev hev
    cases hauth with
    | createAbsent payload hd hop hflag habsent =>
      obtain ⟨-, rfl⟩ := perform_create hok
      rw [Calendar.consume_events, Calendar.put_self, Option.mem_def, Option.some.injEq] at hev
      exact hev ▸ hbody (by simp [hop]) hd _
    | createUnnamed payload hd hop hdest =>
      obtain ⟨-, rfl⟩ := perform_create hok
      rw [Calendar.consume_events, Calendar.put_self, Option.mem_def, Option.some.injEq] at hev
      exact hev ▸ hbody (by simp [hop]) hd _
    | rewrite payload found hd hop hfound hown =>
      obtain ⟨_, -, -, rfl⟩ := perform_update hok
      rw [Calendar.put_self, Option.mem_def, Option.some.injEq] at hev
      exact hev ▸ hbody hop hd _
    | trusted payload id hd hop hflag hdest =>
      obtain ⟨_, -, -, rfl⟩ := perform_update hok
      rw [executionEventId_of_dest hdest, Calendar.put_self, Option.mem_def,
        Option.some.injEq] at hev
      exact hev ▸ hbody (by simp [hop]) hd _
    | removeFound found hop hflag hfound hown =>
      obtain ⟨_, -, -, rfl⟩ := perform_delete hok
      rw [Calendar.remove_self] at hev
      cases hev
    | removeTrusted id hop hflag hdest =>
      obtain ⟨_, -, -, rfl⟩ := perform_delete hok
      rw [executionEventId_of_dest hdest, Calendar.remove_self] at hev
      cases hev
  cases h with
  | raised | missing | mismatch | vacant | rejected => exact hold
  | written request payload hr hpay after h => exact hperform hr h
  | removed expected hop hr after h => exact hperform hr h
  | lost request hr after h => exact hperform hr h

/-- No request is refused: what is trusted is so, and what was read is current. -/
theorem Caused.not_rejected (hnum : executionEventId setup p =
      managedEventId setup.projectionId p.generation)
    (hacc : e.ambiguous = false → Accounted setup c p)
    (hupd : ∀ d ∈ e.desiredState, e.operation = .update → p.destinationEventId ≠ none)
    {request : Request} (h : Caused setup p e c request) {status : Nat} :
    c.perform request ≠ .error status := by
  obtain ⟨session, harrival, hauth⟩ := h
  have htrust : ∀ id, e.ambiguous = false → p.destinationEventId = some id →
      ∃ ev, c.events id = some ev ∧ ∀ r, p.destinationEtag = some r → ev.revision = r := by
    intro id hflag hdest
    obtain ⟨ev, hev, hetag⟩ := (hacc hflag).1 id hdest
    refine ⟨ev, hev, fun r hr => ?_⟩
    rw [hetag, Option.some.injEq] at hr
    exact hr
  cases hauth with
  | createAbsent payload hd hop hflag habsent =>
    rw [harrival] at habsent
    cases hdest : p.destinationEventId with
    | some id =>
      obtain ⟨ev, hev, -⟩ := htrust id hflag hdest
      rw [executionEventId_of_dest hdest, hev] at habsent
      cases habsent
    | none =>
      have hnew := (hacc hflag).2 hdest (hnum ▸ habsent)
      rw [perform_create_fresh habsent (hnum ▸ hnew)]
      simp
  | createUnnamed payload hd hop hdest => exact absurd hdest (hupd payload.desired hd hop)
  | rewrite payload found hd hop hfound hown =>
    rw [perform_update_current hfound (fun r hr => by cases hr; rfl)]
    simp
  | trusted payload id hd hop hflag hdest =>
    obtain ⟨ev, hev, hetag⟩ := htrust id hflag hdest
    rw [perform_update_current hev hetag]
    simp
  | removeFound found hop hflag hfound hown =>
    rw [perform_delete_current hfound (fun r hr => by cases hr; rfl)]
    simp
  | removeTrusted id hop hflag hdest =>
    obtain ⟨ev, hev, hetag⟩ := htrust id hflag hdest
    rw [perform_delete_current hev hetag]
    simp

/-- An effect that is given up leaves the difference to another one. -/
theorem outstanding_of_given_up (hcoh : Coherent setup s) (hp : s.projection = some p)
    {input : ExecuteInput} {outcome : Outcome} (he : leasedEffect input s = some e)
    (hok : KeepsFlags setup s (.execute input)) (hopen : leavesOpen setup s e p = true)
    (hr : Recorded input e outcome s s') (hstatus : p'.status = .converged → p.status = .converged)
    (hacc : ¬ Accounted setup s.calendar p) (hout : Outstanding s p) : Outstanding s' p' := by
  have hleased := leasedEffect_isLeased he
  have hother : ∃ e' ∈ s.effects, e'.id ≠ e.id ∧ outstanding s p e' = true := by
    obtain ⟨e₁, he₁, hout₁⟩ := hout
    by_cases hid : e₁.id = e.id
    · rw [eq_of_id_eq hcoh.ids he₁ hleased.mem hid] at hout₁
      have hflag := hleased.outcomeUnknown (outstanding_iff.1 hout₁).1
      exact (hok.2 e he p hp).1 ⟨hflag, hopen, hacc⟩
    · exact ⟨e₁, he₁, hid, hout₁⟩
  obtain ⟨e', he', hne, hout'⟩ := hother
  obtain ⟨hunknown, hkeeps⟩ := outstanding_iff.1 hout'
  refine ⟨e', hr.mem_of_ne he' hne, outstanding_iff.2 ⟨?_, hkeeps.imp_right fun h => mt hstatus h⟩⟩
  exact outcomeUnknown_mono (by simp [hr.crashed]) hunknown

/-- A failed effect keeps its flag, and the projection is not converged. -/
theorem consistent_failed (h : Consistent setup s) (hcoh : Coherent setup s)
    (hp : s.projection = some p) {input : ExecuteInput} {error : ProviderError}
    (hleased : IsLeased input s e) (hr : Recorded input e (.failed error) s s') :
    Consistent setup s' := by
  have hproj := hr.projection_some hp
  have hstatus : (projectionAfter e (.failed error) p).status ≠ .converged ∧
      (projectionAfter e (.failed error) p).status ≠ .held := by
    simp only [projectionAfter, failProjection]
    split <;> simp
  refine h.keep hp hproj rfl rfl rfl hr.calendar ⟨(h.unheld p hp).1, hstatus.2⟩ ?_
  rintro - ⟨e₁, he₁, hout⟩
  have hunknown := (outstanding_iff.1 hout).1
  have hleft : UnknownLeft s' := by
    by_cases hid : e₁.id = e.id
    · rw [eq_of_id_eq hcoh.ids he₁ hleased.mem hid] at hunknown
      refine hr.unknown_of_flagged hleased.mem ?_ ?_
      · simp only [effectAfter, failEffect, closeEffect]
        split <;> simp
      · simp [effectAfter, failEffect, closeEffect, hleased.outcomeUnknown hunknown]
    · exact hr.unknown_of_ne he₁ hid hunknown
  obtain ⟨e', he', hun'⟩ := hleft
  exact ⟨e', he', outstanding_iff.2 ⟨hun', Or.inr hstatus.1⟩⟩

theorem consistent_stopped (h : Consistent setup s) (hcoh : Coherent setup s)
    {input : ExecuteInput} {outcome : Outcome} (he : leasedEffect input s = some e)
    (hg : gate setup s e = .error outcome) (hok : KeepsFlags setup s (.execute input))
    (hr : Recorded input e outcome s s') : Consistent setup s' := by
  have hleased := leasedEffect_isLeased he
  cases hp : s.projection with
  | none =>
    have hmem := hleased.mem
    rw [hcoh.orphans hp] at hmem
    cases hmem
  | some p =>
    have hproj := hr.projection_some hp
    cases gate_error hg with
    | deleted hdel =>
      have hmem := hleased.mem
      rw [(hcoh.deleted hdel).2.2] at hmem
      cases hmem
    | failed error hretry hamb => exact consistent_failed h hcoh hp hleased hr
    | deferred reason _ =>
      refine h.keep hp hproj rfl rfl rfl hr.calendar (h.unheld p hp) ?_
      exact outstanding_of_given_up hcoh hp he hok (by simp [leavesOpen, gate_deferred hg]) hr
        fun hconv => hconv
    | basisChanged =>
      refine h.keep hp hproj rfl rfl rfl hr.calendar ⟨(h.unheld p hp).1, by simp [projectionAfter]⟩ ?_
      exact outstanding_of_given_up hcoh hp he hok (by simp [leavesOpen, gate_basisChanged hg]) hr
        fun hconv => by cases hconv

theorem replacementDesired_error {error : ProviderError}
    (h : replacementDesired setup p e = .error error) : error.code ≠ .preconditionFailed := by
  unfold replacementDesired at h
  split at h
  · cases h
    simp [invalidDesiredState]
  · cases h
    simp [invalidDesiredState]
  · split at h
    · cases h
    · cases h
      simp [staleMissingRepair]

theorem caught_eq_failed {error : ProviderError} (h : error.code ≠ .preconditionFailed) :
    caught error = .failed error := if_neg h

/-- A generation that is new with an outcome has not been used. -/
theorem consistent_bumped (hnum : Numbered setup s) (hp : s.projection = some p)
    (hor : Originated setup s'.calendar) (hp' : s'.projection = some p')
    (hdest : p'.destinationEventId = none) (hgen : p'.generation = p.generation + 1)
    (hcr : s'.calendar.created = s.calendar.created)
    (hun : p'.ownership ≠ .ambiguous ∧ p'.status ≠ .held) : Consistent setup s' := by
  refine consistent_of_unused hor hp' hdest (fun hused => ?_) hun
  rw [hcr, hgen] at hused
  exact absurd (hnum.le hp hused) (Nat.not_succ_le_self _)

/-- An effect that is not ambiguous runs only where the destination is as the row says. -/
theorem Consistent.accounted_of_known (h : Consistent setup s) {input : ExecuteInput}
    (he : leasedEffect input s = some e) (hg : gate setup s e = .ok p)
    (hok : KeepsFlags setup s (.execute input)) (hflag : e.ambiguous = false) :
    Accounted setup s.calendar p := by
  have hp := (gate_ok hg).projection
  have hpass : (gate setup s e).toOption.isSome = true := by
    rw [hg]
    rfl
  by_contra hno
  obtain ⟨e', he', hout⟩ := (h.accounted p hp).resolve_left hno
  have hknown := (hok.2 e he p hp).2.1 ⟨hpass, hflag, hno⟩ e' he'
  rw [(outstanding_iff.1 hout).1] at hknown
  cases hknown

/-- The event has been removed. -/
theorem consistent_removed (hnum : Numbered setup s) (hp : s.projection = some p)
    (hor : Originated setup s'.calendar) (hop : e.operation = .delete)
    (hp' : s'.projection = some (projectionAfter e (.succeeded none) p))
    (hcr : s'.calendar.created = s.calendar.created) (hown : p.ownership ≠ .ambiguous) :
    Consistent setup s' := by
  refine consistent_bumped hnum hp hor hp' ?_ ?_ hcr ?_
  · simp [projectionAfter, succeedProjection, hop]
  · simp [projectionAfter, succeedProjection, hop]
  · simpa [projectionAfter, succeedProjection, hop] using hown

/-- The event has been written, and the row names it. -/
theorem consistent_written {id : EventId} {r : Revision} {body : EventBody} (hop : e.operation ≠ .delete)
    (hp' : s'.projection = some (projectionAfter e (.succeeded (some (id, r))) p))
    (howned : ∀ ev ∈ s'.calendar.events (managedEventId setup.projectionId p.generation),
      belongs setup p ev = true)
    (hev : s'.calendar.events id = some ⟨body, r⟩) : Consistent setup s' := by
  have hrow : projectionAfter e (.succeeded (some (id, r))) p =
      { p with recoveryOperation := none, destinationEventId := some id,
               destinationEtag := some r, status := .converged, ownership := .attached,
               safeErrorCode := none } := by
    simp [projectionAfter, succeedProjection]
  rw [hrow] at hp'
  refine consistent_of hp' howned (Or.inl ⟨?_, fun hnone => ?_⟩) ⟨by simp, by simp⟩
  · intro id' hid'
    cases hid'
    exact ⟨⟨body, r⟩, hev, rfl⟩
  · cases hnone

/-- The event has been written and the answer lost: the effect stands for it. -/
theorem consistent_lost {input : ExecuteInput} {error : ProviderError} (hmem : e ∈ s.effects)
    (hp : s.projection = some p)
    (hr : Recorded input e (.failed error) { s with calendar := c } s') (hcaught : caught error = .failed error)
    (hamb : error.ambiguous = true) (hown : p.ownership ≠ .ambiguous)
    (howned : ∀ ev ∈ s'.calendar.events (managedEventId setup.projectionId p.generation),
      belongs setup p ev = true) : Consistent setup s' := by
  have hstatus : (projectionAfter e (.failed error) p).status ≠ .converged ∧
      (projectionAfter e (.failed error) p).status ≠ .held := by
    simp only [projectionAfter, failProjection]
    split <;> simp
  refine consistent_of (hr.projection_some hp) howned (Or.inr ?_) ⟨hown, hstatus.2⟩
  obtain ⟨hlive, hflag⟩ := flagged_of_caught (e := e) input (Or.inr hamb)
  rw [hcaught] at hlive hflag
  obtain ⟨e', he', hun⟩ := hr.unknown_of_flagged hmem hlive hflag
  exact ⟨e', he', outstanding_iff.2 ⟨hun, Or.inr hstatus.1⟩⟩

/-- The event is missing: another effect puts it back, or a new generation does. -/
theorem consistent_missing (h : Consistent setup s) (hcoh : Coherent setup s) (hnum : Numbered setup s)
    (hor : Originated setup s'.calendar) {input : ExecuteInput} (he : leasedEffect input s = some e)
    (hg : gate setup s e = .ok p) (hok : KeepsFlags setup s (.execute input))
    (hop : e.operation ≠ .delete)
    (habsent : s.calendar.events (managedEventId setup.projectionId p.generation) = none)
    (hr : Recorded input e (conclude setup s p e .missing) s s') : Consistent setup s' := by
  have hleased := leasedEffect_isLeased he
  have hp := (gate_ok hg).projection
  have hproj := hr.projection_some hp
  obtain ⟨hown, hheld⟩ := h.unheld p hp
  simp only [conclude] at hr hproj
  split at hr
  · rename_i hany
    rw [if_pos hany] at hproj
    refine h.keep hp hproj rfl rfl rfl hr.calendar ⟨hown, hheld⟩ ?_
    refine outstanding_of_given_up hcoh hp he hok ?_ hr fun hconv => hconv
    unfold leavesOpen
    rw [hany, hg, habsent]
    simp [hop, Except.toOption]
  · rename_i hnone
    rw [if_neg hnone] at hproj
    split at hr
    · rename_i desired hrep
      rw [hrep] at hproj
      exact consistent_bumped hnum hp hor hproj rfl rfl (by rw [hr.calendar])
        ⟨hown, by simp [projectionAfter, replaceProjection]⟩
    · rename_i error hrep
      rw [caught_eq_failed (replacementDesired_error hrep)] at hr
      exact consistent_failed h hcoh hp hleased hr

theorem consistent_ran (h : Consistent setup s) (hcoh : Coherent setup s) (hnum : Numbered setup s)
    (hor : Originated setup s.calendar) (ht : Timely s) {input : ExecuteInput} {session : Session}
    {ended : ProviderOutcome} (he : leasedEffect input s = some e) (hg : gate setup s e = .ok p)
    (hok : KeepsFlags setup s (.execute input))
    (hconc : Concluded setup p e ⟨s.calendar, input.script, []⟩ session ended)
    (hr : Recorded input e (conclude setup s p e ended) { s with calendar := session.calendar } s') :
    Consistent setup s' := by
  have hleased := leasedEffect_isLeased he
  have hp := (gate_ok hg).projection
  have hexec := hnum.eventId hp
  have hpass : (gate setup s e).toOption.isSome = true := by
    rw [hg]
    rfl
  have hgen := fun hop => (hok.2 e he p hp).2.2 ⟨hpass, hop⟩
  have hend := hconc.undisturbed hok.1
  have hor' : Originated setup s'.calendar := hr.calendar ▸ hend.originated hor
  have howned := hend.owned (hcoh.effects e hleased.mem) hgen (hexec ▸ h.owned p hp)
  rw [hexec, show session.calendar = s'.calendar from hr.calendar.symm] at howned
  obtain ⟨hown, hheld⟩ := h.unheld p hp
  have hproj := hr.projection_some hp
  cases hended : ended with
  | succeeded remote =>
    subst hended
    cases remote with
    | none =>
      have hcr : session.calendar.created = s.calendar.created := by
        rcases hconc.created with hcr | ⟨-, ⟨r, hended⟩ | ⟨error, hended, -⟩⟩
        · exact hcr
        · cases hended
        · cases hended
      exact consistent_removed hnum hp hor' hconc.removed_operation hproj (by rw [hr.calendar]; exact hcr) hown
    | some written =>
      obtain ⟨id, r⟩ := written
      obtain ⟨hid, hop, -, payload, hd, hev⟩ := hconc.written_event
      exact consistent_written hop hproj howned (by rw [hr.calendar]; exact hev)
  | mismatch =>
    subst hended
    generalize hcal : session.calendar = c at *
    cases hend with
    | mismatch found hfound hforeign =>
      rw [hexec] at hfound
      rw [h.owned p hp found hfound] at hforeign
      cases hforeign
  | raised error =>
    subst hended
    generalize hcal : session.calendar = c at *
    cases hend with
    | raised _ herr =>
      rw [show conclude setup s p e _ = caught error from rfl, caught_eq_failed herr.1] at hr
      exact consistent_failed h hcoh hp hleased hr
    | lost request hcause _ hperform _ hamb hretry herr =>
      have hcaught := caught_eq_failed herr.1
      rw [show conclude setup s p e _ = caught error from rfl, hcaught] at hr
      exact consistent_lost hleased.mem hp hr hcaught hamb hown howned
    | rejected request hcause status hperform =>
      have hupd : ∀ d ∈ e.desiredState, e.operation = .update → p.destinationEventId ≠ none :=
        fun d hd hop => (ht p hp e hleased.mem d hd).2 hop (hgen (by simp [hop]) d hd)
      exact absurd hperform (hcause.not_rejected hexec (h.accounted_of_known he hg hok) hupd)
  | missing =>
    subst hended
    generalize hcal : session.calendar = c at *
    cases hend with
    | missing hop habsent hcreate hupdate =>
      rw [hexec] at habsent
      exact consistent_missing h hcoh hnum hor' he hg hok hop habsent hr

theorem consistent_executed (h : Consistent setup s) (hcoh : Coherent setup s)
    (hnum : Numbered setup s) (hor : Originated setup s.calendar) (ht : Timely s)
    {input : ExecuteInput} (hok : KeepsFlags setup s (.execute input))
    (hx : Executed setup input s s') : Consistent setup s' ∧ Timely s' := by
  have hsame : ∀ e' ∈ s.effects,
      ∃ e ∈ s.effects, e'.desiredState = e.desiredState ∧ e'.operation = e.operation :=
    fun e' he' => ⟨e', he', rfl, rfl⟩
  cases hx with
  | idle => exact ⟨h, ht⟩
  | stopped e he outcome hg s' hs' =>
    have hleased := leasedEffect_isLeased he
    rcases hs' with rfl | hrec
    · refine ⟨h.evolve rfl rfl fun p ⟨e, he, hout⟩ => ⟨e, he, ?_⟩, ht.evolve rfl hsame⟩
      obtain ⟨hun, hkeeps⟩ := outstanding_iff.1 hout
      exact outstanding_iff.2
        ⟨outcomeUnknown_mono (fun _ hmem => List.mem_cons_of_mem _ hmem) hun, hkeeps⟩
    · have hr := record_recorded hrec
      refine ⟨consistent_stopped h hcoh he hg hok hr, ?_⟩
      cases hp : s.projection with
      | none =>
        have hmem := hleased.mem
        rw [hcoh.orphans hp] at hmem
        cases hmem
      | some p =>
        have hstop := gate_error hg
        refine timely_recorded (c := s.calendar) ht hcoh hp hleased.mem (Or.inr ⟨?_, ?_⟩) hr
        · exact gateStopped_ne_replaced hstop
        · rintro - remote rfl
          cases hstop
  | ran e he p hg session ended hrun s' hs' =>
    have hleased := leasedEffect_isLeased he
    have hp := (gate_ok hg).projection
    have hconc := ran_concluded hrun
    rcases hs' with rfl | hrec
    · refine ⟨?_, ht.evolve rfl hsame⟩
      -- The worker is gone, and its effect stands for whatever it has written.
      have hexec := hnum.eventId hp
      have howned := (hconc.undisturbed hok.1).owned (hcoh.effects e hleased.mem)
        (fun hop => (hok.2 e he p hp).2.2 ⟨by rw [hg]; rfl, hop⟩) (hexec ▸ h.owned p hp)
      rw [hexec] at howned
      refine consistent_of hp howned (Or.inr ⟨e, hleased.mem, ?_⟩) (h.unheld p hp)
      refine outstanding_iff.2 ⟨outcomeUnknown_iff.2 ⟨by simp [hleased.state], Or.inr
        ⟨hleased.state, _, hleased.owner, List.mem_cons_self⟩⟩, Or.inl hleased.unfinished⟩
    · have hr := record_recorded hrec
      refine ⟨consistent_ran h hcoh hnum hor ht he hg hok hconc hr, ?_⟩
      refine timely_recorded ht hcoh hp hleased.mem ?_ hr
      by_cases hrep : ∃ d, conclude setup s p e ended = .replaced d
      · obtain ⟨d, hout⟩ := hrep
        obtain ⟨-, -, hdesired⟩ := conclude_replaced hout
        obtain ⟨desired, -, -, -, rfl⟩ := replacementDesired_ok hdesired
        exact Or.inl ⟨_, hout, rfl⟩
      · refine Or.inr ⟨not_exists.1 hrep, fun hop remote hout hnone => ?_⟩
        subst hnone
        rw [conclude_succeeded hout] at hconc
        exact hop hconc.removed_operation

/-- Everything that a run in which nobody interferes keeps. -/
structure Undrifting (setup : Setup) (s : State) : Prop where
  coherent : Coherent setup s
  stamped : Stamped s
  numbered : Numbered setup s
  watched : Watched s
  originated : Originated setup s.calendar
  timely : Timely s
  consistent : Consistent setup s

theorem consistent_stepped (h : Undrifting setup s) {event : Event}
    (hok : KeepsFlags setup s event) (hs : Stepped setup s event s') :
    Consistent setup s' ∧ Timely s' := by
  obtain ⟨hcoh, -, hnum, hw, hor, ht, hcons⟩ := h
  have hsame : ∀ e' ∈ s.effects,
      ∃ e ∈ s.effects, e'.desiredState = e.desiredState ∧ e'.operation = e.operation :=
    fun e' he' => ⟨e', he', rfl, rfl⟩
  cases hs with
  | rest _ _ hp he hc htg hl hcr hpol hr ho =>
    refine ⟨hcons.evolve hp hc fun p ⟨e, hmem, hout⟩ => ⟨e, he ▸ hmem, ?_⟩,
      ht.evolve hp (he ▸ hsame)⟩
    obtain ⟨hun, hkeeps⟩ := outstanding_iff.1 hout
    exact outstanding_iff.2 ⟨outcomeUnknown_mono hcr hun, hkeeps⟩
  | touched _ effects htouched policyStatus hpol jobs =>
    refine ⟨hcons.evolve rfl rfl fun p ⟨e, hmem, hout⟩ => ?_, ht.evolve rfl fun e' he' => ?_⟩
    · obtain ⟨hun, hkeeps⟩ := outstanding_iff.1 hout
      obtain ⟨e', he', htouch⟩ := htouched.forth e hmem (outcomeUnknown_iff.1 hun).1
      refine ⟨e', he', outstanding_iff.2 ⟨htouch.outcomeUnknown rfl hun, ?_⟩⟩
      exact hkeeps.imp_left fun hrun => htouch.unfinished ▸ hrun
    · obtain ⟨e, hmem, htouch⟩ := htouched.back e' he'
      exact ⟨e, hmem, htouch.desiredState, htouch.operation⟩
  | loaded target htarget => exact ⟨hcons.evolve rfl rfl fun _ hout => hout, ht.evolve rfl hsame⟩
  | observed target htarget reply =>
    exact ⟨hcons.evolve rfl rfl fun _ hout => hout, ht.evolve rfl hsame⟩
  | edited edit => exact absurd hok id
  | reconciled ctx o ins ho hpass hfresh _ hr =>
    exact ⟨consistent_reconciled hcons hnum hor hr, timely_reconciled ht hcoh hr⟩
  | executed input hfresh _ hx => exact consistent_executed hcons hcoh hnum hor ht hok hx
  | settled lookup input hl hfresh _ hset =>
    rw [settled_unchanged hcons hnum hw hl hset]
    exact ⟨hcons, ht⟩
  | resolved notice action input hfresh _ hr => exact absurd hok id
  | retried input hfresh _ hr => exact absurd hok id

theorem undrifting_stepped (h : Undrifting setup s) {event : Event}
    (hok : KeepsFlags setup s event) (hs : Stepped setup s event s') : Undrifting setup s' where
  coherent := coherent_stepped h.coherent hs
  stamped := stamped_stepped h.stamped hs
  numbered := numbered_stepped h.numbered hs
  watched := watched_stepped h.watched h.stamped hs
  originated := originated_stepped h.originated hok hs
  timely := (consistent_stepped h hok hs).2
  consistent := (consistent_stepped h hok hs).1

theorem undrifting_init (h : Initial setup s) : Undrifting setup s where
  coherent := coherent_init h
  stamped := stamped_init h
  numbered := numbered_init h
  watched := ⟨by simp [h.targets], by simp [h.lookups]⟩
  originated g ev hev := by
    rw [h.calendar.vacant g] at hev
    cases hev
  timely p hp := by
    rw [h.projection] at hp
    cases hp
  consistent := ⟨by simp [h.projection], by simp [h.projection], by simp [Unheld, h.projection]⟩

/-- **The service holds nothing by itself**, in every run that keeps its flags. -/
theorem no_self_holds (h : (system setup).Reachable (KeepsFlags setup) s) : Unheld s := by
  have hinv : Undrifting setup s :=
    h.invariant (fun _ => undrifting_init) fun s event hs hok =>
      undrifting_stepped hs hok (step_stepped setup s event)
  exact hinv.consistent.unheld

end Consistent

/-- The answer to an update is lost, and the next attempt reads before it writes. -/
def lostUpdate : List Event :=
  createdCopy ++ [.store (plainEvent "moved" 1 "r2")] ++ passOver (plainEvent "moved" 1 "r2") 2 ++
    [leaseBy "other" 2, executeBy "other" 2 [{ reply := .dropped true }]]

def recoveredUpdate : List Event := lostUpdate ++ [leaseBy "third" 10000, executeBy "third" 2]

/-- The plain recovery is such a run, and it ends converged. -/
theorem no_self_holds_recoveredUpdate :
    (runFrom (plainSetup .holdForReview) (startState (plainEvent "meeting" 1))
        recoveredUpdate).projection.map (·.status) = some .converged ∧
      Unheld (runFrom (plainSetup .holdForReview) (startState (plainEvent "meeting" 1))
        recoveredUpdate) :=
  ⟨by decide +kernel, no_self_holds (reachable_admitted (by decide +kernel))⟩

/-- The policy is paused before the next attempt and resumed after it. -/
def deferredUpdate : List Event :=
  lostUpdate ++ [.setPaused true 9000, leaseBy "third" 10000, executeBy "third" 2,
    .setPaused false 11000, leaseBy "fourth" 12000, executeBy "fourth" 2]

theorem deferred_update_holds :
    ¬ Unheld (runFrom plainSetup (startState (plainEvent "meeting" 1)) deferredUpdate) := by
  decide +kernel

end Planipus.Sync

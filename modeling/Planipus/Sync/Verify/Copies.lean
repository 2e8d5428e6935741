import Planipus.Sync.Verify.Quiet
import Planipus.Sync.Verify.Start

/-!
# Orphaned and duplicated copies

A create whose answer is lost leaves an event that no row names. As long as an effect of the
projection is under way, the next attempt will find it under the deterministic ID; once the last
such effect is given up, nobody will. The service gives it up in two ways: it supersedes the effect
when the source event has changed, and it takes a delete without a stored event for done
(`lost_create_orphaned`). `no_orphaned_copies` says that there are no others.
-/

namespace Planipus.Sync

open CalendarSync Provider Provider.Session Library

/-- The event carries the projection's markers, of whatever generation. -/
def carriesMarkers (setup : Setup) (ev : RemoteEvent) : Prop :=
  ∃ identity ∈ ev.body.managedIdentity, identity.projectionRef = setup.projectionId

instance (setup : Setup) (ev : RemoteEvent) : Decidable (carriesMarkers setup ev) :=
  inferInstanceAs (Decidable
    (∃ identity ∈ ev.body.managedIdentity, identity.projectionRef = setup.projectionId))

/-- No effect is unfinished, ambiguous or dead. -/
def AtRest (s : State) : Prop :=
  ∀ e ∈ s.effects, e.unfinished = false ∧ e.ambiguous = false ∧ e.dead = false

instance (s : State) : Decidable (AtRest s) :=
  inferInstanceAs (Decidable
    (∀ e ∈ s.effects, e.unfinished = false ∧ e.ambiguous = false ∧ e.dead = false))

/-- Nothing being under way, an event with the projection's markers is the one that the projection
names, and there is none when the copy counts as deleted. -/
def NoOrphans (setup : Setup) (s : State) : Prop :=
  AtRest s → ∀ id, ∀ ev ∈ s.calendar.events id, carriesMarkers setup ev →
    ∃ p ∈ s.projection, p.destinationEventId = some id ∧ p.status ≠ .deleted

/-- An event is there under the projection's ID, and the projection does not name it. -/
def unrecorded (setup : Setup) (s : State) (p : ProjectionRow) : Bool :=
  p.destinationEventId = none &&
    (s.calendar.events (managedEventId setup.projectionId p.generation)).isSome

/-- Nobody else writes the destination, and as long as an event is unrecorded and no effect has
died, an effect is superseded only if another one is left, and a delete is executed only with the
flag that makes it look. -/
def KeepsTrack (setup : Setup) (s : State) : Event → Prop
  | .execute input => (∀ exchange ∈ input.script, exchange.edits = []) ∧
      ∀ e ∈ leasedEffect input s, ∀ p ∈ s.projection,
        unrecorded setup s p = true ∧ s.hasDead = false →
          (basisOvertaken setup s e = true → ∃ e' ∈ s.effects, e'.id ≠ e.id ∧ e'.unfinished = true) ∧
          ((gate setup s e).toOption.isSome = true ∧ e.operation = .delete → e.ambiguous = true)
  | .settle _ _ | .resolve _ _ _ | .retryBlocked _ | .edit _ => False
  | _ => True

instance (setup : Setup) (s : State) : (event : Event) → Decidable (KeepsTrack setup s event)
  | .execute input => inferInstanceAs (Decidable ((∀ exchange ∈ input.script, exchange.edits = []) ∧
      ∀ e ∈ leasedEffect input s, ∀ p ∈ s.projection,
        unrecorded setup s p = true ∧ s.hasDead = false →
          (basisOvertaken setup s e = true → ∃ e' ∈ s.effects, e'.id ≠ e.id ∧ e'.unfinished = true) ∧
          ((gate setup s e).toOption.isSome = true ∧ e.operation = .delete → e.ambiguous = true)))
  | .settle _ _ | .resolve _ _ _ | .retryBlocked _ | .edit _ => isFalse id
  | .store _ | .beginPass | .readObservation | .reconcile _ _ _ | .lease _ | .crash _ | .loadTarget
  | .observe _ _ | .acknowledge _ | .setPaused _ _ | .setEndpoints _ _ | .cleanup _ => isTrue trivial

/-! ## The invariant -/

/-- An effect of the projection is under way. -/
def UnderWay (s : State) : Prop := ∃ e ∈ s.effects, e.unfinished = true

/-- Every event with the markers is named by the projection, or has the projection's ID while an
effect is under way. -/
structure Tracked (setup : Setup) (s : State) : Prop where
  named : ∀ id, ∀ ev ∈ s.calendar.events id, carriesMarkers setup ev →
    ∃ p ∈ s.projection, p.destinationEventId = some id ∨
      (p.destinationEventId = none ∧ id = managedEventId setup.projectionId p.generation ∧
        UnderWay s)
  deleted : ∀ p ∈ s.projection, p.status = .deleted → p.destinationEventId = none

section Copies

variable {setup : Setup} {s s' : State} {p p' : ProjectionRow}

theorem Tracked.noOrphans (h : Tracked setup s) : NoOrphans setup s := by
  intro hrest id ev hev hmark
  obtain ⟨p, hp, hdest | ⟨-, -, e, he, hun⟩⟩ := h.named id ev hev hmark
  · refine ⟨p, hp, hdest, fun hdel => ?_⟩
    rw [h.deleted p hp hdel] at hdest
    cases hdest
  · rw [(hrest e he).1] at hun
    cases hun

theorem Stuck.noOrphans (h : Stuck s) : NoOrphans setup s := by
  obtain ⟨e, he, hdead⟩ := h
  intro hrest
  rw [(hrest e he).2.2] at hdead
  cases hdead

/-- A step that leaves the stored event and its generation as they were. What it writes, it writes
to the event of the execution with an effect under way. -/
theorem Tracked.keep (h : Tracked setup s) (hp : s.projection = some p)
    (hp' : s'.projection = some p') (hdest : p'.destinationEventId = p.destinationEventId)
    (hgen : p'.generation = p.generation)
    (hdel : p'.status = .deleted → p'.destinationEventId = none)
    (hun : UnderWay s → UnderWay s')
    (hc : ∀ id ev, s'.calendar.events id = some ev → s.calendar.events id = some ev ∨
      (id = executionEventId setup p ∧ UnderWay s')) : Tracked setup s' where
  named id ev hev hmark := by
    refine ⟨p', hp', ?_⟩
    rw [hdest, hgen]
    rcases hc id ev hev with hold | ⟨rfl, hway⟩
    · obtain ⟨q, hq, hq'⟩ := h.named id ev hold hmark
      rw [hp, Option.mem_def, Option.some.injEq] at hq
      subst hq
      exact hq'.imp_right fun ⟨hnone, hid, hway⟩ => ⟨hnone, hid, hun hway⟩
    · cases hd : p.destinationEventId with
      | some id => exact Or.inl (congrArg some (executionEventId_of_dest hd).symm)
      | none => exact Or.inr ⟨rfl, executionEventId_of_none hd, hway⟩
  deleted q hq := by
    rw [hp', Option.mem_def, Option.some.injEq] at hq
    subst hq
    exact hdel

theorem Tracked.evolve (h : Tracked setup s) (hp : s'.projection = s.projection)
    (hc : s'.calendar = s.calendar) (hun : UnderWay s → UnderWay s') : Tracked setup s' where
  named id ev hev hmark := by
    rw [hc] at hev
    obtain ⟨q, hq, hq'⟩ := h.named id ev hev hmark
    exact ⟨q, hp ▸ hq, hq'.imp_right fun ⟨hnone, hid, hway⟩ => ⟨hnone, hid, hun hway⟩⟩
  deleted := hp ▸ h.deleted

/-- Without the event of the execution there is no event with the markers. -/
theorem Tracked.unmarked (h : Tracked setup s) (hp : s.projection = some p) {c : Calendar}
    (hc : ∀ id, id ≠ executionEventId setup p → c.events id = s.calendar.events id)
    (habsent : c.events (executionEventId setup p) = none) {id : EventId} {ev : RemoteEvent}
    (hev : c.events id = some ev) : ¬ carriesMarkers setup ev := by
  intro hmark
  have hid : id ≠ executionEventId setup p := by
    rintro rfl
    rw [habsent] at hev
    cases hev
  rw [hc id hid] at hev
  obtain ⟨q, hq, hq'⟩ := h.named id ev hev hmark
  rw [hp, Option.mem_def, Option.some.injEq] at hq
  subst hq
  rcases hq' with hdest | ⟨hnone, rfl, -⟩
  · exact hid (executionEventId_of_dest hdest).symm
  · exact hid (executionEventId_of_none hnone).symm

theorem tracked_of_unmarked (hp : s'.projection = some p')
    (hdel : p'.status = .deleted → p'.destinationEventId = none)
    (h : ∀ id ev, s'.calendar.events id = some ev → ¬ carriesMarkers setup ev) :
    Tracked setup s' where
  named id ev hev hmark := absurd hmark (h id ev hev)
  deleted q hq := by
    rw [hp, Option.mem_def, Option.some.injEq] at hq
    subst hq
    exact hdel

/-! ## Steps -/

theorem tracked_reconciled (h : Tracked setup s) {ctx : PassContext} {o : ObservationRow}
    {ins : Insertion} (hr : Reconciled setup ctx o ins s s') : Tracked setup s' := by
  cases hr with
  | absent hnone hop => exact h
  | shadowed p hp hb =>
    refine h.keep hp rfl rfl rfl (fun hdel => ?_) (fun hw => hw) fun _ _ hev => Or.inl hev
    simp only [shadowRefresh] at hdel
    split at hdel <;> cases hdel
  | settled p hp hb hop =>
    refine h.keep hp rfl rfl rfl (fun hdel => ?_) (fun hw => hw) fun _ _ hev => Or.inl hev
    simp only [refresh, hop, if_true, settledStatus, evaluate_selection_ne_held, if_false] at hdel
    split at hdel
    · rename_i hold
      exact hold.2
    · cases hdel
  | queued p' operation hp' hop effects heff =>
    have hpending := queued_pending hp' hop
    have hway : UnderWay s → ∃ e ∈ effects, e.unfinished = true := by
      rintro ⟨e, he, hun⟩
      rcases heff with rfl | ⟨rfl, -⟩
      · exact ⟨e, List.mem_append_left _ he, hun⟩
      · exact ⟨e, he, hun⟩
    rcases hp' with ⟨hnone, rfl⟩ | ⟨p, hp, hb, rfl⟩
    · refine tracked_of_unmarked rfl (fun hdel => rfl) fun id ev hev hmark => ?_
      obtain ⟨q, hq, -⟩ := h.named id ev hev hmark
      rw [hnone] at hq
      cases hq
    · refine h.keep hp rfl rfl rfl (fun hdel => ?_) hway fun _ _ hev => Or.inl hev
      rw [hpending] at hdel
      cases hdel

/-- An effect that has ended its execution under way, or dead. -/
theorem tracked_recorded (h : Tracked setup s) (hp : s.projection = some p) {c : Calendar}
    (hc : ∀ id, id ≠ executionEventId setup p → c.events id = s.calendar.events id)
    {input : ExecuteInput} {e : EffectRow} {outcome : Outcome} (he : e ∈ s.effects)
    (hr : Recorded input e outcome { s with calendar := c } s')
    (hp' : (projectionAfter e outcome p).destinationEventId = p.destinationEventId ∧
      (projectionAfter e outcome p).generation = p.generation)
    (hdel : (projectionAfter e outcome p).status = .deleted → p.destinationEventId = none)
    (hun : (effectAfter input outcome e).unfinished = true) : Tracked setup s' := by
  have hproj := hr.projection_some hp
  have hway : UnderWay s' := ⟨_, hr.mem_self he, hun⟩
  refine h.keep hp hproj hp'.1 hp'.2 (fun hd => hp'.1.trans (hdel hd)) (fun _ => hway)
    fun id ev hev => ?_
  rw [hr.calendar] at hev
  by_cases hid : id = executionEventId setup p
  · exact Or.inr ⟨hid, hway⟩
  · exact Or.inl (hc id hid ▸ hev)

theorem caught_status (e : EffectRow) (error : ProviderError) (p : ProjectionRow) :
    (projectionAfter e (caught error) p).destinationEventId = p.destinationEventId ∧
      (projectionAfter e (caught error) p).generation = p.generation ∧
      (projectionAfter e (caught error) p).status ≠ .deleted := by
  unfold caught
  split
  · simp [projectionAfter, holdProjection]
  · simp only [projectionAfter, failProjection]
    split <;> simp

/-- A conversation that raised an error. -/
theorem tracked_caught (h : Tracked setup s) (hp : s.projection = some p) {c : Calendar}
    (hc : ∀ id, id ≠ executionEventId setup p → c.events id = s.calendar.events id)
    {input : ExecuteInput} {e : EffectRow} {error : ProviderError} (he : e ∈ s.effects)
    (hr : Recorded input e (caught error) { s with calendar := c } s') :
    Stuck s' ∨ Tracked setup s' := by
  obtain ⟨hdest, hgen, hstatus⟩ := caught_status e error p
  rcases dead_or_unfinished_of_caught input e error with hdead | hun
  · exact Or.inl (stuck_of_recorded (s := { s with calendar := c }) he hr hdead)
  · exact Or.inr (tracked_recorded h hp hc he hr ⟨hdest, hgen⟩ (fun hd => absurd hd hstatus) hun)

theorem tracked_stopped (h : Tracked setup s) (hcoh : Coherent setup s) {input : ExecuteInput}
    {e : EffectRow} {outcome : Outcome} (he : leasedEffect input s = some e)
    (hg : gate setup s e = .error outcome) (hok : KeepsTrack setup s (.execute input))
    (hdead : ¬ Stuck s) (hr : Recorded input e outcome s s') : Stuck s' ∨ Tracked setup s' := by
  have hleased := leasedEffect_isLeased he
  cases hp : s.projection with
  | none =>
    have hmem := hleased.mem
    rw [hcoh.orphans hp] at hmem
    cases hmem
  | some p =>
    cases gate_error hg with
    | deferred reason _ =>
      exact Or.inr (tracked_recorded h hp (fun _ _ => rfl) hleased.mem hr ⟨rfl, rfl⟩
        (h.deleted p hp) rfl)
    | deleted hdel =>
      have hmem := hleased.mem
      rw [(hcoh.deleted hdel).2.2] at hmem
      cases hmem
    | failed error hretry hamb =>
      refine Or.inl (stuck_of_recorded hleased.mem hr ?_)
      simp [effectAfter, failEffect, closeEffect, EffectRow.dead, isDeadAfter, hretry]
    | basisChanged =>
      have hproj := hr.projection_some hp
      right
      -- The superseded effect is the last one under way only if every event is recorded.
      by_cases hun : unrecorded setup s p = true
      · obtain ⟨e', he', hne, hun'⟩ :=
          (hok.2 e he p hp ⟨hun, hasDead_eq_false hdead⟩).1 (gate_basisChanged hg)
        refine h.keep hp hproj rfl rfl (fun hd => by cases hd)
          (fun _ => ⟨e', hr.mem_of_ne he' hne, hun'⟩) fun id ev hev => Or.inl ?_
        rwa [hr.calendar] at hev
      · refine ⟨fun id ev hev hmark => ?_, fun q hq hd => ?_⟩
        · rw [hr.calendar] at hev
          obtain ⟨q, hq, hq'⟩ := h.named id ev hev hmark
          rw [hp, Option.mem_def, Option.some.injEq] at hq
          subst hq
          rcases hq' with hdest | ⟨hnone, rfl, -⟩
          · exact ⟨_, hproj, Or.inl hdest⟩
          · refine absurd ?_ hun
            rw [Option.mem_def] at hev
            simp [unrecorded, hnone, hev]
        · rw [hproj, Option.mem_def, Option.some.injEq] at hq
          subst hq
          cases hd

theorem tracked_ran (h : Tracked setup s) {input : ExecuteInput} {e : EffectRow} {c : Calendar}
    {ended : ProviderOutcome} (he : leasedEffect input s = some e) (hg : gate setup s e = .ok p)
    (hok : KeepsTrack setup s (.execute input)) (hdead : ¬ Stuck s)
    (hend : Undisturbed setup p e s.calendar c ended)
    (hr : Recorded input e (conclude setup s p e ended) { s with calendar := c } s') :
    Stuck s' ∨ Tracked setup s' := by
  have hleased := leasedEffect_isLeased he
  have hp := (gate_ok hg).projection
  have hc : ∀ id, id ≠ executionEventId setup p → c.events id = s.calendar.events id :=
    fun id hid => hend.of_ne hid
  have hproj := hr.projection_some hp
  have hgone : e.operation = .delete → ended = .succeeded none →
      c.events (executionEventId setup p) = none → Tracked setup s' := by
    rintro hop rfl habsent
    refine tracked_of_unmarked hproj (fun _ => ?_) fun id ev hev => ?_
    · simp [conclude, projectionAfter, succeedProjection, hop]
    · rw [hr.calendar] at hev
      exact h.unmarked hp hc habsent hev
  cases hend with
  | raised error herr => exact tracked_caught h hp hc hleased.mem hr
  | lost request hcause after hperform error hamb hretry herr =>
    exact tracked_caught h hp hc hleased.mem hr
  | rejected request hcause status hperform => exact tracked_caught h hp hc hleased.mem hr
  | mismatch found hfound hown =>
    exact Or.inl (stuck_of_recorded (s := { s with calendar := s.calendar }) hleased.mem hr rfl)
  | missing hop habsent hcreate hupdate =>
    simp only [conclude] at hr hproj
    split at hr
    · rename_i hany
      obtain ⟨e', he', hnewer⟩ := List.any_eq_true.1 hany
      simp only [Bool.and_eq_true, decide_eq_true_eq] at hnewer
      rw [if_pos hany] at hproj
      refine Or.inr (h.keep hp hproj rfl rfl (h.deleted p hp)
        (fun _ => ⟨e', hr.mem_of_ne he' hnewer.1, hnewer.2⟩) fun id ev hev => Or.inl ?_)
      rwa [hr.calendar] at hev
    · rename_i hnone
      rw [if_neg hnone] at hproj
      split at hr
      · rename_i desired hrep
        rw [hrep] at hproj
        refine Or.inr (tracked_of_unmarked hproj (fun _ => rfl) fun id ev hev => ?_)
        rw [hr.calendar] at hev
        exact h.unmarked hp hc habsent hev
      · exact tracked_caught h hp hc hleased.mem hr
  | vacant hop habsent =>
    refine Or.inr (hgone hop rfl ?_)
    by_cases hnamed : deleteEventId setup p e = none
    · -- Nothing was read: the condition says that there is nothing to find.
      have hnamed' : p.destinationEventId = none ∧ e.ambiguous = false := by
        unfold deleteEventId at hnamed
        cases hdest : p.destinationEventId <;> cases hflag : e.ambiguous <;>
          simp [hdest, hflag] at hnamed ⊢
      cases hev : s.calendar.events (executionEventId setup p) with
      | none => rfl
      | some ev =>
        rw [executionEventId_of_none hnamed'.1] at hev
        have hun : unrecorded setup s p = true := by simp [unrecorded, hnamed'.1, hev]
        have hflag := (hok.2 e he p hp ⟨hun, hasDead_eq_false hdead⟩).2 ⟨by rw [hg]; rfl, hop⟩
        rw [hnamed'.2] at hflag
        cases hflag
    · exact habsent hnamed
  | removed expected hop hcause after hperform =>
    obtain ⟨_, -, -, rfl⟩ := perform_delete hperform
    exact Or.inr (hgone hop rfl (Calendar.remove_self _ _))
  | written request payload hcause hpay after hperform =>
    right
    have hop : e.operation ≠ .delete := by
      obtain ⟨_, -, hauth⟩ := hcause
      cases hauth <;> simp_all [Request.payload?]
    have hdest : (projectionAfter e (.succeeded (some (executionEventId setup p,
        s.calendar.nextRevision))) p).destinationEventId = some (executionEventId setup p) ∧
        (projectionAfter e (.succeeded (some (executionEventId setup p,
          s.calendar.nextRevision))) p).status = .converged := by
      simp [projectionAfter, succeedProjection]
    refine ⟨fun id ev hev hmark => ⟨_, hproj, Or.inl ?_⟩, fun q hq hd => ?_⟩
    · refine hdest.1.trans (congrArg some ?_)
      by_contra hid
      rw [hr.calendar] at hev
      have hev' : s.calendar.events id = some ev := (hc id (Ne.symm hid)).symm.trans hev
      obtain ⟨q, hq, hq'⟩ := h.named id ev hev' hmark
      rw [hp, Option.mem_def, Option.some.injEq] at hq
      subst hq
      rcases hq' with hdest | ⟨hnone, rfl, -⟩
      · exact hid (executionEventId_of_dest hdest)
      · exact hid (executionEventId_of_none hnone)
    · rw [hproj, Option.mem_def, Option.some.injEq] at hq
      subst hq
      rw [show conclude setup s p e _ = Outcome.succeeded _ from rfl, hdest.2] at hd
      cases hd

theorem tracked_executed (h : Tracked setup s) (hcoh : Coherent setup s) (hdead : ¬ Stuck s)
    {input : ExecuteInput} (hok : KeepsTrack setup s (.execute input))
    (hx : Executed setup input s s') : Stuck s' ∨ Tracked setup s' := by
  cases hx with
  | idle => exact Or.inr h
  | stopped e he outcome hg s' hs' =>
    rcases hs' with rfl | hrec
    · exact Or.inr (h.evolve rfl rfl fun hw => hw)
    · exact tracked_stopped h hcoh he hg hok hdead (record_recorded hrec)
  | ran e he p hg session ended hrun s' hs' =>
    have hleased := leasedEffect_isLeased he
    have hp := (gate_ok hg).projection
    have hend := (ran_concluded hrun).undisturbed hok.1
    rcases hs' with rfl | hrec
    · refine Or.inr (h.keep hp hp rfl rfl (h.deleted p hp) (fun hw => hw) fun id ev hev => ?_)
      by_cases hid : id = executionEventId setup p
      · exact Or.inr ⟨hid, e, hleased.mem, hleased.unfinished⟩
      · exact Or.inl ((hend.of_ne hid).symm.trans hev)
    · exact tracked_ran h he hg hok hdead hend (record_recorded hrec)

theorem tracked_stepped (h : Stuck s ∨ Tracked setup s) (hcoh : Coherent setup s) {event : Event}
    (hok : KeepsTrack setup s event) (hs : Stepped setup s event s') :
    Stuck s' ∨ Tracked setup s' := by
  cases hs with
  | rest _ _ hp he hc ht hl hcr hpol hr ho =>
    have hw : UnderWay s → UnderWay s' := fun ⟨e, hmem, hun⟩ => ⟨e, he ▸ hmem, hun⟩
    exact h.imp (fun ⟨e, hmem, hdead⟩ => ⟨e, he ▸ hmem, hdead⟩) fun h => h.evolve hp hc hw
  | touched _ effects htouched policyStatus hpol jobs =>
    refine h.imp (fun h => h.touched htouched) fun h => h.evolve rfl rfl ?_
    rintro ⟨e, he, hun⟩
    have hstate : e.state ≠ .succeeded := by
      intro hsucc
      simp [EffectRow.unfinished, hsucc] at hun
    obtain ⟨e', he', htouch⟩ := htouched.forth e he hstate
    exact ⟨e', he', htouch.unfinished ▸ hun⟩
  | loaded target htarget => exact h.imp (fun h => h) fun h => h.evolve rfl rfl fun hw => hw
  | observed target htarget reply =>
    exact h.imp (fun h => h) fun h => h.evolve rfl rfl fun hw => hw
  | edited edit => exact absurd hok id
  | reconciled ctx o ins ho hpass hfresh _ hr =>
    exact h.imp (fun h => h.reconciled hr) fun h => tracked_reconciled h hr
  | executed input hfresh _ hx =>
    by_cases hdead : Stuck s
    · exact Or.inl (hdead.executed hcoh.ids hx)
    · exact tracked_executed (h.resolve_left hdead) hcoh hdead hok hx
  | settled lookup input hl hfresh _ hset => exact absurd hok id
  | resolved notice action input hfresh _ hr => exact absurd hok id
  | retried input hfresh _ hr => exact absurd hok id

/-- **No orphaned or duplicated copies**, in every run that keeps track of unrecorded events. -/
theorem no_orphaned_copies (h : (system setup).Reachable (KeepsTrack setup) s) :
    NoOrphans setup s := by
  have hinv : Coherent setup s ∧ (Stuck s ∨ Tracked setup s) := by
    refine h.invariant (I := fun s => Coherent setup s ∧ (Stuck s ∨ Tracked setup s)) ?_ ?_
    · intro s hs
      refine ⟨coherent_init hs, Or.inr ⟨fun id ev hev hmark => ?_, fun p hp => ?_⟩⟩
      · obtain ⟨identity, hid, href⟩ := hmark
        exact absurd href (hs.calendar.unmarked id ev hev identity hid)
      · rw [hs.projection] at hp
        cases hp
    · rintro s event ⟨hcoh, htr⟩ hok
      have hs := step_stepped setup s event
      exact ⟨coherent_stepped hcoh hs, tracked_stepped htr hcoh hok hs⟩
  exact hinv.2.elim Stuck.noOrphans Tracked.noOrphans

end Copies

/-- The answer to a create is lost, and the next attempt finds the event. -/
def recoveredCreate : List Event :=
  passOver (plainEvent "meeting" 1) 1 ++
    [leaseBy "worker" 0, executeBy "worker" 1 [{}, { reply := .dropped true }],
      leaseBy "worker" 100000, executeBy "worker" 1]

/-- The plain recovery is such a run, and it comes to rest. -/
theorem no_orphaned_copies_recoveredCreate :
    AtRest (runFrom plainSetup (startState (plainEvent "meeting" 1)) recoveredCreate) ∧
      NoOrphans plainSetup
        (runFrom plainSetup (startState (plainEvent "meeting" 1)) recoveredCreate) :=
  ⟨by decide +kernel, no_orphaned_copies (reachable_admitted (by decide +kernel))⟩

/-- A worker dies after its create has been carried out, and the source event is deleted before the
lease expires. -/
def orphanedCreate : List Event :=
  passOver (plainEvent "meeting" 1) 1 ++
    [leaseBy "worker" 0, executeBy "worker" 1 [] true, .store removedEvent] ++
    passOver removedEvent 2 ++
    [leaseBy "other" 100000, executeBy "other" 1, leaseBy "other" 100000, executeBy "other" 2]

theorem lost_create_orphaned :
    ¬ NoOrphans plainSetup
      (runFrom plainSetup (startState (plainEvent "meeting" 1)) orphanedCreate) := by
  intro h
  exact absurd (h (by decide +kernel) "pcopy11") (by decide +kernel)

end Planipus.Sync

import Planipus.Sync.Verify.Coherence

/-!
# Revisions that the service knows

A revision that is stored with the projection or was seen by the verifier has been handed out by
the provider, so no later change of the calendar can give it to another content. `Stamped` holds in
every reachable state; it is what makes a stored revision evidence of anything.
-/

namespace Planipus.Sync

open CalendarSync Provider Library

structure Stamped (s : State) : Prop where
  etag : ∀ p ∈ s.projection, ∀ r ∈ p.destinationEtag, r < s.calendar.nextRevision
  seen : ∀ l ∈ s.lookups, ∀ ev ∈ l.observed, ev.revision < s.calendar.nextRevision ∧
    ∀ ev' ∈ s.calendar.events l.target.destinationEventId, ev'.revision = ev.revision → ev' = ev

section Stamps

variable {setup : Setup} {s s' : State}

theorem Stamped.evolve (h : Stamped s) (hp : s'.projection = s.projection)
    (hl : s'.lookups = s.lookups) (hc : Calendar.Evolves s.calendar s'.calendar) : Stamped s' where
  etag p hp' r hr := Nat.lt_of_lt_of_le (h.etag p (hp ▸ hp') r hr) hc.next_le
  seen l hl' ev hev := by
    obtain ⟨hlt, heq⟩ := h.seen l (hl ▸ hl') ev hev
    refine ⟨Nat.lt_of_lt_of_le hlt hc.next_le, fun ev' hev' hrev => ?_⟩
    exact heq ev' (hc.old hev' (hrev ▸ hlt)) hrev

/-- A step that rewrites the projection and keeps the calendar. -/
theorem Stamped.rewrite (h : Stamped s) {p' : ProjectionRow} (hp : s'.projection = some p')
    (hl : s'.lookups = s.lookups) (hc : s'.calendar = s.calendar)
    (hetag : ∀ r ∈ p'.destinationEtag, r < s.calendar.nextRevision) : Stamped s' where
  etag p hp' r hr := by
    rw [hp, Option.mem_def, Option.some.injEq] at hp'
    subst hp'
    rw [hc]
    exact hetag r hr
  seen := by
    rw [hl, hc]
    exact h.seen

theorem stamped_settled (h : Stamped s) {lookup : Lookup} {input : SettleInput}
    (hl : lookup ∈ s.lookups) (hst : Settled setup input lookup s s') : Stamped s' := by
  have hold : ∀ p, s.projection = some p → ∀ r ∈ p.destinationEtag, r < s.calendar.nextRevision :=
    fun p hp => h.etag p hp
  have hshown : ∀ {observed revision}, lookup.Shows setup observed revision →
      ∀ r ∈ revision, r < s.calendar.nextRevision := by
    intro observed revision hshow r hr
    cases observed with
    | missing =>
      rw [hshow.1] at hr
      cases hr
    | drifted =>
      obtain ⟨ev, hev, hrev, -⟩ := hshow
      rw [hrev, Option.mem_def, Option.some.injEq] at hr
      subst hr
      exact (h.seen lookup hl ev hev).1
  cases hst with
  | unchanged => exact h
  | repaired p hp hun observed revision hshow desired hd notices =>
    refine h.rewrite rfl rfl rfl fun r hr => ?_
    cases observed with
    | missing => cases hr
    | drifted => exact hshown hshow r hr
  | editHeld p hp hun observed revision hshow desired hd code hcode notices =>
    refine h.rewrite rfl rfl rfl fun r hr => ?_
    cases observed with
    | missing => exact hold p hp r hr
    | drifted => exact hshown hshow r hr
  | mismatchHeld p hp hun ev hobs hown =>
    refine h.rewrite rfl rfl rfl fun r hr => ?_
    cases hr
    exact (h.seen lookup hl ev hobs).1

theorem stamped_retried (h : Stamped s) {input : RecoveryInput} (hr : Retried setup input s s') :
    Stamped s' := by
  cases hr with
  | unchanged => exact h
  | replayed p hp dead hdead hreplay => exact h.rewrite rfl rfl rfl (h.etag p hp)
  | gaveUp p hp dead hdead hreplay hno jobs => exact h.rewrite rfl rfl rfl (h.etag p hp)
  | stale p hp hdead hheld jobs => exact h.rewrite rfl rfl rfl (h.etag p hp)
  | requeued p hp effects heff operation hop hrev hbasis hevid =>
    exact h.rewrite rfl rfl rfl (h.etag p hp)

theorem stamped_reconciled (h : Stamped s) {ctx : PassContext} {o : ObservationRow}
    {ins : Insertion} (hr : Reconciled setup ctx o ins s s') : Stamped s' := by
  cases hr with
  | absent hnone hop => exact h
  | shadowed p hp hb => exact h.rewrite rfl rfl rfl (h.etag p hp)
  | settled p hp hb hop => exact h.rewrite rfl rfl rfl (h.etag p hp)
  | queued p' operation hp' hop effects heff =>
    rcases hp' with ⟨-, rfl⟩ | ⟨p, hp, -, rfl⟩
    · refine h.rewrite rfl rfl rfl fun r hr => ?_
      cases hr
    · exact h.rewrite rfl rfl rfl (h.etag p hp)

/-- Only a success stores a revision, the one that the write was given. -/
theorem projectionAfter_etag {e : EffectRow} {outcome : Outcome} {p : ProjectionRow} {r : Revision}
    (hr : r ∈ (projectionAfter e outcome p).destinationEtag) :
    r ∈ p.destinationEtag ∨ ∃ id, outcome = .succeeded (some (id, r)) := by
  cases outcome with
  | deferred reason => exact Or.inl hr
  | superseded reason => exact Or.inl hr
  | basisChanged => exact Or.inl hr
  | replaced desired => cases hr
  | heldAmbiguous error => exact Or.inl hr
  | failed error => exact Or.inl hr
  | succeeded remote =>
    simp only [projectionAfter, succeedProjection] at hr
    split at hr
    · cases hr
    · obtain ⟨⟨id, r'⟩, hremote, rfl⟩ := Option.map_eq_some_iff.1 hr
      exact Or.inr ⟨id, by rw [hremote]⟩

theorem Stamped.recorded (h : Stamped s) {input : ExecuteInput} {e : EffectRow}
    {outcome : Outcome} (hr : Recorded input e outcome s s')
    (hnew : ∀ id r, outcome = .succeeded (some (id, r)) → r < s.calendar.nextRevision) :
    Stamped s' where
  etag p' hp' r hr' := by
    rw [hr.projection] at hp'
    obtain ⟨p, hp, rfl⟩ := Option.map_eq_some_iff.1 hp'
    rw [hr.calendar]
    rcases projectionAfter_etag hr' with hold | ⟨id, hout⟩
    · exact h.etag p hp r hold
    · exact hnew id r hout
  seen := by
    rw [hr.lookups, hr.calendar]
    exact h.seen

/-- A success that names an event left the effect's desired copy there, under a new revision. -/
theorem Concluded.written_event {p : ProjectionRow} {e : EffectRow} {session session' : Session}
    {id : EventId} {r : Revision}
    (h : Concluded setup p e session session' (.succeeded (some (id, r)))) :
    id = executionEventId setup p ∧ e.operation ≠ .delete ∧
      r < session'.calendar.nextRevision ∧
      ∃ payload : Payload, e.desiredState = some payload.desired ∧
        session'.calendar.events id = some ⟨payload.body, r⟩ := by
  cases h with
  | written hs request payload hr hpay after h =>
    obtain ⟨read, -, -, hauth⟩ := hr
    have htarget := hauth.target
    have hdesired := hauth.desired hpay
    have hop : e.operation ≠ .delete := by
      cases hauth <;> simp_all [Request.payload?]
    cases request with
    | create id payload' =>
      obtain ⟨-, rfl⟩ := perform_create h
      cases hpay
      cases htarget
      exact ⟨rfl, hop, Nat.lt_succ_self _, payload, hdesired, Calendar.put_self _ _ _⟩
    | update id expected payload' =>
      obtain ⟨_, -, -, rfl⟩ := perform_update h
      cases hpay
      cases htarget
      exact ⟨rfl, hop, Nat.lt_succ_self _, payload, hdesired, Calendar.put_self _ _ _⟩
    | delete id expected => cases hpay

/-- A success that names no event is a delete. -/
theorem Concluded.removed_operation {p : ProjectionRow} {e : EffectRow}
    {session session' : Session} (h : Concluded setup p e session session' (.succeeded none)) :
    e.operation = .delete := by
  cases h with
  | vacant hs hop habsent => exact hop
  | removed hs expected hop hr after h => exact hop

theorem conclude_succeeded {p : ProjectionRow} {e : EffectRow} {ended : ProviderOutcome}
    {remote : Option (EventId × Revision)}
    (h : conclude setup s p e ended = .succeeded remote) : ended = .succeeded remote := by
  cases ended with
  | succeeded remote' =>
    cases h
    rfl
  | mismatch => cases h
  | raised error =>
    simp only [conclude, caught] at h
    split at h <;> cases h
  | missing =>
    simp only [conclude] at h
    split at h
    · cases h
    · split at h
      · cases h
      · simp only [caught] at h
        split at h <;> cases h

theorem conclude_superseded {p : ProjectionRow} {e : EffectRow} {ended : ProviderOutcome}
    {reason : SafeErrorCode} (h : conclude setup s p e ended = .superseded reason) :
    ended = .missing ∧ ∃ e' ∈ s.effects, e'.id ≠ e.id ∧ e'.unfinished = true := by
  cases ended with
  | succeeded remote => cases h
  | mismatch => cases h
  | raised error =>
    simp only [conclude, caught] at h
    split at h <;> cases h
  | missing =>
    simp only [conclude] at h
    split at h
    · rename_i hany
      obtain ⟨e', he', hnewer⟩ := List.any_eq_true.1 hany
      simp only [Bool.and_eq_true, decide_eq_true_eq] at hnewer
      exact ⟨rfl, e', he', hnewer⟩
    · split at h
      · cases h
      · simp only [caught] at h
        split at h <;> cases h

/-- A conversation ends neither deferred nor with a changed basis. -/
theorem conclude_ne_gate {p : ProjectionRow} {e : EffectRow} {ended : ProviderOutcome} :
    (∀ reason, conclude setup s p e ended ≠ .deferred reason) ∧
      conclude setup s p e ended ≠ .basisChanged := by
  have hcaught : ∀ error, (∀ reason, caught error ≠ .deferred reason) ∧
      caught error ≠ .basisChanged := by
    intro error
    unfold caught
    split <;> simp
  cases ended with
  | succeeded remote => simp [conclude]
  | mismatch => simp [conclude]
  | raised error => exact hcaught error
  | missing =>
    simp only [conclude]
    split
    · simp
    · split
      · simp
      · exact hcaught _

theorem stamped_executed (h : Stamped s) {input : ExecuteInput}
    (hx : Executed setup input s s') : Stamped s' := by
  cases hx with
  | idle => exact h
  | stopped e he outcome hg s' hs' =>
    rcases hs' with rfl | hrec
    · exact h.evolve rfl rfl (Calendar.Evolves.refl _)
    · refine h.recorded (record_recorded hrec) fun id r hout => ?_
      cases gate_error hg <;> cases hout
  | ran e he p hg session ended hrun s' hs' =>
    have hconc := ran_concluded hrun
    have hcal : Stamped { s with calendar := session.calendar } :=
      h.evolve rfl rfl hconc.evolves
    rcases hs' with rfl | hrec
    · exact hcal.evolve rfl rfl (Calendar.Evolves.refl _)
    · refine hcal.recorded (record_recorded hrec) fun id r hout => ?_
      rw [conclude_succeeded hout] at hconc
      exact hconc.written_event.2.2.1

theorem stamped_stepped (h : Stamped s) {event : Event} (hs : Stepped setup s event s') :
    Stamped s' := by
  cases hs with
  | rest _ _ hp he hc ht hl hcr hst hr ho =>
    exact h.evolve hp hl (hc ▸ Calendar.Evolves.refl _)
  | touched _ effects htouched policyStatus hst jobs =>
    exact h.evolve rfl rfl (Calendar.Evolves.refl _)
  | loaded target htarget => exact h.evolve rfl rfl (Calendar.Evolves.refl _)
  | observed target htarget reply =>
    refine ⟨h.etag, fun l hl ev hev => ?_⟩
    rcases List.mem_cons.1 hl with rfl | hl
    · refine ⟨s.calendar.bounded _ ev hev, fun ev' hev' _ => ?_⟩
      exact Option.mem_unique hev' hev
    · exact h.seen l hl ev hev
  | edited edit => exact h.evolve rfl rfl (Calendar.Evolves.apply _ edit)
  | reconciled ctx o ins ho hpass hfresh _ hr => exact stamped_reconciled h hr
  | executed input hfresh _ hx => exact stamped_executed h hx
  | settled lookup input hl hfresh _ hst => exact stamped_settled h hl hst
  | resolved notice action input hfresh _ hr =>
    cases hr with
    | detached p hp hheld notices => exact h.rewrite rfl rfl rfl (h.etag p hp)
    | restored p hp hheld operation hop hrev hbasis hevid notices =>
      exact h.rewrite rfl rfl rfl (h.etag p hp)
  | retried input hfresh _ hr => exact stamped_retried h hr

theorem stamped_init (h : Initial setup s) : Stamped s where
  etag p hp := by
    rw [h.projection] at hp
    cases hp
  seen := by simp [h.lookups]

end Stamps

end Planipus.Sync

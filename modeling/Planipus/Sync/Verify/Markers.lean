import Planipus.Sync.Verify.Stamps
import Planipus.Sync.Verify.Start

/-!
# Writes and markers

A write over an event is guarded by the markers of the event: the worker reads them before it
writes, or it trusts the revision that is stored with the projection. What is trusted was once read
or written with the markers, except after verification has found a foreign event in the copy's
place and stored its revision; from there on only the flag of the recovery effect makes the worker
read. A pause takes the flag away (`deferred_recovery_overwrites`), and `writes_marked` says that
this and an effect left over from an earlier generation are the only ways to a write without
markers.
-/

namespace Planipus.Sync

open CalendarSync Provider Library

/-- The request changes an event that is there. -/
def changesEvent : Request → Bool
  | .create _ _ => false
  | .update _ _ _ => true
  | .delete _ _ => true

/-- Whatever is done next, an update or delete that is carried out finds this projection's policy
ID, projection ID and generation on the event. -/
def MarkerGuarded (setup : Setup) (s : State) : Prop :=
  ∀ event, ∀ call ∈ issued setup s event,
    call.performed = true ∧ changesEvent call.request = true →
      ∃ p ∈ s.projection, ∃ ev ∈ call.before.events call.request.target, belongs setup p ev = true

/-- The event that has the stored revision carries the markers. -/
def Marked (setup : Setup) (c : Calendar) (p : ProjectionRow) : Prop :=
  ∀ id ∈ p.destinationEventId, ∀ ev ∈ c.events id,
    p.destinationEtag = some ev.revision → belongs setup p ev = true

instance (setup : Setup) (c : Calendar) (p : ProjectionRow) : Decidable (Marked setup c p) :=
  inferInstanceAs (Decidable (∀ id ∈ p.destinationEventId, ∀ ev ∈ c.events id,
    p.destinationEtag = some ev.revision → belongs setup p ev = true))

/-- The executions after which stored revisions can be trusted: an effect that is to read first is
deferred only if the stored revision is that of a marked event, and an effect that writes carries
the projection's generation. -/
def KeepsMarkers (setup : Setup) (s : State) : Event → Prop
  | .execute input => ∀ e ∈ leasedEffect input s, ∀ p ∈ s.projection,
      (defers setup s e = true ∧ e.ambiguous = true → Marked setup s.calendar p) ∧
      (basisCurrent s p e = true ∧ e.operation ≠ .delete →
        ∀ d ∈ e.desiredState, d.provenance.generation = p.generation)
  | _ => True

instance (setup : Setup) (s : State) : (event : Event) → Decidable (KeepsMarkers setup s event)
  | .execute input => inferInstanceAs (Decidable (∀ e ∈ leasedEffect input s, ∀ p ∈ s.projection,
      (defers setup s e = true ∧ e.ambiguous = true → Marked setup s.calendar p) ∧
      (basisCurrent s p e = true ∧ e.operation ≠ .delete →
        ∀ d ∈ e.desiredState, d.provenance.generation = p.generation)))
  | .store _ | .beginPass | .readObservation | .reconcile _ _ _ | .lease _ | .crash _ | .loadTarget
  | .observe _ _ | .settle _ _ | .resolve _ _ _ | .acknowledge _ | .retryBlocked _
  | .setPaused _ _ | .setEndpoints _ _ | .edit _ | .cleanup _ => isTrue trivial

/-! ## The invariant -/

/-- Every effect under way reads before it writes. -/
def AllFlagged (effects : List EffectRow) : Prop :=
  ∀ e ∈ effects, e.unfinished = true → e.ambiguous = true

/-- The stored revision is that of a marked event, or nothing under way trusts it. -/
structure Guarded (setup : Setup) (s : State) : Prop where
  etag : ∀ p ∈ s.projection, p.destinationEventId.isSome = true → p.destinationEtag.isSome = true
  marked : ∀ p ∈ s.projection, Marked setup s.calendar p ∨
    (p.ownership = .ambiguous ∧ AllFlagged s.effects)

section Markers

variable {setup : Setup} {s s' : State} {p p' : ProjectionRow}

theorem guarded_of_marked (hp : s'.projection = some p')
    (hetag : p'.destinationEventId.isSome = true → p'.destinationEtag.isSome = true)
    (h : Marked setup s'.calendar p') : Guarded setup s' := by
  refine ⟨fun p hp' => ?_, fun p hp' => ?_⟩
  · rw [hp, Option.mem_def, Option.some.injEq] at hp'
    subst hp'
    exact hetag
  · rw [hp, Option.mem_def, Option.some.injEq] at hp'
    subst hp'
    exact Or.inl h

/-- A projection without an event has nothing to trust. -/
theorem guarded_of_unnamed (hp : s'.projection = some p') (hdest : p'.destinationEventId = none) :
    Guarded setup s' := by
  refine guarded_of_marked hp (fun h => ?_) fun id hid => ?_
  · rw [hdest] at h
    cases h
  · rw [hdest] at hid
    cases hid

theorem Marked.evolve (hst : Stamped s) (hp : s.projection = some p)
    (h : Marked setup s.calendar p) {c : Calendar} (hc : Calendar.Evolves s.calendar c)
    (hdest : p'.destinationEventId = p.destinationEventId)
    (hetag : p'.destinationEtag = p.destinationEtag) (hgen : p'.generation = p.generation) :
    Marked setup c p' := by
  intro id hid ev hev hrev
  rw [hdest] at hid
  rw [hetag] at hrev
  have hold := hc.old hev (hst.etag p hp ev.revision hrev)
  have hown := h id hid ev hold hrev
  unfold belongs at hown ⊢
  rwa [hgen]

/-- A step that leaves the event, its revision and its generation as they were. -/
theorem Guarded.keep (h : Guarded setup s) (hst : Stamped s) (hp : s.projection = some p)
    (hp' : s'.projection = some p') (hdest : p'.destinationEventId = p.destinationEventId)
    (hetag : p'.destinationEtag = p.destinationEtag) (hgen : p'.generation = p.generation)
    (hc : Calendar.Evolves s.calendar s'.calendar)
    (hflag : p.ownership = .ambiguous → AllFlagged s.effects →
      p'.ownership = .ambiguous ∧ AllFlagged s'.effects) : Guarded setup s' := by
  refine ⟨fun q hq => ?_, fun q hq => ?_⟩
  · rw [hp', Option.mem_def, Option.some.injEq] at hq
    subst hq
    rw [hdest, hetag]
    exact h.etag p hp
  · rw [hp', Option.mem_def, Option.some.injEq] at hq
    subst hq
    rcases h.marked p hp with hm | ⟨hamb, hall⟩
    · exact Or.inl (hm.evolve hst hp hc hdest hetag hgen)
    · exact Or.inr (hflag hamb hall)

/-- A step that leaves the projection alone. -/
theorem Guarded.evolve (h : Guarded setup s) (hst : Stamped s)
    (hp : s'.projection = s.projection) (hc : Calendar.Evolves s.calendar s'.calendar)
    (hflag : AllFlagged s.effects → AllFlagged s'.effects) : Guarded setup s' := by
  cases hproj : s.projection with
  | some p =>
    exact h.keep hst hproj (hp.trans hproj) rfl rfl rfl hc fun hamb hall => ⟨hamb, hflag hall⟩
  | none =>
    refine ⟨fun q hq => ?_, fun q hq => ?_⟩
    all_goals
      rw [hp, hproj] at hq
      cases hq

theorem Guarded.attached (h : Guarded setup s) (hp : s.projection = some p)
    (hown : p.ownership = .attached) : Marked setup s.calendar p := by
  rcases h.marked p hp with hm | ⟨hamb, -⟩
  · exact hm
  · rw [hown] at hamb
    cases hamb

theorem AllFlagged.append {effects : List EffectRow} {row : EffectRow} (h : AllFlagged effects)
    (hrow : row.ambiguous = true) : AllFlagged (effects ++ [row]) := by
  intro e he hun
  rcases List.mem_append.1 he with he | he
  · exact h e he hun
  · rw [List.mem_singleton.1 he]
    exact hrow

theorem AllFlagged.updateRow {effects : List EffectRow} {id : EffectId} {f : EffectRow → EffectRow}
    (h : AllFlagged effects)
    (hf : ∀ e ∈ effects, (f e).unfinished = true → (f e).ambiguous = true) :
    AllFlagged (updateRow EffectRow.id id f effects) := by
  intro e he hun
  rcases mem_updateRow he with ⟨r, hr, -, rfl⟩ | ⟨he, -⟩
  · exact hf r hr hun
  · exact h e he hun

/-! ## Steps -/

theorem guarded_reconciled (h : Guarded setup s) (hst : Stamped s) {ctx : PassContext}
    {o : ObservationRow} {ins : Insertion} (hr : Reconciled setup ctx o ins s s') :
    Guarded setup s' := by
  cases hr with
  | absent hnone hop => exact h
  | shadowed p hp hb =>
    exact h.keep hst hp rfl rfl rfl rfl (Calendar.Evolves.refl _) fun hamb hall => ⟨hamb, hall⟩
  | settled p hp hb hop =>
    exact h.keep hst hp rfl rfl rfl rfl (Calendar.Evolves.refl _) fun hamb hall => ⟨hamb, hall⟩
  | queued p' operation hp' hop effects heff =>
    rcases hp' with ⟨-, rfl⟩ | ⟨p, hp, hb, rfl⟩
    · exact guarded_of_unnamed rfl rfl
    · refine h.keep hst hp rfl rfl rfl rfl (Calendar.Evolves.refl _) fun hamb => ?_
      simp [blocked, hamb] at hb

/-- The revision of a lookup that shows the copy is that of a marked event. -/
theorem marked_of_shown (p' : ProjectionRow) (hst : Stamped s) {lookup : Lookup}
    (hl : lookup ∈ s.lookups) (hun : unmoved setup lookup.target s p = true)
    {revision : Option Revision} (hshow : lookup.Shows setup .drifted revision)
    (hdest : p'.destinationEventId = p.destinationEventId)
    (hetag : p'.destinationEtag = revision) (hgen : p'.generation = p.generation) :
    p'.destinationEtag.isSome = true ∧ Marked setup s.calendar p' := by
  obtain ⟨seen, hseen, rfl, hown, -⟩ := hshow
  have hsame := unmoved_spec hun
  refine ⟨by rw [hetag]; rfl, fun id hid ev hev hrev => ?_⟩
  rw [hdest, hsame.destinationEventId, Option.mem_def, Option.some.injEq] at hid
  subst hid
  rw [hetag, Option.some.injEq] at hrev
  have heq := (hst.seen lookup hl seen hseen).2 ev hev hrev.symm
  unfold belongs
  rw [heq, hgen, hsame.generation]
  exact hown

theorem guarded_settled (h : Guarded setup s) (hst : Stamped s) {lookup : Lookup}
    {input : SettleInput} (hl : lookup ∈ s.lookups) (hset : Settled setup input lookup s s') :
    Guarded setup s' := by
  cases hset with
  | unchanged => exact h
  | repaired p hp hun observed revision hshow desired hd notices =>
    cases observed with
    | missing => exact guarded_of_unnamed rfl rfl
    | drifted =>
      obtain ⟨hsome, hm⟩ := marked_of_shown (repairProjection .drifted revision desired p)
        hst hl hun hshow rfl rfl rfl
      exact guarded_of_marked rfl (fun _ => hsome) hm
  | editHeld p hp hun observed revision hshow desired hd code hcode notices =>
    cases observed with
    | missing =>
      refine guarded_of_marked rfl (h.etag p hp) ?_
      have hmarked := h.attached hp (unmoved_spec hun).ownership
      exact hmarked.evolve hst hp (Calendar.Evolves.refl _) rfl rfl rfl
    | drifted =>
      obtain ⟨hsome, hm⟩ := marked_of_shown (holdEditProjection .drifted revision code p)
        hst hl hun hshow rfl rfl rfl
      exact guarded_of_marked rfl (fun _ => hsome) hm
  | mismatchHeld p hp hun event hobs hown =>
    -- The revision of a foreign event is stored, and nothing is under way.
    refine ⟨fun q hq _ => ?_, fun q hq => ?_⟩
    · cases hq
      rfl
    · cases hq
      refine Or.inr ⟨rfl, fun e he hun' => ?_⟩
      rw [(unmoved_spec hun).idle e he] at hun'
      cases hun'

theorem guarded_recovered (h : Guarded setup s) (hst : Stamped s) {input : RecoveryInput}
    (hr : Resolved setup input s s' ∨ Retried setup input s s') : Guarded setup s' := by
  have hc := Calendar.Evolves.refl s.calendar
  have hsuper : ∀ {dead : EffectRow}, AllFlagged s.effects →
      AllFlagged (s.mapEffect dead.id (supersedeDead setup dead)).effects :=
    fun hall => hall.updateRow fun _ _ hun => by
      simp [supersedeDead, finishEffect, closeEffect, EffectRow.unfinished] at hun
  rcases hr with hr | hr
  · cases hr with
    | detached p hp hheld notices =>
      have hown : p.ownership = .attached := by
        simp only [isDestinationEditHold, Bool.and_eq_true, decide_eq_true_eq] at hheld
        exact hheld.1.2
      refine guarded_of_marked rfl (h.etag p hp) ?_
      exact (h.attached hp hown).evolve hst hp hc rfl rfl rfl
    | restored p hp hheld operation hop hrev hbasis hevid notices =>
      exact h.keep hst hp rfl rfl rfl rfl hc fun hamb hall => ⟨hamb, hall.append rfl⟩
  · cases hr with
    | unchanged => exact h
    | replayed p hp dead hdead hreplay =>
      exact h.keep hst hp rfl rfl rfl rfl hc fun hamb hall =>
        ⟨hamb, hall.updateRow fun _ _ _ => rfl⟩
    | gaveUp p hp dead hdead hreplay hno jobs =>
      exact h.keep hst hp rfl rfl rfl rfl hc fun hamb hall => ⟨hamb, hsuper hall⟩
    | stale p hp hdead hheld jobs =>
      exact h.keep hst hp rfl rfl rfl rfl hc fun hamb hall => ⟨hamb, hall⟩
    | requeued p hp effects heff operation hop hrev hbasis hevid =>
      refine h.keep hst hp rfl rfl rfl rfl hc fun hamb hall => ⟨hamb, ?_⟩
      rcases heff with ⟨rfl, -⟩ | ⟨dead, -, rfl⟩
      · exact hall.append rfl
      · exact (hsuper hall).append rfl

/-! ### Executions -/

/-- What an execution does to the flags, deferrals apart. -/
theorem allFlagged_recorded {input : ExecuteInput} {e : EffectRow} {outcome : Outcome}
    (hids : (s.effects.map EffectRow.id).Nodup) (he : e ∈ s.effects) (hun : e.unfinished = true)
    (hr : Recorded input e outcome s s') (hdefer : ∀ reason, outcome ≠ .deferred reason)
    (hrep : ∀ d, outcome ≠ .replaced d) (h : AllFlagged s.effects) : AllFlagged s'.effects := by
  intro e' he' hun'
  rcases hr.mem_effects hids he he' with rfl | ⟨he', -⟩ | hins
  · cases outcome with
    | deferred reason => exact absurd rfl (hdefer reason)
    | failed error => simp [effectAfter, failEffect, closeEffect, h e he hun]
    | heldAmbiguous error => rfl
    | _ => simp [effectAfter, finishEffect, closeEffect, EffectRow.unfinished] at hun'
  · exact h e' he' hun'
  · cases outcome with
    | replaced d => exact absurd rfl (hrep d)
    | _ => cases hins

theorem guarded_recorded (h : Guarded setup s) (hst : Stamped s)
    (hids : (s.effects.map EffectRow.id).Nodup) {input : ExecuteInput} {e : EffectRow}
    {outcome : Outcome} (he : e ∈ s.effects) (hun : e.unfinished = true)
    (hr : Recorded input e outcome s s')
    (hsucc : ∀ remote, outcome ≠ .succeeded remote) (hrep : ∀ d, outcome ≠ .replaced d)
    (hdefer : ∀ reason, outcome = .deferred reason → e.ambiguous = true →
      ∀ p ∈ s.projection, Marked setup s.calendar p) : Guarded setup s' := by
  have hproj := hr.projection
  cases hp : s.projection with
  | none =>
    rw [hp] at hproj
    refine ⟨fun q hq => ?_, fun q hq => ?_⟩
    all_goals
      rw [hproj] at hq
      cases hq
  | some p =>
    rw [hp, Option.map_some] at hproj
    obtain ⟨hdest, hetag, hgen, hown⟩ := projectionAfter_named (p := p) (e := e) hsucc hrep
    have hc : Calendar.Evolves s.calendar s'.calendar := hr.calendar ▸ Calendar.Evolves.refl _
    by_cases hm : Marked setup s.calendar p
    · refine guarded_of_marked hproj ?_ (hm.evolve hst hp hc hdest hetag hgen)
      rw [hdest, hetag]
      exact h.etag p hp
    · refine h.keep hst hp hproj hdest hetag hgen hc fun hamb hall => ⟨hown hamb, ?_⟩
      refine allFlagged_recorded hids he hun hr (fun reason hout => ?_) hrep hall
      exact hm (hdefer reason hout (hall e he hun) p hp)

theorem guarded_succeeded {input : ExecuteInput} {e : EffectRow}
    {session : Session} {remote : Option (EventId × Revision)} (hcoh : Coherent setup s)
    (hp : s.projection = some p) (he : e ∈ s.effects)
    (hgen : e.operation ≠ .delete → ∀ d ∈ e.desiredState, d.provenance.generation = p.generation)
    (hconc : Concluded setup p e ⟨s.calendar, input.script, []⟩ session (.succeeded remote))
    (hr : Recorded input e (.succeeded remote) { s with calendar := session.calendar } s') :
    Guarded setup s' := by
  have hproj := hr.projection_some hp
  cases remote with
  | none =>
    refine guarded_of_unnamed hproj ?_
    simp [projectionAfter, succeedProjection, hconc.removed_operation]
  | some written =>
    obtain ⟨id, r⟩ := written
    obtain ⟨-, hop, -, payload, hd, hev⟩ := hconc.written_event
    have hdest : (projectionAfter e (.succeeded (some (id, r))) p).destinationEventId = some id ∧
        (projectionAfter e (.succeeded (some (id, r))) p).destinationEtag = some r ∧
        (projectionAfter e (.succeeded (some (id, r))) p).generation = p.generation := by
      simp [projectionAfter, succeedProjection]
    refine guarded_of_marked hproj (fun _ => by rw [hdest.2.1]; rfl) fun id' hid' ev hev' hrev => ?_
    rw [hdest.1, Option.mem_def, Option.some.injEq] at hid'
    subst hid'
    rw [hr.calendar, hev, Option.mem_def, Option.some.injEq] at hev'
    subst hev'
    obtain ⟨o, -, hprod⟩ := hcoh.effects e he payload.desired hd
    have hprov := hprod.provenance
    rw [hgen hop payload.desired hd] at hprov
    unfold belongs eventBelongsToProjection
    rw [serialize_identity payload.serialized, hprov, hdest.2.2]
    exact decide_eq_true rfl

theorem guarded_executed (h : Guarded setup s) (hcoh : Coherent setup s) (hst : Stamped s)
    {input : ExecuteInput} (hok : KeepsMarkers setup s (.execute input))
    (hx : Executed setup input s s') : Guarded setup s' := by
  cases hx with
  | idle => exact h
  | stopped e he outcome hg s' hs' =>
    have hleased := leasedEffect_isLeased he
    rcases hs' with rfl | hrec
    · exact h.evolve hst rfl (Calendar.Evolves.refl _) fun hall => hall
    · have hstop := gate_error hg
      refine guarded_recorded h hst hcoh.ids hleased.mem hleased.unfinished (record_recorded hrec)
        ?_ (gateStopped_ne_replaced hstop) fun reason hout hflag p hp => ?_
      · rintro remote rfl
        cases hstop
      · rw [hout] at hg
        exact (hok e he p hp).1 ⟨gate_deferred hg, hflag⟩
  | ran e he p hg session ended hrun s' hs' =>
    have hleased := leasedEffect_isLeased he
    have hpass := gate_ok hg
    have hconc := ran_concluded hrun
    have hcal : Guarded setup { s with calendar := session.calendar } :=
      h.evolve hst rfl hconc.evolves fun hall => hall
    have hst' : Stamped { s with calendar := session.calendar } := hst.evolve rfl rfl hconc.evolves
    rcases hs' with rfl | hrec
    · exact hcal.evolve hst' rfl (Calendar.Evolves.refl _) fun hall => hall
    · have hrecorded := record_recorded hrec
      cases hout : conclude setup s p e ended with
      | succeeded remote =>
        rw [hout] at hrecorded
        rw [conclude_succeeded hout] at hconc
        refine guarded_succeeded hcoh hpass.projection hleased.mem (fun hop => ?_) hconc hrecorded
        exact (hok e he p hpass.projection).2 ⟨hpass.basisCurrent, hop⟩
      | replaced d =>
        have hproj := hrecorded.projection
        rw [hout, show ({ s with calendar := session.calendar } : State).projection = some p from
          hpass.projection] at hproj
        exact guarded_of_unnamed hproj rfl
      | deferred reason => exact absurd hout (conclude_ne_gate.1 reason)
      | basisChanged => exact absurd hout conclude_ne_gate.2
      | superseded reason | heldAmbiguous error | failed error =>
        rw [hout] at hrecorded
        exact guarded_recorded hcal hst' hcoh.ids hleased.mem hleased.unfinished hrecorded
          (by simp) (by simp) (by simp)

theorem guarded_stepped (h : Guarded setup s) (hcoh : Coherent setup s) (hst : Stamped s)
    {event : Event} (hok : KeepsMarkers setup s event) (hs : Stepped setup s event s') :
    Guarded setup s' := by
  have hsame := Calendar.Evolves.refl s.calendar
  cases hs with
  | rest _ _ hp he hc ht hl hcr hpol hr ho =>
    exact h.evolve hst hp (hc ▸ hsame) fun hall => he ▸ hall
  | touched _ effects htouched policyStatus hpol jobs =>
    refine h.evolve hst rfl hsame fun hall e' he' hun => ?_
    obtain ⟨e, he, htouch⟩ := htouched.back e' he'
    exact htouch.flagged (hall e he (htouch.unfinished ▸ hun))
  | loaded target htarget => exact h.evolve hst rfl hsame fun hall => hall
  | observed target htarget reply => exact h.evolve hst rfl hsame fun hall => hall
  | edited edit => exact h.evolve hst rfl (Calendar.Evolves.apply _ edit) fun hall => hall
  | reconciled ctx o ins ho hpass hfresh _ hr => exact guarded_reconciled h hst hr
  | executed input hfresh _ hx => exact guarded_executed h hcoh hst hok hx
  | settled lookup input hl hfresh _ hset => exact guarded_settled h hst hl hset
  | resolved notice action input hfresh _ hr => exact guarded_recovered h hst (Or.inl hr)
  | retried input hfresh _ hr => exact guarded_recovered h hst (Or.inr hr)

/-! ## The writes -/

/-- A write that relies on a read finds the event that was read. -/
theorem belongs_of_read {read before : Calendar} {id : EventId} {found ev : RemoteEvent}
    (hfound : read.events id = some found) (hown : belongs setup p found = true)
    (hc : Calendar.Evolves read before) (hev : before.events id = some ev)
    (hrev : ev.revision = found.revision) : belongs setup p ev = true := by
  have hold := hc.old hev (hrev ▸ read.bounded id found hfound)
  rw [hfound, Option.some.injEq] at hold
  exact hold ▸ hown

/-- A write that relies on the stored revision. -/
theorem Guarded.trusted (h : Guarded setup s) (hst : Stamped s) (hp : s.projection = some p)
    {e : EffectRow} (he : e ∈ s.effects) (hun : e.unfinished = true) (hflag : e.ambiguous = false)
    {id : EventId} (hid : p.destinationEventId = some id) {before : Calendar} {ev : RemoteEvent}
    (hc : Calendar.Evolves s.calendar before) (hev : before.events id = some ev)
    (hrev : ∀ r, p.destinationEtag = some r → ev.revision = r) : belongs setup p ev = true := by
  obtain ⟨r, hr⟩ := Option.isSome_iff_exists.1 (h.etag p hp (by rw [hid]; rfl))
  obtain rfl := hrev r hr
  rcases h.marked p hp with hm | ⟨-, hall⟩
  · exact hm id hid ev (hc.old hev (hst.etag p hp _ hr)) hr
  · have hflag' := hall e he hun
    rw [hflag] at hflag'
    cases hflag'

theorem Guarded.markerGuarded (h : Guarded setup s) (hst : Stamped s) :
    MarkerGuarded setup s := by
  rintro event call hcall ⟨hperformed, hchanges⟩
  obtain ⟨input, e, p, -, he, hg, htried⟩ := issued_tried hcall
  have hleased := leasedEffect_isLeased he
  have hpass := gate_ok hg
  obtain ⟨after, hafter⟩ := htried.performed hperformed
  obtain ⟨read, hread, hevolves, hauth⟩ := htried.reason
  have hc : Calendar.Evolves s.calendar call.before := htried.drifts.evolves
  refine ⟨p, hpass.projection, ?_⟩
  obtain ⟨request, before, performed⟩ := call
  dsimp only at *
  cases hauth with
  | createAbsent => cases hchanges
  | createUnnamed => cases hchanges
  | rewrite payload found hd hop hfound hown =>
    obtain ⟨ev, hev, hrev, -⟩ := perform_update hafter
    exact ⟨ev, hev, belongs_of_read hfound hown hevolves hev (hrev _ rfl)⟩
  | trusted payload id hd hop hflag hdest =>
    obtain ⟨ev, hev, hrev, -⟩ := perform_update hafter
    exact ⟨ev, hev, h.trusted hst hpass.projection hleased.mem hleased.unfinished hflag hdest hc
      hev hrev⟩
  | removeFound found hop hflag hfound hown =>
    obtain ⟨ev, hev, hrev, -⟩ := perform_delete hafter
    exact ⟨ev, hev, belongs_of_read hfound hown hevolves hev (hrev _ rfl)⟩
  | removeTrusted id hop hflag hdest =>
    obtain ⟨ev, hev, hrev, -⟩ := perform_delete hafter
    exact ⟨ev, hev, h.trusted hst hpass.projection hleased.mem hleased.unfinished hflag hdest hc
      hev hrev⟩

/-- **Writes are guarded by markers**, in every run whose executions keep stored revisions
trustworthy. -/
theorem writes_marked (h : (system setup).Reachable (KeepsMarkers setup) s) :
    MarkerGuarded setup s := by
  have hinv : Coherent setup s ∧ Stamped s ∧ Guarded setup s := by
    refine h.invariant (I := fun s => Coherent setup s ∧ Stamped s ∧ Guarded setup s) ?_ ?_
    · intro s hs
      refine ⟨coherent_init hs, stamped_init hs, ?_, ?_⟩ <;> simp [hs.projection]
    · rintro s event ⟨hcoh, hst, hg⟩ hok
      have hs := step_stepped setup s event
      exact ⟨coherent_stepped hcoh hs, stamped_stepped hst hs, guarded_stepped hg hcoh hst hok hs⟩
  exact hinv.2.2.markerGuarded hinv.2.1

end Markers

/-- The summary changes and the update is leased. -/
def leasedUpdate : List Event :=
  createdCopy ++ [.store (plainEvent "moved" 1 "r2")] ++ passOver (plainEvent "moved" 1 "r2") 2 ++
    [leaseBy "other" 2]

/-- The plain update is such a run, and its write is carried out. -/
theorem writes_marked_leasedUpdate :
    (issued plainSetup (runFrom plainSetup (startState (plainEvent "meeting" 1)) leasedUpdate)
        (executeBy "other" 2)).map (fun call => (call.performed, changesEvent call.request)) =
      [(true, true)] ∧
    MarkerGuarded plainSetup
      (runFrom plainSetup (startState (plainEvent "meeting" 1)) leasedUpdate) :=
  ⟨by decide +kernel, writes_marked (reachable_admitted (by decide +kernel))⟩

/-- Somebody takes the markers off the copy and verification holds it. A retry queues a recovery, a
pause comes in between, and the resumed effect has forgotten that it was to read first. -/
def deferredRecovery : List Event :=
  createdCopy ++ verifyEdited { plainBody "theirs" 1 with managedIdentity := none } 2 ++
    [.retryBlocked ⟨0, ⟨3, 3⟩⟩, .setPaused true 5, leaseBy "other" 6, executeBy "other" 3,
      .setPaused false 7, leaseBy "third" 8]

theorem deferred_recovery_overwrites :
    ¬ MarkerGuarded plainSetup
      (runFrom plainSetup (startState (plainEvent "meeting" 1)) deferredRecovery) := by
  intro h
  exact absurd (h (executeBy "third" 3)) (by decide +kernel)

end Planipus.Sync

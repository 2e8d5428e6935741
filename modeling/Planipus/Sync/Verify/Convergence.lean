import Planipus.Sync.Verify.Stamps
import Planipus.Sync.Verify.Start

/-!
# Soundness of `converged`

A converged projection whose event still has the stored revision should have that event's content
as its desired state. The service breaks this when it calls a projection converged whose last
intent was never carried out: an update that a touch of the source event supersedes leaves its
desired state behind, and the next pass, which compares hashes only, finds nothing to do
(`overlooked_update_converged`). `content_sound` says that this, an evaluation that is invalid, and
an effect that runs after a later one are the only ways.
-/

namespace Planipus.Sync

open CalendarSync Provider Library

/-- No effect is unfinished or dead. -/
def Quiescent (s : State) : Prop := ∀ e ∈ s.effects, e.unfinished = false ∧ e.dead = false

instance (s : State) : Decidable (Quiescent s) :=
  inferInstanceAs (Decidable (∀ e ∈ s.effects, e.unfinished = false ∧ e.dead = false))

/-- An attached, converged and quiescent projection whose event has the stored revision has the
event's content as its desired state. -/
def ContentSound (s : State) : Prop :=
  ∀ p ∈ s.projection, ∀ id ∈ p.destinationEventId, ∀ ev ∈ s.calendar.events id,
    p.ownership = .attached ∧ p.status = .converged ∧ Quiescent s ∧
      p.destinationEtag = some ev.revision →
    p.desiredState.bind serializeGoogleDesiredCopy = some ev.body

instance (s : State) : Decidable (ContentSound s) :=
  inferInstanceAs (Decidable (∀ p ∈ s.projection, ∀ id ∈ p.destinationEventId,
    ∀ ev ∈ s.calendar.events id, p.ownership = .attached ∧ p.status = .converged ∧ Quiescent s ∧
      p.destinationEtag = some ev.revision →
    p.desiredState.bind serializeGoogleDesiredCopy = some ev.body))

/-- The steps after which `converged` can be trusted. A pass finds nothing to do for an attached and
quiescent copy only if the copy was converged before and the evaluation is valid, and an effect that
writes carries the projection's desired state unless another one is still to come. -/
def KeepsIntent (setup : Setup) (s : State) : Event → Prop
  | .reconcile ctx o _ => ∀ p ∈ s.projection, p.ownership = .attached →
      p.destinationEventId.isSome → Quiescent s →
        (evaluate setup ctx o (some p)).operation = .none →
          p.status = .converged ∧ (evaluate setup ctx o (some p)).selection ≠ .invalid
  | .execute input => ∀ e ∈ leasedEffect input s, ∀ p ∈ (gate setup s e).toOption,
      e.operation ≠ .delete →
        p.desiredHash = e.desiredState.map sha256Canonical ∨
          ∃ e' ∈ s.effects, e' ≠ e ∧ (e'.unfinished = true ∨ e'.dead = true)
  | _ => True

instance (setup : Setup) (s : State) : (event : Event) → Decidable (KeepsIntent setup s event)
  | .reconcile ctx o _ => inferInstanceAs (Decidable (∀ p ∈ s.projection, p.ownership = .attached →
      p.destinationEventId.isSome → Quiescent s →
        (evaluate setup ctx o (some p)).operation = .none →
          p.status = .converged ∧ (evaluate setup ctx o (some p)).selection ≠ .invalid))
  | .execute input => inferInstanceAs (Decidable (∀ e ∈ leasedEffect input s,
      ∀ p ∈ (gate setup s e).toOption, e.operation ≠ .delete →
        p.desiredHash = e.desiredState.map sha256Canonical ∨
          ∃ e' ∈ s.effects, e' ≠ e ∧ (e'.unfinished = true ∨ e'.dead = true)))
  | .store _ | .beginPass | .readObservation | .lease _ | .crash _ | .loadTarget | .observe _ _
  | .settle _ _ | .resolve _ _ _ | .acknowledge _ | .retryBlocked _ | .setPaused _ _
  | .setEndpoints _ _ | .edit _ | .cleanup _ => isTrue trivial

/-! ## The invariant -/

/-- A converged copy has a desired state, and it is the content of the event at the stored
revision. -/
def Faithful (s : State) : Prop :=
  ∀ p ∈ s.projection, ∀ id ∈ p.destinationEventId,
    p.ownership = .attached → p.status = .converged → Quiescent s →
      ∃ d, p.desiredState = some d ∧ ∀ ev ∈ s.calendar.events id,
        p.destinationEtag = some ev.revision → serializeGoogleDesiredCopy d = some ev.body

section Convergence

variable {setup : Setup} {s s' : State}

theorem Faithful.contentSound (h : Faithful s) : ContentSound s := by
  rintro p hp id hid ev hev ⟨hown, hstatus, hquiet, hetag⟩
  obtain ⟨d, hd, hcontent⟩ := h p hp id hid hown hstatus hquiet
  rw [hd]
  exact hcontent ev hev hetag

/-- A projection that is not attached or not converged is not promised anything. -/
theorem faithful_of_status {p' : ProjectionRow} (hp : s'.projection = some p')
    (h : p'.ownership ≠ .attached ∨ p'.status ≠ .converged) : Faithful s' := by
  intro p hp' id hid hown hstatus
  rw [hp, Option.mem_def, Option.some.injEq] at hp'
  subst hp'
  rcases h with h | h
  · exact absurd hown h
  · exact absurd hstatus h

theorem faithful_of_unquiet {e : EffectRow} (he : e ∈ s'.effects)
    (h : e.unfinished = true ∨ e.dead = true) : Faithful s' := by
  intro p hp id hid hown hstatus hquiet
  obtain ⟨hun, hdead⟩ := hquiet e he
  rcases h with h | h
  · rw [hun] at h
    cases h
  · rw [hdead] at h
    cases h

/-- The projection stays and the calendar changes, which the stored revision survives. -/
theorem Faithful.evolve (h : Faithful s) (hst : Stamped s) (hp : s'.projection = s.projection)
    (hc : Calendar.Evolves s.calendar s'.calendar) (hq : Quiescent s' → Quiescent s) :
    Faithful s' := by
  intro p hp' id hid hown hstatus hquiet
  rw [hp] at hp'
  obtain ⟨d, hd, hcontent⟩ := h p hp' id hid hown hstatus (hq hquiet)
  refine ⟨d, hd, fun ev hev hetag => hcontent ev ?_ hetag⟩
  exact hc.old hev (hst.etag p hp' ev.revision hetag)

theorem TouchedAll.quiescent {effects : List EffectRow} (h : TouchedAll s.effects effects)
    (hq : ∀ e ∈ effects, e.unfinished = false ∧ e.dead = false) : Quiescent s := by
  intro e he
  by_cases hsucc : e.state = .succeeded
  · simp [EffectRow.unfinished, EffectRow.dead, hsucc]
  · obtain ⟨e', he', htouch⟩ := h.forth e he hsucc
    rw [← htouch.unfinished, ← htouch.dead]
    exact hq e' he'

/-- An evaluation that finds nothing to do for an attached copy finds its desired state. -/
theorem evaluate_none_desired {ctx : PassContext} {o : ObservationRow} {p : ProjectionRow}
    {d : DesiredCopy} {id : EventId} (hown : p.ownership = .attached)
    (hdest : p.destinationEventId = some id) (hhash : p.desiredHash = some (sha256Canonical d))
    (hop : (evaluate setup ctx o (some p)).operation = .none)
    (hvalid : (evaluate setup ctx o (some p)).selection ≠ .invalid) :
    (evaluate setup ctx o (some p)).desiredCopy = some d := by
  have hattached : (evaluationInput setup ctx o (some p)).projection.ownership = .attached := by
    simp [evaluationInput, projectionInput, hdest, hown, Ownership.forEvaluation]
  have hverdict := evaluate_verdict setup ctx o (some p)
  generalize evaluate setup ctx o (some p) = r at *
  cases hverdict with
  | invalid code hv => exact absurd rfl hvalid
  | excluded code removed hv =>
    unfold excluded at hop
    rw [hattached] at hop
    cases hop
  | detached reasons warnings hv hdet =>
    rw [hattached] at hdet
    cases hdet
  | ambiguous reasons warnings hv hamb =>
    rw [hattached] at hamb
    cases hamb
  | included _ timing availability hv hlive hown' hsel hcopy hprint hdecide =>
    rw [hop] at hdecide
    rw [hcopy]
    -- The stored fingerprint is present, so nothing to do means that it is the new one.
    unfold decideOperation at hdecide
    simp only [evaluationInput, projectionInput, hdest, hown, hhash, Ownership.forEvaluation,
      Option.isSome_some, Option.isSome_none, reduceCtorEq, and_false, if_false, Bool.false_and,
      Option.some.injEq, Bool.true_eq_false, Bool.false_eq_true, ne_eq, Bool.true_and,
      sha256Canonical_inj, decide_not, Bool.not_eq_eq_eq_not, Bool.not_true,
      decide_eq_false_iff_not] at hdecide
    split at hdecide
    · cases hdecide
    · rename_i heq
      exact congrArg some (not_not.1 heq).symm

/-! ## Steps -/

theorem faithful_reconciled (h : Faithful s) (hcoh : Coherent setup s) {ctx : PassContext}
    {o : ObservationRow} {ins : Insertion} (hok : KeepsIntent setup s (.reconcile ctx o ins))
    (hr : Reconciled setup ctx o ins s s') : Faithful s' := by
  cases hr with
  | absent hnone hop => exact h
  | shadowed p hp hb =>
    refine faithful_of_status rfl (Or.inr ?_)
    simp only [shadowRefresh]
    split <;> simp
  | queued p' operation hp' hop effects heff =>
    exact faithful_of_status rfl (Or.inr (by simp [queued_pending hp' hop]))
  | settled p hp hb hop =>
    intro p' hp' id hid hown hstatus hquiet
    rw [Option.mem_def, Option.some.injEq] at hp'
    subst hp'
    have hown' : p.ownership = .attached := hown
    have hdest : p.destinationEventId = some id := hid
    have hquiet' : Quiescent s := hquiet
    obtain ⟨hconv, hvalid⟩ := hok p hp hown' (by simp [hdest]) hquiet' hop
    obtain ⟨d, hd, hcontent⟩ := h p hp id hdest hown' hconv hquiet'
    have hhash : p.desiredHash = some (sha256Canonical d) := by
      rw [hcoh.hash p hp, hd, Option.map_some]
    refine ⟨d, ?_, hcontent⟩
    rw [refresh_desiredState]
    exact evaluate_none_desired hown' hdest hhash hop hvalid

/-- Outcomes that do not leave a projection converged. -/
theorem projectionAfter_status {e : EffectRow} {outcome : Outcome} {p : ProjectionRow}
    (h : (projectionAfter e outcome p).status = .converged) :
    (∃ reason, outcome = .deferred reason) ∨ (∃ reason, outcome = .superseded reason) ∨
      ∃ remote, outcome = .succeeded remote ∧ e.operation ≠ .delete := by
  cases outcome with
  | deferred reason => exact Or.inl ⟨reason, rfl⟩
  | superseded reason => exact Or.inr (Or.inl ⟨reason, rfl⟩)
  | basisChanged => cases h
  | replaced desired => cases h
  | heldAmbiguous error => cases h
  | failed error =>
    simp only [projectionAfter, failProjection] at h
    split at h <;> cases h
  | succeeded remote =>
    refine Or.inr (Or.inr ⟨remote, rfl, fun hdel => ?_⟩)
    simp only [projectionAfter, succeedProjection, hdel] at h
    cases h

theorem faithful_of_recorded {input : ExecuteInput} {e : EffectRow} {outcome : Outcome}
    (hr : Recorded input e outcome s s') (hdefer : ∀ reason, outcome ≠ .deferred reason)
    (hsuper : ∀ reason, outcome ≠ .superseded reason)
    (hsucc : ∀ remote, outcome ≠ .succeeded remote) : Faithful s' := by
  intro p' hp' id hid hown hstatus
  rw [hr.projection] at hp'
  obtain ⟨p, hp, rfl⟩ := Option.map_eq_some_iff.1 hp'
  rcases projectionAfter_status hstatus with ⟨r, hr⟩ | ⟨r, hr⟩ | ⟨r, hr, -⟩
  · exact absurd hr (hdefer r)
  · exact absurd hr (hsuper r)
  · exact absurd hr (hsucc r)

theorem faithful_deferred {input : ExecuteInput} {e : EffectRow} {reason : SafeErrorCode}
    (he : e ∈ s.effects) (hr : Recorded input e (.deferred reason) s s') : Faithful s' :=
  faithful_of_unquiet (hr.mem_self he) (Or.inl rfl)

/-- The write of an effect that carries the projection's desired state. -/
theorem faithful_written (hcoh : Coherent setup s) {input : ExecuteInput} {e : EffectRow}
    {p : ProjectionRow} {session : Session} {id : EventId} {r : Revision}
    (hok : KeepsIntent setup s (.execute input)) (he : leasedEffect input s = some e)
    (hg : gate setup s e = .ok p)
    (hconc : Concluded setup p e ⟨s.calendar, input.script, []⟩ session
      (.succeeded (some (id, r))))
    (hr : Recorded input e (.succeeded (some (id, r)))
      { s with calendar := session.calendar } s') : Faithful s' := by
  obtain ⟨-, hop, -, payload, hdesired, hevent⟩ := hconc.written_event
  have hleased := leasedEffect_isLeased he
  have hproj := (gate_ok hg).projection
  intro p' hp' id' hid' hown hstatus hquiet
  rw [hr.projection_some hproj, Option.mem_def, Option.some.injEq] at hp'
  subst hp'
  rcases hok e he p (by rw [hg]; rfl) hop with hhash | ⟨e', he', hne, hstate⟩
  · rw [hdesired, Option.map_some] at hhash
    refine ⟨payload.desired, ?_, ?_⟩
    · rw [(projectionAfter_desired (by simp)).1]
      exact hcoh.desiredState hproj hhash
    · intro ev hev hetag
      rw [hr.calendar] at hev
      have hid : id' = id := by
        simpa [projectionAfter, succeedProjection, hop] using hid'.symm
      subst hid
      rw [show session.calendar.events id' = some ⟨payload.body, r⟩ from hevent, Option.mem_def,
        Option.some.injEq] at hev
      subst hev
      exact payload.serialized
  · exfalso
    have hid : e'.id ≠ e.id := fun hid => hne (eq_of_id_eq hcoh.ids he' hleased.mem hid)
    obtain ⟨hun, hdead⟩ := hquiet e' (hr.mem_of_ne he' hid)
    rcases hstate with hstate | hstate
    · rw [hun] at hstate
      cases hstate
    · rw [hdead] at hstate
      cases hstate

theorem faithful_executed (h : Faithful s) (hcoh : Coherent setup s) (hst : Stamped s)
    {input : ExecuteInput} (hok : KeepsIntent setup s (.execute input))
    (hx : Executed setup input s s') : Faithful s' := by
  cases hx with
  | idle => exact h
  | stopped e he outcome hg s' hs' =>
    have hmem := (leasedEffect_isLeased he).mem
    rcases hs' with rfl | hrec
    · exact h.evolve hst rfl (Calendar.Evolves.refl _) fun hq => hq
    · have hrecorded := record_recorded hrec
      cases gate_error hg with
      | deferred reason _ => exact faithful_deferred hmem hrecorded
      | deleted hdel =>
        rw [(hcoh.deleted hdel).2.2] at hmem
        cases hmem
      | basisChanged => exact faithful_of_recorded hrecorded (by simp) (by simp) (by simp)
      | failed error _ _ => exact faithful_of_recorded hrecorded (by simp) (by simp) (by simp)
  | ran e he p hg session ended hrun s' hs' =>
    have hconc := ran_concluded hrun
    rcases hs' with rfl | hrec
    · exact h.evolve hst rfl hconc.evolves fun hq => hq
    · have hrecorded := record_recorded hrec
      cases hout : conclude setup s p e ended with
      | deferred reason => exact absurd hout (conclude_ne_gate.1 reason)
      | basisChanged => exact absurd hout conclude_ne_gate.2
      | superseded reason =>
        obtain ⟨-, e', he', hid, hun⟩ := conclude_superseded hout
        exact faithful_of_unquiet (hrecorded.mem_of_ne he' hid) (Or.inl hun)
      | succeeded remote =>
        rw [hout] at hrecorded
        have hended := conclude_succeeded hout
        subst hended
        cases remote with
        | some written => exact faithful_written hcoh hok he hg hconc hrecorded
        | none =>
          have hop := hconc.removed_operation
          intro p' hp' id hid hown hstatus
          rw [hrecorded.projection] at hp'
          obtain ⟨p₀, -, rfl⟩ := Option.map_eq_some_iff.1 hp'
          simp [projectionAfter, succeedProjection, hop] at hstatus
      | replaced desired =>
        exact faithful_of_recorded (hout ▸ hrecorded) (by simp) (by simp) (by simp)
      | heldAmbiguous error =>
        exact faithful_of_recorded (hout ▸ hrecorded) (by simp) (by simp) (by simp)
      | failed error =>
        exact faithful_of_recorded (hout ▸ hrecorded) (by simp) (by simp) (by simp)

theorem faithful_settled (h : Faithful s) {lookup : Lookup} {input : SettleInput}
    (hst : Settled setup input lookup s s') : Faithful s' := by
  cases hst with
  | unchanged => exact h
  | repaired p hp hun observed revision hshow desired hd notices =>
    exact faithful_of_status rfl (Or.inr (by simp [repairProjection]))
  | editHeld p hp hun observed revision hshow desired hd code hcode notices =>
    exact faithful_of_status rfl (Or.inr (by simp [holdEditProjection]))
  | mismatchHeld p hp hun event hobs hown =>
    exact faithful_of_status rfl (Or.inr (by simp [holdMismatchProjection]))

theorem faithful_recovered (h : Faithful s) {input : RecoveryInput}
    (hr : Resolved setup input s s' ∨ Retried setup input s s') : Faithful s' := by
  rcases hr with hr | hr
  · cases hr with
    | detached p hp hheld notices =>
      exact faithful_of_status rfl (Or.inl (by simp [detachProjection]))
    | restored p hp hheld operation hop hrev hbasis hevid notices =>
      exact faithful_of_status rfl (Or.inr (by simp [recoveringProjection]))
  · cases hr with
    | unchanged => exact h
    | replayed p hp dead hdead hreplay =>
      exact faithful_of_status rfl (Or.inr (by simp [replayedProjection]))
    | gaveUp p hp dead hdead hreplay hno jobs =>
      exact faithful_of_status rfl (Or.inr (by simp [recoveryStale]))
    | stale p hp hdead hheld jobs =>
      exact faithful_of_status rfl (Or.inr (by simp [recoveryStale]))
    | requeued p hp effects heff operation hop hrev hbasis hevid =>
      exact faithful_of_status rfl (Or.inr (by simp [recoveringProjection]))

theorem faithful_stepped (h : Faithful s) (hcoh : Coherent setup s) (hst : Stamped s)
    {event : Event} (hok : KeepsIntent setup s event) (hs : Stepped setup s event s') :
    Faithful s' := by
  cases hs with
  | rest _ _ hp he hc ht hl hcr hpol hr ho =>
    refine h.evolve hst hp (hc ▸ Calendar.Evolves.refl _) fun hq => ?_
    unfold Quiescent at hq ⊢
    rwa [he] at hq
  | touched _ effects htouched policyStatus hpol jobs =>
    exact h.evolve hst rfl (Calendar.Evolves.refl _) htouched.quiescent
  | loaded target htarget => exact h.evolve hst rfl (Calendar.Evolves.refl _) fun hq => hq
  | observed target htarget reply =>
    exact h.evolve hst rfl (Calendar.Evolves.refl _) fun hq => hq
  | edited edit => exact h.evolve hst rfl (Calendar.Evolves.apply _ edit) fun hq => hq
  | reconciled ctx o ins ho hpass hfresh _ hr => exact faithful_reconciled h hcoh hok hr
  | executed input hfresh _ hx => exact faithful_executed h hcoh hst hok hx
  | settled lookup input hl hfresh _ hset => exact faithful_settled h hset
  | resolved notice action input hfresh _ hr => exact faithful_recovered h (Or.inl hr)
  | retried input hfresh _ hr => exact faithful_recovered h (Or.inr hr)

/-- **Soundness of `converged`**, in every run whose steps keep the last intent. Contents are compared up to
NFC here, as canonical JSON compares them. -/
theorem content_sound (h : (system setup).Reachable (KeepsIntent setup) s) : ContentSound s := by
  have hinv : Coherent setup s ∧ Stamped s ∧ Faithful s := by
    refine h.invariant (I := fun s => Coherent setup s ∧ Stamped s ∧ Faithful s) ?_ ?_
    · intro s hs
      refine ⟨coherent_init hs, stamped_init hs, fun p hp => ?_⟩
      rw [hs.projection] at hp
      cases hp
    · rintro s event ⟨hcoh, hst, hf⟩ hok
      have hs := step_stepped setup s event
      exact ⟨coherent_stepped hcoh hs, stamped_stepped hst hs, faithful_stepped hf hcoh hst hok hs⟩
  exact hinv.2.2.contentSound

/-- The plain create is such a run, and it ends converged. -/
theorem content_sound_createdCopy :
    (runFrom plainSetup (startState (plainEvent "meeting" 1)) createdCopy).projection.map
        (·.status) = some .converged ∧
      ContentSound (runFrom plainSetup (startState (plainEvent "meeting" 1)) createdCopy) :=
  ⟨by decide +kernel, content_sound (reachable_admitted (by decide +kernel))⟩

/-- The summary changes, a touch of the source event that leaves the copy alone supersedes the
update, and the next pass finds nothing to do. -/
def overlookedUpdate : List Event :=
  createdCopy ++ [.store (plainEvent "moved" 1 "r2")] ++ passOver (plainEvent "moved" 1 "r2") 2 ++
    [.store (plainEvent "moved" 1 "r3"), leaseBy "other" 0, executeBy "other" 2] ++
      passOver (plainEvent "moved" 1 "r3") 3

/-- The projection is converged and its event has the old summary. -/
theorem overlooked_update_converged :
    (system plainSetup).Reachable (fun _ _ => True)
        (runFrom plainSetup (startState (plainEvent "meeting" 1)) overlookedUpdate) ∧
      ¬ ContentSound (runFrom plainSetup (startState (plainEvent "meeting" 1)) overlookedUpdate) :=
  ⟨reachable_runFrom _, by decide +kernel⟩

end Convergence

end Planipus.Sync

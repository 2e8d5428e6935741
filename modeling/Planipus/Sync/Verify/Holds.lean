import Planipus.Sync.Verify.Coherence
import Planipus.Sync.Verify.Start

/-!
# Destination-edit holds

A hold is a status together with an error code. It rests on an invariant of all runs: a held
projection has no effect under way (`holds_idle`). From there the hold survives everything but a
decision (`hold_survives`), except that the shadow refresh of a pass overwrites the code when the
evaluation is invalid or when a dead effect has a code of its own; then nothing recognises the hold
any more (`invalid_source_ends_hold`).
-/

namespace Planipus.Sync

open CalendarSync Provider Library

section Holds

variable {setup : Setup} {s s' s₀ : State}

/-- A held projection has no effect under way. -/
def HoldsIdle (s : State) : Prop :=
  ∀ p ∈ s.projection, isDestinationEditHold p = true → ∀ e ∈ s.effects, e.unfinished = false

theorem isDestinationEditHold_iff {p : ProjectionRow} :
    isDestinationEditHold p = true ↔ p.status = .held ∧ p.ownership = .attached ∧
      ∃ code, p.safeErrorCode = some code ∧ code ∈ destinationEditHoldCodes := by
  unfold isDestinationEditHold
  cases hcode : p.safeErrorCode with
  | none => simp
  | some code => simp [and_assoc]

/-- A row that cannot be recognised as held. -/
theorem holdsIdle_of_not_held {p' : ProjectionRow} (hp : s'.projection = some p')
    (h : p'.status ≠ .held ∨ p'.ownership ≠ .attached) : HoldsIdle s' := by
  intro p hp' hheld
  rw [hp, Option.mem_def, Option.some.injEq] at hp'
  subst hp'
  obtain ⟨hstatus, hown, -⟩ := isDestinationEditHold_iff.1 hheld
  rcases h with h | h
  · exact absurd hstatus h
  · exact absurd hown h

/-- Outcomes of an execution do not make holds of this kind. -/
theorem projectionAfter_not_held {e : EffectRow} {outcome : Outcome} {p : ProjectionRow}
    (h : isDestinationEditHold (projectionAfter e outcome p) = true) :
    isDestinationEditHold p = true := by
  cases outcome with
  | deferred reason => exact h
  | superseded reason => exact h
  | basisChanged => simp [projectionAfter, isDestinationEditHold] at h
  | replaced desired => simp [projectionAfter, replaceProjection, isDestinationEditHold] at h
  | heldAmbiguous error => simp [projectionAfter, holdProjection, isDestinationEditHold] at h
  | failed error =>
    obtain ⟨hstatus, -⟩ := isDestinationEditHold_iff.1 h
    simp only [projectionAfter, failProjection] at hstatus
    split at hstatus <;> cases hstatus
  | succeeded remote =>
    obtain ⟨hstatus, -⟩ := isDestinationEditHold_iff.1 h
    simp only [projectionAfter, succeedProjection] at hstatus
    split at hstatus <;> cases hstatus

theorem HoldsIdle.no_lease (h : HoldsIdle s) {p : ProjectionRow} (hp : s.projection = some p)
    (hheld : isDestinationEditHold p = true) (input : ExecuteInput) :
    leasedEffect input s = none := by
  cases he : leasedEffect input s with
  | none => rfl
  | some e =>
    have hleased := leasedEffect_isLeased he
    have hun := h p hp hheld e hleased.mem
    rw [hleased.unfinished] at hun
    cases hun

theorem holdsIdle_recorded (h : HoldsIdle s) {input : ExecuteInput} {e : EffectRow}
    {outcome : Outcome} (he : leasedEffect input s = some e) (s₁ : State)
    (hs₁ : s₁.projection = s.projection) (hr : Recorded input e outcome s₁ s') :
    HoldsIdle s' := by
  intro p' hp' hheld
  rw [hr.projection, hs₁] at hp'
  obtain ⟨p, hp, rfl⟩ := Option.map_eq_some_iff.1 hp'
  have hnone := h.no_lease hp (projectionAfter_not_held hheld) input
  rw [he] at hnone
  cases hnone

theorem holdsIdle_executed (h : HoldsIdle s) {input : ExecuteInput}
    (hx : Executed setup input s s') : HoldsIdle s' := by
  cases hx with
  | idle => exact h
  | stopped e he outcome hg s' hs' =>
    rcases hs' with rfl | hrec
    · exact h
    · exact holdsIdle_recorded h he s rfl (record_recorded hrec)
  | ran e he p hg session ended hrun s' hs' =>
    rcases hs' with rfl | hrec
    · exact h
    · exact holdsIdle_recorded h he { s with calendar := session.calendar } rfl
        (record_recorded hrec)

/-- A pass makes no hold: it keeps one or it does not. -/
theorem shadowRefresh_held {o : ObservationRow} {r : PolicyEvaluationResult}
    {dead : Option EffectRow} {p : ProjectionRow}
    (h : isDestinationEditHold (shadowRefresh setup o r dead p) = true) :
    isDestinationEditHold p = true := by
  obtain ⟨hstatus, hown, -⟩ := isDestinationEditHold_iff.1 h
  have hown' : p.ownership = .attached := hown
  simp only [shadowRefresh, hown'] at hstatus
  by_contra hno
  simp [hno] at hstatus

theorem holdsIdle_reconciled (h : HoldsIdle s) {ctx : PassContext} {o : ObservationRow}
    {ins : Insertion} (hr : Reconciled setup ctx o ins s s') : HoldsIdle s' := by
  cases hr with
  | absent hnone hop => exact h
  | shadowed p hp hb =>
    intro p' hp' hheld
    rw [Option.mem_def, Option.some.injEq] at hp'
    subst hp'
    exact h p hp (shadowRefresh_held hheld)
  | settled p hp hb hop =>
    refine holdsIdle_of_not_held rfl (Or.inl ?_)
    simp only [refresh, hop, if_true, settledStatus, evaluate_selection_ne_held, if_false]
    split <;> simp
  | queued p' operation hp' hop effects heff =>
    exact holdsIdle_of_not_held rfl (Or.inl (by simp [queued_pending hp' hop]))

theorem holdsIdle_settled (h : HoldsIdle s) {lookup : Lookup} {input : SettleInput}
    (hst : Settled setup input lookup s s') : HoldsIdle s' := by
  cases hst with
  | unchanged => exact h
  | repaired p hp hun observed revision hshow desired hd notices =>
    exact holdsIdle_of_not_held rfl (Or.inl (by simp [repairProjection]))
  | editHeld p hp hun observed revision hshow desired hd code hcode notices =>
    intro p' hp' hheld
    exact (unmoved_spec hun).idle
  | mismatchHeld p hp hun event hobs hown =>
    exact holdsIdle_of_not_held rfl (Or.inr (by simp [holdMismatchProjection]))

theorem holdsIdle_recovered (h : HoldsIdle s) {input : RecoveryInput}
    (hr : Resolved setup input s s' ∨ Retried setup input s s') : HoldsIdle s' := by
  rcases hr with hr | hr
  · cases hr with
    | detached p hp hheld notices =>
      exact holdsIdle_of_not_held rfl (Or.inr (by simp [detachProjection]))
    | restored p hp hheld operation hop hrev hbasis hevid notices =>
      exact holdsIdle_of_not_held rfl (Or.inl (by simp [recoveringProjection]))
  · cases hr with
    | unchanged => exact h
    | replayed p hp dead hdead hreplay =>
      exact holdsIdle_of_not_held rfl (Or.inl (by simp [replayedProjection]))
    | gaveUp p hp dead hdead hreplay hno jobs =>
      exact holdsIdle_of_not_held rfl (Or.inl (by simp [recoveryStale]))
    | stale p hp hdead hheld jobs =>
      exact holdsIdle_of_not_held rfl (Or.inr (by simp [recoveryStale, hheld.2]))
    | requeued p hp effects heff operation hop hrev hbasis hevid =>
      exact holdsIdle_of_not_held rfl (Or.inl (by simp [recoveringProjection]))

theorem holdsIdle_stepped (h : HoldsIdle s) {event : Event} (hs : Stepped setup s event s') :
    HoldsIdle s' := by
  cases hs with
  | rest _ _ hp he hc ht hl hcr hst hr ho =>
    unfold HoldsIdle
    rw [hp, he]
    exact h
  | touched _ effects htouched policyStatus hst jobs =>
    intro p hp hheld e' he'
    obtain ⟨e, he, htouch⟩ := htouched.back e' he'
    rw [htouch.unfinished]
    exact h p hp hheld e he
  | loaded target htarget => exact h
  | observed target htarget reply => exact h
  | edited edit => exact h
  | reconciled ctx o ins ho hpass hfresh _ hr => exact holdsIdle_reconciled h hr
  | executed input hfresh _ hx => exact holdsIdle_executed h hx
  | settled lookup input hl hfresh _ hst => exact holdsIdle_settled h hst
  | resolved notice action input hfresh _ hr => exact holdsIdle_recovered h (Or.inl hr)
  | retried input hfresh _ hr => exact holdsIdle_recovered h (Or.inr hr)

theorem holds_idle {ok : State → Event → Prop} (h : (system setup).Reachable ok s) :
    HoldsIdle s := by
  refine h.invariant (I := HoldsIdle) ?_ fun s event hs _ =>
    holdsIdle_stepped hs (step_stepped setup s event)
  intro s hs p hp
  rw [hs.projection] at hp
  cases hp

/-! ## Holds along a run -/

/-- The steps that a hold survives: there is no decision on it, a pass evaluates the source event
validly, and no dead effect is in the way of a pass or of a retry. -/
def SparesHold (setup : Setup) (s : State) : Event → Prop
  | .resolve _ _ _ => False
  | .retryBlocked _ => ∀ e ∈ s.effects, e.dead = false
  | .reconcile ctx o _ => (∀ e ∈ s.effects, e.dead = false) ∧
      (evaluate setup ctx o s.projection).selection ≠ .invalid
  | _ => True

instance (setup : Setup) (s : State) : (event : Event) → Decidable (SparesHold setup s event)
  | .resolve _ _ _ => isFalse id
  | .retryBlocked _ => inferInstanceAs (Decidable (∀ e ∈ s.effects, e.dead = false))
  | .reconcile ctx o _ => inferInstanceAs (Decidable ((∀ e ∈ s.effects, e.dead = false) ∧
      (evaluate setup ctx o s.projection).selection ≠ .invalid))
  | .store _ | .beginPass | .readObservation | .lease _ | .execute _ | .crash _ | .loadTarget
  | .observe _ _ | .settle _ _ | .acknowledge _ | .setPaused _ _ | .setEndpoints _ _ | .edit _
  | .cleanup _ => isTrue trivial

/-- The hold is there, nothing is under way, and every effect was there at the start. -/
structure StillHeld (s₀ s : State) : Prop where
  held : ∃ p, s.projection = some p ∧ isDestinationEditHold p = true
  idle : ∀ e ∈ s.effects, e.unfinished = false
  old : ∀ e ∈ s.effects, ∃ e₀ ∈ s₀.effects, e₀.id = e.id

theorem blockingDeadEffect_none {effects : List EffectRow} (h : ∀ e ∈ effects, e.dead = false) :
    blockingDeadEffect effects = none := by
  cases hdead : blockingDeadEffect effects with
  | none => rfl
  | some e =>
    obtain ⟨he, hstate⟩ := blockingDeadEffect_mem hdead
    have hfalse := h e he
    simp [EffectRow.dead, hstate] at hfalse

/-- A valid evaluation of a held copy asks for a recovery. -/
theorem recoveryOperation_of_held {ctx : PassContext} {o : ObservationRow} {p : ProjectionRow}
    (hstatus : p.status = .held) (hown : p.ownership = .attached)
    (hvalid : (evaluate setup ctx o (some p)).selection ≠ .invalid) :
    ∃ operation, recoveryOperationForResult (evaluate setup ctx o (some p)) = some operation := by
  have hattached : (evaluationInput setup ctx o (some p)).projection.ownership = .attached := by
    simp [evaluationInput, projectionInput, hstatus, hown, Ownership.forEvaluation]
  have hverdict := evaluate_verdict setup ctx o (some p)
  generalize evaluate setup ctx o (some p) = r at *
  cases hverdict with
  | invalid code hv => exact absurd rfl hvalid
  | excluded code removed hv =>
    refine ⟨.delete, ?_⟩
    unfold excluded
    rw [hattached]
    rfl
  | detached reasons warnings hv hdet =>
    rw [hattached] at hdet
    cases hdet
  | ambiguous reasons warnings hv hamb =>
    rw [hattached] at hamb
    cases hamb
  | included _ timing availability hv hlive hown' hsel hcopy hprint hop =>
    unfold recoveryOperationForResult
    rw [hsel]
    cases r.operation <;> exact ⟨_, rfl⟩

theorem shadowRefresh_keeps {ctx : PassContext} {o : ObservationRow} {p : ProjectionRow}
    (hheld : isDestinationEditHold p = true)
    (hvalid : (evaluate setup ctx o (some p)).selection ≠ .invalid) :
    isDestinationEditHold
      (shadowRefresh setup o (evaluate setup ctx o (some p)) none p) = true := by
  obtain ⟨hstatus, hown, code, hcode, hmem⟩ := isDestinationEditHold_iff.1 hheld
  obtain ⟨operation, hop⟩ := recoveryOperation_of_held hstatus hown hvalid
  refine isDestinationEditHold_iff.2 ⟨?_, hown, code, ?_, hmem⟩
  · simp [shadowRefresh, hheld]
  · simp [shadowRefresh, hop, hcode]

theorem stillHeld_reconciled (h : StillHeld s₀ s) {ctx : PassContext} {o : ObservationRow}
    {ins : Insertion} (hok : SparesHold setup s (.reconcile ctx o ins))
    (hr : Reconciled setup ctx o ins s s') : StillHeld s₀ s' := by
  obtain ⟨p, hp, hheld⟩ := h.held
  have hblocked : blocked s p = true := by simp [blocked, hheld]
  cases hr with
  | absent hnone hop => exact h
  | shadowed p' hp' hb =>
    rw [hp, Option.some.injEq] at hp'
    subst hp'
    have hdead := blockingDeadEffect_none hok.1
    have hvalid := hok.2
    rw [hp] at hvalid
    refine ⟨⟨_, rfl, ?_⟩, h.idle, h.old⟩
    rw [hdead]
    exact shadowRefresh_keeps hheld hvalid
  | settled p' hp' hb hop =>
    rw [hp, Option.some.injEq] at hp'
    subst hp'
    rw [hblocked] at hb
    cases hb
  | queued p' operation hp' hop effects heff =>
    rcases hp' with ⟨hnone, -⟩ | ⟨p'', hp'', hb, -⟩
    · rw [hp] at hnone
      cases hnone
    · rw [hp, Option.some.injEq] at hp''
      subst hp''
      rw [hblocked] at hb
      cases hb

theorem stillHeld_retried (h : StillHeld s₀ s) {input : RecoveryInput}
    (hok : SparesHold setup s (.retryBlocked input)) (hr : Retried setup input s s') :
    StillHeld s₀ s' := by
  obtain ⟨p, hp, hheld⟩ := h.held
  obtain ⟨-, hown, -⟩ := isDestinationEditHold_iff.1 hheld
  have hnone := blockingDeadEffect_none hok
  have hown' : ∀ p', s.projection = some p' → p'.ownership ≠ .ambiguous := by
    intro p' hp' hamb
    rw [hp, Option.some.injEq] at hp'
    subst hp'
    rw [hown] at hamb
    cases hamb
  cases hr with
  | unchanged => exact h
  | replayed p' hp' dead hdead hreplay =>
    rw [hnone] at hdead
    cases hdead
  | gaveUp p' hp' dead hdead hreplay hno jobs =>
    rw [hnone] at hdead
    cases hdead
  | stale p' hp' hdead hheld' jobs => exact absurd hheld'.2 (hown' p' hp')
  | requeued p' hp' effects heff operation hop hrev hbasis hevid =>
    rcases heff with ⟨-, -, -, hamb⟩ | ⟨dead, hdead, -⟩
    · exact absurd hamb (hown' p' hp')
    · rw [hnone] at hdead
      cases hdead

theorem stillHeld_stepped (h : StillHeld s₀ s) {event : Event}
    (hok : SparesHold setup s event) (hs : Stepped setup s event s') : StillHeld s₀ s' := by
  obtain ⟨p, hp, hheld⟩ := h.held
  have hidle : HoldsIdle s := fun _ _ _ => h.idle
  cases hs with
  | rest _ _ hproj he hc ht hl hcr hst hr ho =>
    exact ⟨⟨p, hproj.trans hp, hheld⟩, he ▸ h.idle, he ▸ h.old⟩
  | touched _ effects htouched policyStatus hst jobs =>
    refine ⟨⟨p, hp, hheld⟩, fun e' he' => ?_, fun e' he' => ?_⟩
    · obtain ⟨e, he, htouch⟩ := htouched.back e' he'
      rw [htouch.unfinished]
      exact h.idle e he
    · obtain ⟨e, he, htouch⟩ := htouched.back e' he'
      rw [htouch.id]
      exact h.old e he
  | loaded target htarget => exact ⟨⟨p, hp, hheld⟩, h.idle, h.old⟩
  | observed target htarget reply => exact ⟨⟨p, hp, hheld⟩, h.idle, h.old⟩
  | edited edit => exact ⟨⟨p, hp, hheld⟩, h.idle, h.old⟩
  | reconciled ctx o ins ho hpass hfresh _ hr => exact stillHeld_reconciled h hok hr
  | executed input hfresh _ hx =>
    have hnone := hidle.no_lease hp hheld input
    cases hx with
    | idle => exact h
    | stopped e he =>
      rw [hnone] at he
      cases he
    | ran e he =>
      rw [hnone] at he
      cases he
  | settled lookup input hl hfresh _ hst =>
    have hmoved : ∀ p', s.projection = some p' → unmoved setup lookup.target s p' ≠ true := by
      intro p' hp' hun
      rw [hp, Option.some.injEq] at hp'
      subst hp'
      have hconv := (unmoved_spec hun).status
      rw [(isDestinationEditHold_iff.1 hheld).1] at hconv
      cases hconv
    cases hst with
    | unchanged => exact h
    | repaired p' hp' hun => exact absurd hun (hmoved p' hp')
    | editHeld p' hp' hun => exact absurd hun (hmoved p' hp')
    | mismatchHeld p' hp' hun => exact absurd hun (hmoved p' hp')
  | resolved notice action input hfresh _ hr => exact absurd hok id
  | retried input hfresh _ hr => exact stillHeld_retried h hok hr

/-- **Holds are durable.** From any reachable state in which the projection is held for a
destination edit, along any run that spares the hold: the hold is recognised, no effect has been
created, and no event sends a write request. -/
theorem hold_survives (h₀ : (system setup).Reachable (fun _ _ => True) s₀) {p₀ : ProjectionRow}
    (hp₀ : s₀.projection = some p₀) (hheld : isDestinationEditHold p₀ = true)
    (hrun : (system setup).Leads (SparesHold setup) s₀ s) :
    (∃ p, s.projection = some p ∧ isDestinationEditHold p = true) ∧
      (∀ e ∈ s.effects, ∃ e₀ ∈ s₀.effects, e₀.id = e.id) ∧
      ∀ event, issued setup s event = [] := by
  have hidle := holds_idle h₀ p₀ hp₀ hheld
  have hstill : StillHeld s₀ s := by
    refine hrun.invariant (I := StillHeld s₀)
      ⟨⟨p₀, hp₀, hheld⟩, hidle, fun e he => ⟨e, he, rfl⟩⟩ ?_
    exact fun s event h hok => stillHeld_stepped h hok (step_stepped setup s event)
  refine ⟨hstill.held, hstill.old, fun event => ?_⟩
  refine List.eq_nil_iff_forall_not_mem.2 fun call hcall => ?_
  obtain ⟨input, e, p, -, he, -⟩ := issued_tried hcall
  have hleased := leasedEffect_isLeased he
  have hun := hstill.idle e hleased.mem
  rw [hleased.unfinished] at hun
  cases hun

/-- A copy that is created, changed by a person and held for review. -/
def heldCopy : State :=
  runFrom (plainSetup .holdForReview) (startState (plainEvent "meeting" 1))
    (createdCopy ++ verifyEdited (plainBody "changed" 1) 2)

/-- The source event moves and is deleted; the policy is paused and resumed. -/
def restlessSource : List Event :=
  [.store (plainEvent "moved" 2 "r2")] ++ passOver (plainEvent "moved" 2 "r2") 2 ++
    [.setPaused true 5, .setPaused false 6, .store removedEvent] ++ passOver removedEvent 3 ++
    [leaseBy "worker" 7, executeBy "worker" 3]

/-- The hold outlasts such a source. -/
theorem hold_survives_restlessSource :
    heldCopy.projection.map isDestinationEditHold = some true ∧
      ∃ p, (runFrom (plainSetup .holdForReview) heldCopy restlessSource).projection = some p ∧
        isDestinationEditHold p = true := by
  have hheld : heldCopy.projection.map isDestinationEditHold = some true := by decide +kernel
  obtain ⟨p₀, hp₀, hheld₀⟩ := Option.map_eq_some_iff.1 hheld
  exact ⟨hheld, (hold_survives (reachable_runFrom _) hp₀ hheld₀
    (Machine.leads_run restlessSource heldCopy (by decide +kernel))).1⟩

/-- A confirmed event that the provider lists without start and end. -/
def untimedEvent : SourceObservation := { plainEvent "meeting" 1 "r2" with timing := none }

/-- A version of the source event that cannot be evaluated ends the hold without a decision. -/
theorem invalid_source_ends_hold :
    heldCopy.projection.map isDestinationEditHold = some true ∧
      (runFrom (plainSetup .holdForReview) heldCopy
        ([.store untimedEvent] ++ passOver untimedEvent 2)).projection.map isDestinationEditHold =
          some false := by
  decide +kernel

end Holds

end Planipus.Sync

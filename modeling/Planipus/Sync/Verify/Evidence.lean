import Planipus.Sync.Verify.Stamps
import Planipus.Sync.Verify.Start

/-!
# The evidence of a projection

Three columns of a projection are read together before a copy is repaired, replaced or recovered:
the generation, the desired state and its hash. Seven operations write them, and most write them
together. A successful delete does not: it moves the generation on and leaves the desired state,
which is empty whenever the evaluation that queued the delete is still the last one. The gate of an
execution compares the versions of the source event, but an event that has not changed can be
evaluated again with another result, and then the delete that is still queued is carried out for a
projection that wants its copy.

`evidence_kept_iff` says that this is the only way to lose the evidence.
-/

namespace Planipus.Sync

open CalendarSync Provider Library

section Evidence

variable {setup : Setup} {s s' : State} {p : ProjectionRow}

/-- What `scheduleRepair`, `retryBlocked`, `resolve` and `scheduleReplacementAfterMissing` rely
on. -/
structure Evidenced (setup : Setup) (p : ProjectionRow) : Prop where
  provenance : ∀ d, p.desiredState = some d →
    d.provenance = ⟨setup.policyId, setup.projectionId, p.generation⟩
  hash : ∀ d, p.desiredState = some d → p.desiredHash = some (sha256Canonical d)
  empty : p.desiredState = none → p.desiredHash = none

def EvidenceKept (setup : Setup) (s : State) : Prop :=
  ∀ p, s.projection = some p → Evidenced setup p

/-- The copy that a projection wants is of its own generation. -/
def ProjectionRow.Current (p : ProjectionRow) : Prop :=
  ∀ d, p.desiredState = some d → d.provenance.generation = p.generation

/-- A delete is carried out and recorded although the projection wants its copy. -/
def deletesWanted (setup : Setup) (s : State) : Event → Bool
  | .execute input =>
    s.freshEffect input.replacement.id && !input.crash &&
      (leasedEffect input s).any fun e =>
        match gate setup s e with
        | .error _ => false
        | .ok p =>
          match (runProvider setup p e input.token ⟨s.calendar, input.script, []⟩).2 with
          | .succeeded _ => e.operation = .delete && p.desiredState.isSome
          | _ => false
  | _ => false

/-- Among coherent rows the evidence is a matter of the generation alone. -/
theorem Coherent.evidenced (h : Coherent setup s) (hp : s.projection = some p)
    (hcur : p.Current) : Evidenced setup p where
  provenance d hd := by
    obtain ⟨o, -, hprod⟩ := h.projection p hp d hd
    rw [hprod.provenance, hcur d hd]
  hash d hd := by
    rw [h.hash p hp, hd, Option.map_some]
  empty hd := by
    rw [h.hash p hp, hd, Option.map_none]

theorem Evidenced.current (h : Evidenced setup p) : p.Current := by
  intro d hd
  rw [h.provenance d hd]

/-! ## The rows the operations write -/

theorem current_of_evaluate {ctx : PassContext} {o : ObservationRow} {p' : ProjectionRow}
    (existing : Option ProjectionRow)
    (hd : p'.desiredState = (evaluate setup ctx o existing).desiredCopy)
    (hg : p'.generation = (existing.map (·.generation)).getD 1) : p'.Current := by
  intro d hd'
  rw [hd] at hd'
  rw [(evaluate_copy hd').2, hg]

theorem current_of_eq {p' : ProjectionRow} (h : p.Current) (hd : p'.desiredState = p.desiredState)
    (hg : p'.generation = p.generation) : p'.Current := by
  intro d hd'
  rw [hg]
  exact h d (hd ▸ hd')

theorem current_reconciled {ctx : PassContext} {o : ObservationRow} {ins : Insertion}
    (h : ∀ p, s.projection = some p → p.Current) (hr : Reconciled setup ctx o ins s s') :
    ∀ p, s'.projection = some p → p.Current := by
  intro p' hp'
  cases hr with
  | absent hnone hop => exact h p' hp'
  | shadowed p hp hb =>
    cases hp'
    exact current_of_evaluate (some p) rfl rfl
  | settled p hp hb hop =>
    cases hp'
    exact current_of_evaluate (some p) (refresh_desiredState setup o p) rfl
  | queued row operation hrow hop effects heff =>
    cases hp'
    rcases hrow with ⟨-, rfl⟩ | ⟨p, -, -, rfl⟩
    · exact current_of_evaluate none (newProjection_desiredState setup o) rfl
    · exact current_of_evaluate (some p) (refresh_desiredState setup o p) rfl

theorem current_repair (h : p.Current) {d : DesiredCopy} (hd : p.desiredState = some d)
    (observed : ObservedEdit) (revision : Option Revision) :
    (repairProjection observed revision d p).Current := by
  intro d' hd'
  cases observed with
  | drifted =>
    cases hd'
    exact h d hd
  | missing =>
    cases hd'
    rfl

theorem current_settled {lookup : Lookup} {input : SettleInput}
    (h : ∀ p, s.projection = some p → p.Current) (hst : Settled setup input lookup s s') :
    ∀ p, s'.projection = some p → p.Current := by
  intro p' hp'
  cases hst with
  | unchanged => exact h p' hp'
  | repaired p hp hun observed revision hshow desired hd notices =>
    cases hp'
    exact current_repair (h p hp) (verifiedDesired_some hd).1 observed revision
  | editHeld p hp hun observed revision hshow desired hd code hcode notices =>
    cases hp'
    exact current_of_eq (h p hp) rfl rfl
  | mismatchHeld p hp hun event hobs hown =>
    cases hp'
    exact current_of_eq (h p hp) rfl rfl

theorem current_resolved {input : RecoveryInput} (h : ∀ p, s.projection = some p → p.Current)
    (hr : Resolved setup input s s') : ∀ p, s'.projection = some p → p.Current := by
  intro p' hp'
  cases hr with
  | detached p hp hheld notices =>
    cases hp'
    exact current_of_eq (h p hp) rfl rfl
  | restored p hp hheld operation hop hrev hbasis hevid notices =>
    cases hp'
    exact current_of_eq (h p hp) rfl rfl

theorem current_retried {input : RecoveryInput} (h : ∀ p, s.projection = some p → p.Current)
    (hr : Retried setup input s s') : ∀ p, s'.projection = some p → p.Current := by
  intro p' hp'
  cases hr with
  | unchanged => exact h p' hp'
  | replayed p hp dead hdead hreplay =>
    cases hp'
    exact current_of_eq (h p hp) rfl rfl
  | gaveUp p hp dead hdead hreplay hno jobs =>
    cases hp'
    exact current_of_eq (h p hp) rfl rfl
  | stale p hp hdead hheld jobs =>
    cases hp'
    exact current_of_eq (h p hp) rfl rfl
  | requeued p hp effects heff operation hop hrev hbasis hevid =>
    cases hp'
    exact current_of_eq (h p hp) rfl rfl

/-! ## Executions -/

/-- Only a delete moves the generation without the desired state. -/
theorem current_succeeded (h : p.Current) {operation : Operation}
    (hop : operation = .delete → p.desiredState = none)
    (remote : Option (EventId × Revision)) : (succeedProjection operation remote p).Current := by
  cases operation with
  | delete =>
    intro d hd
    change p.desiredState = some d at hd
    rw [hop rfl] at hd
    cases hd
  | create => exact current_of_eq h rfl rfl
  | update => exact current_of_eq h rfl rfl

theorem current_projectionAfter (h : p.Current) {e : EffectRow} {outcome : Outcome}
    (hsucc : ∀ remote, outcome = .succeeded remote → e.operation = .delete →
      p.desiredState = none)
    (hrep : ∀ d, outcome = .replaced d → d.provenance.generation = p.generation + 1) :
    (projectionAfter e outcome p).Current := by
  cases outcome with
  | succeeded remote => exact current_succeeded h (hsucc remote rfl) remote
  | replaced d =>
    intro d' hd'
    cases hd'
    exact hrep d rfl
  | _ => exact current_of_eq h rfl rfl

theorem current_recorded {input : ExecuteInput} {e : EffectRow} {outcome : Outcome}
    (h : ∀ p, s.projection = some p → p.Current) (hr : Recorded input e outcome s s')
    (hsucc : ∀ p, s.projection = some p → ∀ remote, outcome = .succeeded remote →
      e.operation = .delete → p.desiredState = none)
    (hrep : ∀ p, s.projection = some p → ∀ d, outcome = .replaced d →
      d.provenance.generation = p.generation + 1) :
    ∀ p, s'.projection = some p → p.Current := by
  intro p' hp'
  rw [hr.projection] at hp'
  obtain ⟨p, hp, rfl⟩ := Option.map_eq_some_iff.1 hp'
  exact current_projectionAfter (h p hp) (hsucc p hp) (hrep p hp)

/-- A worker that dies writes no rows. -/
theorem executeOne_crash {input : ExecuteInput} (h : input.crash = true) :
    (executeOne setup input s).projection = s.projection := by
  unfold executeOne
  cases he : leasedEffect input s with
  | none => rfl
  | some e => simp [h, abandon]

theorem current_executed {input : ExecuteInput} (h : ∀ p, s.projection = some p → p.Current)
    (hfresh : s.freshEffect input.replacement.id = true) (hcrash : input.crash = false)
    (hok : deletesWanted setup s (.execute input) = false) (hx : Executed setup input s s') :
    ∀ p, s'.projection = some p → p.Current := by
  cases hx with
  | idle => exact h
  | stopped e he outcome hg s' hs' =>
    rcases hs' with rfl | hrec
    · exact h
    · have hstop := gate_error hg
      refine current_recorded h (record_recorded hrec) ?_ ?_
      · rintro p - remote rfl
        cases hstop
      · rintro p - d rfl
        cases hstop
  | ran e he p hg session ended hrun s' hs' =>
    rcases hs' with rfl | hrec
    · exact h
    · refine current_recorded (s := { s with calendar := session.calendar }) h
        (record_recorded hrec) ?_ ?_
      · intro p' hp' remote hout hop
        cases ((gate_ok hg).projection.symm.trans hp')
        have hended := conclude_succeeded hout
        simpa [deletesWanted, hfresh, hcrash, he, hg, hrun, hended, hop] using hok
      · intro p' hp' d hout
        cases ((gate_ok hg).projection.symm.trans hp')
        obtain ⟨-, -, hrep⟩ := conclude_replaced hout
        obtain ⟨desired, -, -, -, rfl⟩ := replacementDesired_ok hrep
        rfl

/-! ## Runs -/

theorem current_stepped (h : ∀ p, s.projection = some p → p.Current) {event : Event}
    (hexec : ∀ input, event ≠ .execute input) (hs : Stepped setup s event s') :
    ∀ p, s'.projection = some p → p.Current := by
  cases hs with
  | rest _ _ hp => exact hp ▸ h
  | touched => exact h
  | loaded => exact h
  | observed => exact h
  | edited => exact h
  | reconciled ctx o ins ho hpass hfresh _ hr => exact current_reconciled h hr
  | executed input => exact absurd rfl (hexec input)
  | settled lookup input hl hfresh _ hst => exact current_settled h hst
  | resolved notice action input hfresh _ hr => exact current_resolved h hr
  | retried input hfresh _ hr => exact current_retried h hr

theorem current_step (h : ∀ p, s.projection = some p → p.Current) {event : Event}
    (hok : deletesWanted setup s event = false) :
    ∀ p, (step setup s event).projection = some p → p.Current := by
  cases event with
  | execute input =>
    simp only [step]
    split
    · rename_i hfresh
      cases hcrash : input.crash with
      | true => rwa [executeOne_crash hcrash]
      | false =>
        exact current_executed h hfresh hcrash hok (executeOne_cases setup input s)
    · exact h
  | _ => exact current_stepped h (by simp) (step_stepped setup s _)

/-- The delete that goes wrong: it is done for a copy that is wanted. -/
theorem deletesWanted_true {event : Event} (h : deletesWanted setup s event = true) :
    ∃ input e p d remote, event = .execute input ∧ s.freshEffect input.replacement.id = true ∧
      input.crash = false ∧ leasedEffect input s = some e ∧ e.operation = .delete ∧
      gate setup s e = .ok p ∧ p.desiredState = some d ∧
      (executeSession setup input s e).2 = .succeeded remote := by
  cases event with
  | execute input =>
    simp only [deletesWanted, Bool.and_eq_true, Bool.not_eq_true', Option.any_eq_true] at h
    obtain ⟨⟨hfresh, hcrash⟩, e, he, hmatch⟩ := h
    cases hg : gate setup s e with
    | error outcome =>
      rw [hg] at hmatch
      cases hmatch
    | ok p =>
      simp only [hg] at hmatch
      split at hmatch
      · rename_i remote hended
        simp only [Bool.and_eq_true, decide_eq_true_eq, Option.isSome_iff_exists] at hmatch
        obtain ⟨hop, d, hd⟩ := hmatch
        refine ⟨input, e, p, d, remote, rfl, hfresh, hcrash, he, hop, hg, hd, ?_⟩
        simp [executeSession, hg, hended, conclude]
      · cases hmatch
  | _ => cases h

/-- Such a delete loses the evidence. -/
theorem not_current_of_deletesWanted (h : ∀ p, s.projection = some p → p.Current) {event : Event}
    (hdel : deletesWanted setup s event = true) :
    ∃ p, (step setup s event).projection = some p ∧ ¬p.Current := by
  obtain ⟨input, e, p, d, remote, rfl, hfresh, hcrash, he, hop, hg, hd, hout⟩ :=
    deletesWanted_true hdel
  have hp := (gate_ok hg).projection
  refine ⟨succeedProjection .delete remote p, ?_, fun hcur => ?_⟩
  · simp [step, hfresh, executeOne, he, hout, hcrash, record, State.mapEffect,
      State.mapProjection, hop, hp]
  · have hafter : d.provenance.generation = p.generation + 1 := hcur d hd
    have hbefore : d.provenance.generation = p.generation := h p hp d hd
    omega

/-- **The evidence of a projection.** In a run the provenance of every desired state names the
policy, the projection and the current generation, and the hash is that of the desired state, in
every state if and only if no delete is carried out while the projection wants its copy. -/
theorem evidence_kept_iff (hs : Initial setup s) (events : List Event) :
    (system setup).Throughout (EvidenceKept setup) (fun _ _ => True) s events ↔
      (system setup).Admits (fun s event => deletesWanted setup s event = false) s events := by
  refine Machine.throughout_iff_admits
    (I := fun s => Coherent setup s ∧ ∀ p, s.projection = some p → p.Current) ?_ ?_ ?_ events
    ⟨coherent_init hs, fun p hp => ?_⟩
  · rintro s ⟨hcoh, hcur⟩ p hp
    exact hcoh.evidenced hp (hcur p hp)
  · rintro s event ⟨hcoh, hcur⟩ hok
    exact ⟨trivial, coherent_stepped hcoh (step_stepped setup s event), current_step hcur hok⟩
  · rintro s event ⟨-, hcur⟩ - hkept
    by_contra hdel
    obtain ⟨p, hp, hnot⟩ := not_current_of_deletesWanted hcur (by simpa using hdel)
    exact hnot (hkept p hp).current
  · rw [hs.projection] at hp
    cases hp

/-- A copy that is created, deleted with its source event and created again. -/
def copyRecreated : List Event :=
  createdCopy ++ [.store removedEvent] ++ passOver removedEvent 2 ++
    [leaseBy "worker" 1, executeBy "worker" 2, .store (plainEvent "again" 1 "r3")] ++
    passOver (plainEvent "again" 1 "r3") 3 ++ [leaseBy "worker" 2, executeBy "worker" 3]

/-- The evidence outlasts a delete that is wanted. -/
theorem evidence_kept_copyRecreated :
    ((runFrom plainSetup (startState (plainEvent "meeting" 1)) copyRecreated).projection.map
        fun p => (p.generation, p.desiredState)) = some (2, some (plainCopy "again" 1 2)) ∧
      (system plainSetup).Throughout (EvidenceKept plainSetup) (fun _ _ => True)
        (startState (plainEvent "meeting" 1)) copyRecreated :=
  ⟨by decide +kernel, (evidence_kept_iff initial_startState copyRecreated).2 (by decide +kernel)⟩

/-- Events to which the destination's account is invited are not copied. -/
def cautiousSetup : Setup where
  platform := plainPlatform
  policy :=
    { plainPolicy ⟨.restore, .restore⟩ with
      selection :=
        { (plainPolicy ⟨.restore, .restore⟩).selection with
          skipWhenDestinationIdentityInvited := true } }
  projectionId := "copy-1"
  active := rfl

def meetingWithYou : SourceObservation := { plainEvent "meeting" 1 with attendees := some ["you"] }

/-- A pass while the destination's account has the address `identity`. -/
def passAs (identity : String) (id : EffectId) : List Event :=
  [.beginPass, .readObservation,
    .reconcile { now := 0, destinationIdentity := identity } (.ofEvent meetingWithYou) ⟨id, id⟩]

/-- The account is renamed to an address that is invited, and renamed back before the delete is
executed. -/
def accountRenamed : List Event :=
  passAs "me" 1 ++ [leaseBy "worker" 0, executeBy "worker" 1] ++ passAs "you" 2 ++ passAs "me" 3 ++
    [leaseBy "worker" 1, executeBy "worker" 2]

/-- The delete of the middle pass is carried out for the copy that the last one wants. -/
theorem evidence_lost_accountRenamed :
    Initial cautiousSetup (startState meetingWithYou) ∧
      ¬EvidenceKept cautiousSetup
        (runFrom cautiousSetup (startState meetingWithYou) accountRenamed) := by
  refine ⟨initial_startState, fun hkept => ?_⟩
  have hrow : ((runFrom cautiousSetup (startState meetingWithYou) accountRenamed).projection.map
      fun p => (p.status, p.generation, p.desiredState)) =
        some (.deleted, 2, some (plainCopy "meeting" 1)) := by
    decide +kernel
  obtain ⟨p, hp, hcols⟩ := Option.map_eq_some_iff.1 hrow
  simp only [Prod.mk.injEq] at hcols
  have hgen := (hkept p hp).current _ hcols.2.2
  rw [hcols.2.1] at hgen
  cases hgen

end Evidence

end Planipus.Sync

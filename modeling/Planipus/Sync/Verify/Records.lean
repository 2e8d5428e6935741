import Mathlib.Data.List.Nodup
import Planipus.Sync.System
import Planipus.Sync.Verify.Conversation

/-!
# What an execution records

The rows that an execution writes, read off its outcome: what becomes of the leased effect
(`effectAfter`), of the projection (`projectionAfter`), and which effect is inserted
(`insertedAfter`). `Recorded` adds that nothing else changes. The leased effect is the only row that
changes because the IDs of the outbox are distinct.
-/

namespace Planipus.Sync

open CalendarSync Provider Library

section Records

variable {setup : Setup} {input : ExecuteInput} {s s' : State} {e e' : EffectRow}
  {outcome : Outcome}

def effectAfter (input : ExecuteInput) : Outcome → EffectRow → EffectRow
  | .deferred reason => deferEffect input.now reason
  | .superseded reason => finishEffect (some reason)
  | .basisChanged => finishEffect (some .recoveryBasisChanged)
  | .replaced _ => finishEffect (some .destinationMissingGenerationAdvanced)
  | .succeeded _ => finishEffect none
  | .heldAmbiguous error => closeEffect .dead (some (.error error.code)) true
  | .failed error => failEffect input.now error

def projectionAfter (e : EffectRow) : Outcome → ProjectionRow → ProjectionRow
  | .deferred _ => id
  | .superseded _ => id
  | .basisChanged => fun p =>
    { p with status := .failed, safeErrorCode := some .recoveryBasisChanged }
  | .replaced desired => replaceProjection desired
  | .succeeded remote => succeedProjection e.operation remote
  | .heldAmbiguous error => holdProjection error
  | .failed error => failProjection error e

def insertedAfter (input : ExecuteInput) (e : EffectRow) (projection : Option ProjectionRow) :
    Outcome → List EffectRow
  | .replaced desired =>
    (projection.map fun p => replacementEffect input e desired (replaceProjection desired p)).toList
  | _ => []

/-- The state after an outcome has been recorded. -/
structure Recorded (input : ExecuteInput) (e : EffectRow) (outcome : Outcome) (s s' : State) :
    Prop where
  effects : s'.effects = updateRow EffectRow.id e.id (effectAfter input outcome) s.effects ++
    insertedAfter input e s.projection outcome
  projection : s'.projection = s.projection.map (projectionAfter e outcome)
  calendar : s'.calendar = s.calendar
  targets : s'.targets = s.targets
  lookups : s'.lookups = s.lookups
  crashed : s'.crashed = s.crashed
  policyStatus : s'.policyStatus = s.policyStatus
  passOpen : s'.passOpen = s.passOpen
  reads : s'.reads = s.reads

/-- The projection of an execution whose projection is there. -/
theorem Recorded.projection_some {p : ProjectionRow} (h : Recorded input e outcome s s')
    (hp : s.projection = some p) : s'.projection = some (projectionAfter e outcome p) := by
  rw [h.projection, hp, Option.map_some]

theorem record_recorded (h : record input e s outcome = some s') :
    Recorded input e outcome s s' := by
  cases outcome with
  | deferred reason =>
    cases h
    exact ⟨(List.append_nil _).symm, Option.map_id_apply.symm, rfl, rfl, rfl, rfl, rfl, rfl, rfl⟩
  | superseded reason =>
    cases h
    exact ⟨(List.append_nil _).symm, Option.map_id_apply.symm, rfl, rfl, rfl, rfl, rfl, rfl, rfl⟩
  | basisChanged =>
    obtain ⟨jobs, hjobs⟩ := State.enqueue_eq
      ((s.mapEffect e.id (finishEffect (some .recoveryBasisChanged))).mapProjection
        fun p => { p with status := .failed, safeErrorCode := some .recoveryBasisChanged })
      (.recoveryBasisOfEffect e.id)
    simp only [record, hjobs] at h
    cases h
    exact ⟨(List.append_nil _).symm, rfl, rfl, rfl, rfl, rfl, rfl, rfl, rfl⟩
  | succeeded remote =>
    cases h
    exact ⟨(List.append_nil _).symm, rfl, rfl, rfl, rfl, rfl, rfl, rfl, rfl⟩
  | heldAmbiguous error =>
    cases h
    exact ⟨(List.append_nil _).symm, rfl, rfl, rfl, rfl, rfl, rfl, rfl, rfl⟩
  | failed error =>
    simp only [record, noteAuth] at h
    split at h
    · cases h
      exact ⟨(List.append_nil _).symm, rfl, rfl, rfl, rfl, rfl, rfl, rfl, rfl⟩
    · cases h
      exact ⟨(List.append_nil _).symm, rfl, rfl, rfl, rfl, rfl, rfl, rfl, rfl⟩
  | replaced desired =>
    simp only [record] at h
    cases hp : s.projection with
    | none =>
      rw [hp] at h
      cases h
    | some p =>
      rw [hp] at h
      obtain ⟨s₁, hs₁, rfl⟩ := Option.map_eq_some_iff.1 h
      rw [State.insertEffect_some hs₁]
      refine ⟨?_, by rw [hp]; rfl, rfl, rfl, rfl, rfl, rfl, rfl, rfl⟩
      rw [hp]
      rfl

/-- Outcomes other than a success or a replacement leave the event as it is stored. -/
theorem projectionAfter_named {p : ProjectionRow}
    (hsucc : ∀ remote, outcome ≠ .succeeded remote) (hrep : ∀ d, outcome ≠ .replaced d) :
    (projectionAfter e outcome p).destinationEventId = p.destinationEventId ∧
      (projectionAfter e outcome p).destinationEtag = p.destinationEtag ∧
      (projectionAfter e outcome p).generation = p.generation ∧
      (p.ownership = .ambiguous → (projectionAfter e outcome p).ownership = .ambiguous) := by
  cases outcome with
  | succeeded remote => exact absurd rfl (hsucc remote)
  | replaced d => exact absurd rfl (hrep d)
  | heldAmbiguous error => exact ⟨rfl, rfl, rfl, fun _ => rfl⟩
  | _ => exact ⟨rfl, rfl, rfl, fun h => h⟩

/-! ## The leased effect -/

structure IsLeased (input : ExecuteInput) (s : State) (e : EffectRow) : Prop where
  mem : e ∈ s.effects
  id : e.id = input.effect
  state : e.state = .leased
  owner : e.leaseOwner = some input.owner
  alive : input.owner ∉ s.crashed

theorem leasedEffect_isLeased (h : leasedEffect input s = some e) : IsLeased input s e := by
  unfold leasedEffect at h
  split at h
  · cases h
  · rename_i halive
    have hmem := List.mem_of_find?_eq_some h
    have hfound := List.find?_some h
    simp only [Bool.and_eq_true, decide_eq_true_eq] at hfound
    exact ⟨hmem, hfound.1.1, hfound.1.2, hfound.2, halive⟩

theorem IsLeased.unfinished (h : IsLeased input s e) : e.unfinished = true := by
  simp [EffectRow.unfinished, h.state]

/-! ## Rows of an updated outbox -/

theorem eq_of_id_eq {effects : List EffectRow} (hids : (effects.map EffectRow.id).Nodup)
    (he : e ∈ effects) (he' : e' ∈ effects) (h : e.id = e'.id) : e = e' :=
  List.inj_on_of_nodup_map hids he he' h

/-- A row of the outbox in which only `e` was rewritten. -/
theorem mem_rewritten {effects : List EffectRow} {f : EffectRow → EffectRow}
    (hids : (effects.map EffectRow.id).Nodup) (he : e ∈ effects)
    (h : e' ∈ updateRow EffectRow.id e.id f effects) :
    e' = f e ∨ (e' ∈ effects ∧ e'.id ≠ e.id) := by
  rcases mem_updateRow h with ⟨r, hr, hid, rfl⟩ | h
  · rw [eq_of_id_eq hids hr he hid]
    exact Or.inl rfl
  · exact Or.inr h

theorem ids_updateRow {effects : List EffectRow} {id : EffectId} {f : EffectRow → EffectRow}
    (hf : ∀ e, (f e).id = e.id) :
    (updateRow EffectRow.id id f effects).map EffectRow.id = effects.map EffectRow.id := by
  unfold updateRow
  rw [List.map_map]
  refine List.map_congr_left fun e _ => ?_
  rw [Function.comp_apply]
  split
  · exact hf e
  · rfl

theorem nodup_mapEffect {id : EffectId} {f : EffectRow → EffectRow} (hf : ∀ e, (f e).id = e.id)
    (hids : (s.effects.map EffectRow.id).Nodup) :
    ((s.mapEffect id f).effects.map EffectRow.id).Nodup := by
  rw [State.mapEffect, ids_updateRow hf]
  exact hids

theorem effectAfter_id (outcome : Outcome) (e : EffectRow) :
    (effectAfter input outcome e).id = e.id := by
  cases outcome <;> rfl

/-- The rows after an execution: the leased one rewritten, the others, and the inserted one. -/
theorem Recorded.mem_effects (h : Recorded input e outcome s s')
    (hids : (s.effects.map EffectRow.id).Nodup) (he : e ∈ s.effects) (hmem : e' ∈ s'.effects) :
    e' = effectAfter input outcome e ∨ (e' ∈ s.effects ∧ e'.id ≠ e.id) ∨
      e' ∈ insertedAfter input e s.projection outcome := by
  rw [h.effects, List.mem_append] at hmem
  rcases hmem with hmem | hmem
  · exact (mem_rewritten hids he hmem).imp_right Or.inl
  · exact Or.inr (Or.inr hmem)

theorem Recorded.mem_of_ne (h : Recorded input e outcome s s') (he' : e' ∈ s.effects)
    (hne : e'.id ≠ e.id) : e' ∈ s'.effects := by
  rw [h.effects, List.mem_append]
  exact Or.inl (mem_updateRow_of_ne he' hne)

theorem Recorded.mem_self (h : Recorded input e outcome s s') (he : e ∈ s.effects) :
    effectAfter input outcome e ∈ s'.effects := by
  rw [h.effects, List.mem_append]
  exact Or.inl (mem_updateRow_of_mem he rfl)

theorem freshEffect_ne {id : EffectId} (h : s.freshEffect id = true) (he : e ∈ s.effects) :
    e.id ≠ id := by
  simpa using List.all_eq_true.1 h e he

theorem nodup_append_fresh {effects : List EffectRow} {row : EffectRow}
    (hids : (effects.map EffectRow.id).Nodup) (h : ∀ e ∈ effects, e.id ≠ row.id) :
    ((effects ++ [row]).map EffectRow.id).Nodup := by
  rw [List.map_append, List.nodup_append]
  refine ⟨hids, List.nodup_singleton _, ?_⟩
  intro id hid id' hid'
  obtain ⟨e, he, rfl⟩ := List.mem_map.1 hid
  rw [List.map_singleton, List.mem_singleton] at hid'
  rw [hid']
  exact h e he

/-! ## The gate -/

/-- What a passed gate says about the state. -/
structure Passed (setup : Setup) (s : State) (e : EffectRow) (p : ProjectionRow) : Prop where
  active : s.policyStatus = .active
  revision : setup.policy.revision = e.policyRevision
  projection : s.projection = some p
  effectBasis : e.sourceBasisHash = some s.observation.basis
  projectionBasis : p.sourceBasisHash = some s.observation.basis

theorem gate_ok {p : ProjectionRow} (h : gate setup s e = .ok p) : Passed setup s e p := by
  unfold gate at h
  split at h
  · cases h
  · cases h
  · cases h
  rename_i hdisp
  split at h
  · cases h
  split at h
  · cases h
  rename_i p' hp
  split at h
  · cases h
  split at h
  · cases h
  rename_i hbasis
  cases h
  have hb : basisCurrent s p e = true := by simpa using hbasis
  simp only [basisCurrent, Bool.and_eq_true, decide_eq_true_eq] at hb
  have hpolicy : s.policyStatus = .active ∧ setup.policy.revision = e.policyRevision := by
    unfold effectPolicyExecutionDisposition at hdisp
    split at hdisp
    · cases hdisp
    · cases hdisp
    · rename_i hactive
      split at hdisp
      · rename_i hrev
        exact ⟨hactive, hrev⟩
      · cases hdisp
  exact ⟨hpolicy.1, hpolicy.2, hp, hb.2, hb.1.2 ▸ hb.2⟩

/-- The ways an execution ends before the provider is asked. -/
inductive GateStopped (s : State) : Outcome → Prop
  | deferred (reason : SafeErrorCode) (h : s.policyStatus ≠ .deleted) :
      GateStopped s (.deferred reason)
  | deleted (h : s.policyStatus = .deleted) : GateStopped s (.superseded .policyDeleted)
  | basisChanged : GateStopped s .basisChanged
  | failed (error : ProviderError) (hretry : error.retryable = false)
      (hamb : error.ambiguous = false) : GateStopped s (.failed error)

theorem gate_error (h : gate setup s e = .error outcome) : GateStopped s outcome := by
  unfold gate at h
  split at h
  · rename_i hdisp
    cases h
    refine .deferred _ fun hdel => ?_
    rw [hdel] at hdisp
    cases hdisp
  · rename_i hdisp
    cases h
    refine .deferred _ fun hdel => ?_
    rw [hdel] at hdisp
    cases hdisp
  · rename_i hdisp
    cases h
    refine .deleted ?_
    unfold effectPolicyExecutionDisposition at hdisp
    split at hdisp
    · assumption
    · cases hdisp
    · split at hdisp <;> cases hdisp
  split at h
  · cases h
    exact .failed _ rfl rfl
  split at h
  · cases h
    exact .failed _ rfl rfl
  split at h
  · cases h
    exact .failed _ rfl rfl
  split at h
  · cases h
    exact .basisChanged
  · cases h

/-- The policy is paused, or has moved on from the effect. -/
def defers (setup : Setup) (s : State) (e : EffectRow) : Bool :=
  s.policyStatus = .paused || (s.policyStatus = .active && setup.policy.revision ≠ e.policyRevision)

theorem gate_deferred {reason : SafeErrorCode}
    (h : gate setup s e = .error (.deferred reason)) : defers setup s e = true := by
  unfold gate effectPolicyExecutionDisposition at h
  unfold defers
  cases hstatus : s.policyStatus with
  | paused => simp
  | deleted => simp [hstatus] at h
  | active =>
    by_cases hrev : setup.policy.revision = e.policyRevision
    · simp only [hstatus, if_pos hrev] at h
      split at h
      · cases h
      split at h
      · cases h
      split at h
      · cases h
      split at h <;> cases h
    · simp [hrev]

theorem Passed.basisCurrent {p : ProjectionRow} (h : Passed setup s e p) :
    basisCurrent s p e = true := by
  simp [Sync.basisCurrent, h.effectBasis, h.projectionBasis]

/-- The effect may run but its basis has been overtaken. -/
def basisOvertaken (setup : Setup) (s : State) (e : EffectRow) : Bool :=
  match gate setup s e with
  | .error .basisChanged => true
  | _ => false

theorem gate_basisChanged (h : gate setup s e = .error .basisChanged) :
    basisOvertaken setup s e = true := by
  unfold basisOvertaken
  rw [h]

/-! ## The requests of an execution -/

theorem ran_concluded {p : ProjectionRow} {session : Session} {ended : ProviderOutcome}
    (hrun : runProvider setup p e input.token ⟨s.calendar, input.script, []⟩ = (session, ended)) :
    Concluded setup p e ⟨s.calendar, input.script, []⟩ session ended := by
  have hconc : Concluded setup p e ⟨s.calendar, input.script, []⟩ _ _ :=
    runProvider_concluded input.token ⟨s.calendar, input.script, []⟩
  rwa [hrun] at hconc

/-- A request that an event sends comes from an execution that passed its gate. -/
theorem issued_tried {event : Event} {call : ProviderCall} (h : call ∈ issued setup s event) :
    ∃ input e p, event = .execute input ∧ leasedEffect input s = some e ∧
      gate setup s e = .ok p ∧ Tried setup p e ⟨s.calendar, input.script, []⟩ call := by
  cases event with
  | execute input =>
    simp only [issued] at h
    split at h
    · unfold issuedCalls at h
      cases he : leasedEffect input s with
      | none => simp [he] at h
      | some e =>
        simp only [he, executeSession] at h
        cases hg : gate setup s e with
        | error outcome => simp [hg] at h
        | ok p =>
          simp only [hg] at h
          exact ⟨input, e, p, rfl, he, hg,
            (runProvider_concluded input.token _).tried rfl call h⟩
    · cases h
  | _ => cases h

end Records

end Planipus.Sync

import Planipus.Sync.Verify.Evaluation
import Planipus.Sync.Verify.Records

/-!
# What the rows say about each other

`Coherent` holds in every reachable state and is what the other invariants rest on: outbox IDs are
distinct, a projection's hash is the hash of its desired copy, and every desired copy, wherever it
is stored, was evaluated from the version of the source event that the row next to it names as its
basis, up to the generation in its provenance.
-/

namespace Planipus.Sync

open CalendarSync Provider Library

/-- `d` is a copy that the policy makes of the version `o`, up to its generation. -/
def Produced (setup : Setup) (o : ObservationRow) (d : DesiredCopy) : Prop :=
  ∃ ctx existing made, (evaluate setup ctx o existing).desiredCopy = some made ∧
    d = made.withGeneration d.provenance.generation

/-- A stored copy was made from the version its row names. -/
def Made (setup : Setup) (basis : Option (Digest SourceBasis)) (desired : Option DesiredCopy) :
    Prop :=
  ∀ d, desired = some d → ∃ o : ObservationRow, basis = some o.basis ∧ Produced setup o d

section Produced

variable {setup : Setup} {o : ObservationRow} {d : DesiredCopy}

theorem Produced.live (h : Produced setup o d) : o.tombstone = false := by
  obtain ⟨_, _, _, hmade, -⟩ := h
  exact (evaluate_copy hmade).1

theorem Produced.provenance (h : Produced setup o d) :
    d.provenance = ⟨setup.policyId, setup.projectionId, d.provenance.generation⟩ := by
  obtain ⟨_, _, made, hmade, hd⟩ := h
  have hprov := withGeneration_provenance (evaluate_copy hmade).2 d.provenance.generation
  exact (congrArg DesiredCopy.provenance hd).trans hprov

theorem Produced.withGeneration (h : Produced setup o d) (g : Nat) :
    Produced setup o (d.withGeneration g) := by
  obtain ⟨ctx, existing, made, hmade, hd⟩ := h
  refine ⟨ctx, existing, made, hmade, ?_⟩
  exact congrArg (·.withGeneration g) hd

theorem produced_evaluate {ctx : PassContext} {existing : Option ProjectionRow}
    (h : (evaluate setup ctx o existing).desiredCopy = some d) : Produced setup o d :=
  ⟨ctx, existing, d, h, rfl⟩

theorem made_evaluate (setup : Setup) (ctx : PassContext) (o : ObservationRow)
    (existing : Option ProjectionRow) :
    Made setup (some o.basis) (evaluate setup ctx o existing).desiredCopy :=
  fun _ hd => ⟨o, rfl, produced_evaluate hd⟩

theorem Made.withGeneration {basis : Option (Digest SourceBasis)}
    (h : Made setup basis (some d)) (g : Nat) : Made setup basis (some (d.withGeneration g)) := by
  intro d' hd'
  cases hd'
  obtain ⟨o, hbasis, hprod⟩ := h d rfl
  exact ⟨o, hbasis, hprod.withGeneration g⟩

theorem Made.repair {basis : Option (Digest SourceBasis)} (h : Made setup basis (some d))
    (g : Nat) (observed : ObservedEdit) :
    Made setup basis (some (destinationRepairGeneration d g observed).2) := by
  cases observed with
  | drifted => exact h
  | missing => exact h.withGeneration _

end Produced

/-- The facts about the rows that every other invariant rests on. -/
structure Coherent (setup : Setup) (s : State) : Prop where
  ids : (s.effects.map EffectRow.id).Nodup
  deleted : s.policyStatus = .deleted →
    s.passOpen = false ∧ s.projection = none ∧ s.effects = []
  hash : ∀ p, s.projection = some p → p.desiredHash = p.desiredState.map sha256Canonical
  projection : ∀ p, s.projection = some p → Made setup p.sourceBasisHash p.desiredState
  effects : ∀ e ∈ s.effects, Made setup e.sourceBasisHash e.desiredState
  targets : ∀ t ∈ s.targets, Made setup t.sourceBasisHash (some t.desiredState) ∧
    t.desiredHash = sha256Canonical t.desiredState
  lookups : ∀ l ∈ s.lookups, Made setup l.target.sourceBasisHash (some l.target.desiredState) ∧
    l.target.desiredHash = sha256Canonical l.target.desiredState
  orphans : s.projection = none → s.effects = []

/-! ## Rows written by the operations -/

section Rows

variable {setup : Setup} {s s' : State} {p : ProjectionRow} {d : DesiredCopy}

theorem Coherent.desiredState (h : Coherent setup s) (hp : s.projection = some p)
    {hash : Digest DesiredCopy} (hh : p.desiredHash = some hash) :
    p.desiredState = some hash.preimage := by
  have heq := h.hash p hp
  rw [hh] at heq
  cases hd : p.desiredState with
  | none =>
    rw [hd] at heq
    cases heq
  | some d =>
    rw [hd, Option.map_some, Option.some.injEq] at heq
    rw [heq]
    rfl

/-- A projection whose desired state was written with its hash. -/
theorem verifiedDesired_some {target : VerificationTarget}
    (h : verifiedDesired setup target p = some d) :
    p.desiredState = some d ∧ sha256Canonical d = target.desiredHash ∧
      d.provenance = ⟨setup.policyId, setup.projectionId, target.generation⟩ := by
  unfold verifiedDesired at h
  rw [Option.filter_eq_some_iff] at h
  simp only [Bool.and_eq_true, decide_eq_true_eq] at h
  exact ⟨h.1, h.2.2, h.2.1⟩

theorem replacementDesired_ok {e : EffectRow} (h : replacementDesired setup p e = .ok d) :
    ∃ desired, p.desiredState = some desired ∧ e.desiredState = some desired ∧
      desired.provenance = ⟨setup.policyId, setup.projectionId, p.generation⟩ ∧
      d = desired.withGeneration (p.generation + 1) := by
  unfold replacementDesired at h
  split at h
  · cases h
  · cases h
  · rename_i desired effectDesired hpd hed
    split at h
    · rename_i hguard
      obtain ⟨-, hprov, hhash, hhash'⟩ := hguard
      cases h
      have heq : desired = effectDesired := by
        rw [hhash, Option.some.injEq, sha256Canonical_inj] at hhash'
        exact hhash'
      exact ⟨desired, hpd, heq ▸ hed, hprov, rfl⟩
    · cases h

/-- What an execution that passed its gate can come to, by the end of its conversation. -/
theorem conclude_replaced {e : EffectRow} {ended : ProviderOutcome}
    (h : conclude setup s p e ended = .replaced d) :
    ended = .missing ∧ (∀ e' ∈ s.effects, e'.id ≠ e.id → e'.unfinished = false) ∧
      replacementDesired setup p e = .ok d := by
  cases ended with
  | succeeded remote => cases h
  | mismatch => cases h
  | raised error =>
    simp only [conclude, caught] at h
    split at h <;> cases h
  | missing =>
    simp only [conclude] at h
    split at h
    · cases h
    · rename_i hnone
      split at h
      · rename_i desired hrep
        cases h
        refine ⟨rfl, ?_, hrep⟩
        intro e' he' hne
        by_contra hun
        refine hnone (List.any_eq_true.2 ⟨e', he', ?_⟩)
        simpa [hne] using hun
      · simp only [caught] at h
        split at h <;> cases h

theorem projectionAfter_desired {e : EffectRow} {outcome : Outcome}
    (h : ∀ d, outcome ≠ .replaced d) :
    (projectionAfter e outcome p).desiredState = p.desiredState ∧
      (projectionAfter e outcome p).desiredHash = p.desiredHash ∧
      (projectionAfter e outcome p).sourceBasisHash = p.sourceBasisHash := by
  cases outcome with
  | replaced d => exact absurd rfl (h d)
  | succeeded remote =>
    simp only [projectionAfter, succeedProjection]
    split <;> exact ⟨rfl, rfl, rfl⟩
  | _ => exact ⟨rfl, rfl, rfl⟩

end Rows

/-! ## Steps -/

section Steps

variable {setup : Setup} {s s' : State}

/-- A step that rewrites the projection and appends an effect. -/
theorem Coherent.extend (h : Coherent setup s) {p : ProjectionRow} {effects : List EffectRow}
    {notices : List NoticeRow} (hids : (effects.map EffectRow.id).Nodup)
    (hdel : s.policyStatus ≠ .deleted)
    (hhash : p.desiredHash = p.desiredState.map sha256Canonical)
    (hp : Made setup p.sourceBasisHash p.desiredState)
    (he : ∀ e ∈ effects, Made setup e.sourceBasisHash e.desiredState) :
    Coherent setup { s with projection := some p, effects, notices } where
  ids := hids
  deleted hd := absurd hd hdel
  hash p' hp' := by
    cases hp'
    exact hhash
  projection p' hp' := by
    cases hp'
    exact hp
  effects := he
  targets := h.targets
  lookups := h.lookups
  orphans hnone := by cases hnone

theorem Coherent.not_deleted (h : Coherent setup s) {p : ProjectionRow}
    (hp : s.projection = some p) : s.policyStatus ≠ .deleted := by
  intro hd
  rw [(h.deleted hd).2.1] at hp
  cases hp

theorem Coherent.append (h : Coherent setup s) {row : EffectRow}
    (hfresh : s.freshEffect row.id = true) :
    ((s.effects ++ [row]).map EffectRow.id).Nodup :=
  nodup_append_fresh h.ids fun _ he => freshEffect_ne hfresh he

theorem made_append {effects : List EffectRow} {row : EffectRow}
    (h : ∀ e ∈ effects, Made setup e.sourceBasisHash e.desiredState)
    (hrow : Made setup row.sourceBasisHash row.desiredState) :
    ∀ e ∈ effects ++ [row], Made setup e.sourceBasisHash e.desiredState := by
  intro e he
  rcases List.mem_append.1 he with he | he
  · exact h e he
  · rw [List.mem_singleton.1 he]
    exact hrow

theorem coherent_rest (h : Coherent setup s) (hp : s'.projection = s.projection)
    (he : s'.effects = s.effects) (ht : s'.targets = s.targets) (hl : s'.lookups = s.lookups)
    (hst : s'.policyStatus = s.policyStatus)
    (ho : s'.passOpen = true → s.passOpen = true ∨ s.policyStatus = .active) :
    Coherent setup s' where
  ids := he ▸ h.ids
  deleted hd := by
    rw [hst] at hd
    obtain ⟨hpass, hproj, heff⟩ := h.deleted hd
    refine ⟨?_, hp.trans hproj, he.trans heff⟩
    cases hopen : s'.passOpen with
    | false => rfl
    | true =>
      rcases ho hopen with hopen' | hactive
      · rw [hpass] at hopen'
        cases hopen'
      · rw [hactive] at hd
        cases hd
  hash := hp ▸ h.hash
  projection := hp ▸ h.projection
  effects := he ▸ h.effects
  targets := ht ▸ h.targets
  lookups := hl ▸ h.lookups
  orphans := hp ▸ he ▸ h.orphans

theorem coherent_touched (h : Coherent setup s) {effects : List EffectRow}
    (ht : TouchedAll s.effects effects) {policyStatus : PolicyStatus}
    (hst : policyStatus = .deleted ↔ s.policyStatus = .deleted) (jobs : List JobKey) :
    Coherent setup { s with effects, policyStatus, jobs } where
  ids := ht.ids h.ids
  deleted hd := by
    obtain ⟨hpass, hproj, heff⟩ := h.deleted (hst.1 hd)
    refine ⟨hpass, hproj, List.eq_nil_iff_forall_not_mem.2 fun e' he' => ?_⟩
    obtain ⟨e, he, -⟩ := ht.back e' he'
    rw [heff] at he
    cases he
  hash := h.hash
  projection := h.projection
  effects e' he' := by
    obtain ⟨e, he, htouch⟩ := ht.back e' he'
    have hmade := h.effects e he
    rwa [← htouch.sourceBasisHash, ← htouch.desiredState] at hmade
  targets := h.targets
  lookups := h.lookups
  orphans hnone := by
    refine List.eq_nil_iff_forall_not_mem.2 fun e' he' => ?_
    obtain ⟨e, he, -⟩ := ht.back e' he'
    rw [h.orphans hnone] at he
    cases he

theorem loadTarget_some {t : VerificationTarget} (h : loadTarget s = some t) :
    ∃ p, s.projection = some p ∧ p.status = .converged ∧ p.ownership = .attached ∧
      s.policyStatus = .active ∧ p.policyRevision = t.policyRevision ∧
      p.sourceBasisHash = t.sourceBasisHash ∧ p.generation = t.generation ∧
      p.destinationEventId = some t.destinationEventId ∧
      p.destinationEtag = t.destinationRevision ∧ p.desiredHash = some t.desiredHash ∧
      p.desiredState = some t.desiredState := by
  unfold loadTarget at h
  split at h
  · cases h
  rename_i p hp
  split at h
  · rename_i hguard
    split at h
    · rename_i hdest hhash hstate
      cases h
      exact ⟨p, hp, hguard.1, hguard.2.1, hguard.2.2.1, rfl, rfl, rfl, hdest, rfl, hhash, hstate⟩
    · cases h
  · cases h

theorem coherent_loaded (h : Coherent setup s) {t : VerificationTarget}
    (ht : loadTarget s = some t) : Coherent setup { s with targets := t :: s.targets } where
  ids := h.ids
  deleted := h.deleted
  hash := h.hash
  projection := h.projection
  effects := h.effects
  targets t' ht' := by
    rcases List.mem_cons.1 ht' with rfl | ht'
    · obtain ⟨p, hp, -, -, -, -, hbasis, -, -, -, hhash, hstate⟩ := loadTarget_some ht
      have hmade := h.projection p hp
      have hrow := h.hash p hp
      rw [hbasis, hstate] at hmade
      rw [hhash, hstate, Option.map_some, Option.some.injEq] at hrow
      exact ⟨hmade, hrow⟩
    · exact h.targets t' ht'
  lookups := h.lookups
  orphans := h.orphans

theorem coherent_observed (h : Coherent setup s) {t : VerificationTarget} (ht : t ∈ s.targets)
    (observed : Option RemoteEvent) :
    Coherent setup { s with lookups := ⟨t, observed⟩ :: s.lookups } where
  ids := h.ids
  deleted := h.deleted
  hash := h.hash
  projection := h.projection
  effects := h.effects
  targets := h.targets
  lookups l hl := by
    rcases List.mem_cons.1 hl with rfl | hl
    · exact h.targets t ht
    · exact h.lookups l hl
  orphans := h.orphans

theorem coherent_reconciled (h : Coherent setup s) {ctx : PassContext} {o : ObservationRow}
    {ins : Insertion} (hpass : s.passOpen = true) (hfresh : s.freshEffect ins.id = true)
    (hr : Reconciled setup ctx o ins s s') : Coherent setup s' := by
  have hdel : s.policyStatus ≠ .deleted := by
    intro hd
    rw [(h.deleted hd).1] at hpass
    cases hpass
  cases hr with
  | absent hnone hop => exact h
  | shadowed p hp hb =>
    exact h.extend h.ids hdel evaluate_fingerprint (made_evaluate setup ctx o (some p)) h.effects
  | settled p hp hb hop =>
    refine h.extend h.ids hdel ?_ ?_ h.effects
    · rw [refresh_desiredHash, refresh_desiredState]
      exact evaluate_fingerprint
    · rw [refresh_desiredState]
      exact made_evaluate setup ctx o (some p)
  | queued p' operation hp' hop effects heff =>
    have hrow : p'.desiredHash = p'.desiredState.map sha256Canonical ∧
        p'.sourceBasisHash = some o.basis ∧ Made setup (some o.basis) p'.desiredState := by
      rcases hp' with ⟨-, rfl⟩ | ⟨p, -, -, rfl⟩
      · rw [newProjection_desiredHash, newProjection_desiredState]
        exact ⟨evaluate_fingerprint, rfl, made_evaluate setup ctx o none⟩
      · rw [refresh_desiredHash, refresh_desiredState]
        exact ⟨evaluate_fingerprint, rfl, made_evaluate setup ctx o (some p)⟩
    have hmade : Made setup p'.sourceBasisHash p'.desiredState := by
      rw [hrow.2.1]
      exact hrow.2.2
    rcases heff with rfl | ⟨rfl, -⟩
    · exact h.extend (h.append hfresh) hdel hrow.1 hmade (made_append h.effects hrow.2.2)
    · exact h.extend h.ids hdel hrow.1 hmade h.effects

theorem coherent_settled (h : Coherent setup s) {lookup : Lookup} {input : SettleInput}
    (hl : lookup ∈ s.lookups) (hfresh : s.freshEffect input.insertion.id = true)
    (hst : Settled setup input lookup s s') : Coherent setup s' := by
  cases hst with
  | unchanged => exact h
  | repaired p hp hun observed revision hshow desired hd notices =>
    obtain ⟨hstate, hhash, -⟩ := verifiedDesired_some hd
    obtain ⟨hmade, hrow⟩ := h.lookups lookup hl
    -- The repair is queued under the basis of the loaded target, so the copy must be the target's.
    have hdesired : desired = lookup.target.desiredState := by
      rw [hrow, sha256Canonical_inj] at hhash
      exact hhash
    refine h.extend (h.append hfresh) (h.not_deleted hp) rfl ?_ (made_append h.effects ?_)
    · exact Made.repair (hstate ▸ h.projection p hp) _ observed
    · exact Made.repair (hdesired ▸ hmade) _ observed
  | editHeld p hp hun observed revision hshow desired hd code hcode notices =>
    exact h.extend h.ids (h.not_deleted hp) (h.hash p hp) (h.projection p hp) h.effects
  | mismatchHeld p hp hun event hobs hown =>
    exact h.extend h.ids (h.not_deleted hp) (h.hash p hp) (h.projection p hp) h.effects

theorem coherent_resolved (h : Coherent setup s) {input : RecoveryInput}
    (hfresh : s.freshEffect input.insertion.id = true) (hr : Resolved setup input s s') :
    Coherent setup s' := by
  cases hr with
  | detached p hp hheld notices =>
    exact h.extend h.ids (h.not_deleted hp) (h.hash p hp) (h.projection p hp) h.effects
  | restored p hp hheld operation hop hrev hbasis hevid notices =>
    exact h.extend (h.append hfresh) (h.not_deleted hp) (h.hash p hp) (h.projection p hp)
      (made_append h.effects (h.projection p hp))

theorem made_updateRow {effects : List EffectRow} {id : EffectId} {f : EffectRow → EffectRow}
    (h : ∀ e ∈ effects, Made setup e.sourceBasisHash e.desiredState)
    (hf : ∀ e, (f e).sourceBasisHash = e.sourceBasisHash ∧ (f e).desiredState = e.desiredState) :
    ∀ e ∈ updateRow EffectRow.id id f effects, Made setup e.sourceBasisHash e.desiredState :=
  forall_updateRow (fun e he _ => h e he) fun e he _ => by
    rw [(hf e).1, (hf e).2]
    exact h e he

theorem coherent_retried (h : Coherent setup s) {input : RecoveryInput}
    (hfresh : s.freshEffect input.insertion.id = true) (hr : Retried setup input s s') :
    Coherent setup s' := by
  cases hr with
  | unchanged => exact h
  | replayed p hp dead hdead hreplay =>
    exact h.extend (nodup_mapEffect (fun _ => rfl) h.ids) (h.not_deleted hp) (h.hash p hp)
      (h.projection p hp)
      (made_updateRow h.effects fun _ => ⟨rfl, rfl⟩)
  | gaveUp p hp dead hdead hreplay hno jobs =>
    have hc : Coherent setup { s.mapEffect dead.id (supersedeDead setup dead) with
        projection := some (recoveryStale .failed p) } :=
      h.extend (nodup_mapEffect (fun _ => rfl) h.ids) (h.not_deleted hp) (h.hash p hp)
        (h.projection p hp)
        (made_updateRow h.effects fun _ => ⟨rfl, rfl⟩)
    exact coherent_rest hc rfl rfl rfl rfl rfl Or.inl
  | stale p hp hdead hheld jobs =>
    have hc : Coherent setup { s with projection := some (recoveryStale .held p) } :=
      h.extend h.ids (h.not_deleted hp) (h.hash p hp) (h.projection p hp) h.effects
    exact coherent_rest hc rfl rfl rfl rfl rfl Or.inl
  | requeued p hp effects heff operation hop hrev hbasis hevid =>
    have heffects : effects.map EffectRow.id = s.effects.map EffectRow.id ∧
        ∀ e ∈ effects, Made setup e.sourceBasisHash e.desiredState := by
      rcases heff with ⟨rfl, -⟩ | ⟨dead, hdead, rfl⟩
      · exact ⟨rfl, h.effects⟩
      · exact ⟨ids_updateRow fun _ => rfl, made_updateRow h.effects fun _ => ⟨rfl, rfl⟩⟩
    refine h.extend (nodup_append_fresh (heffects.1 ▸ h.ids) fun e he => ?_) (h.not_deleted hp)
      (h.hash p hp) (h.projection p hp) (made_append heffects.2 (h.projection p hp))
    have hid : e.id ∈ s.effects.map EffectRow.id := heffects.1 ▸ List.mem_map_of_mem he
    obtain ⟨e', he', hid'⟩ := List.mem_map.1 hid
    rw [← hid']
    exact freshEffect_ne hfresh he'

theorem effectAfter_made (input : ExecuteInput) (outcome : Outcome) (e : EffectRow) :
    (effectAfter input outcome e).sourceBasisHash = e.sourceBasisHash ∧
      (effectAfter input outcome e).desiredState = e.desiredState := by
  cases outcome <;> exact ⟨rfl, rfl⟩

/-- Recording an outcome other than a replacement. -/
theorem coherent_recorded (h : Coherent setup s) {input : ExecuteInput} {e : EffectRow}
    {outcome : Outcome} (hout : ∀ d, outcome ≠ .replaced d) (he : e ∈ s.effects)
    (hr : Recorded input e outcome s s') : Coherent setup s' := by
  have hins : insertedAfter input e s.projection outcome = [] := by
    cases outcome with
    | replaced d => exact absurd rfl (hout d)
    | _ => rfl
  have heff := hr.effects
  rw [hins, List.append_nil] at heff
  refine
    { ids := ?_
      deleted := ?_
      hash := ?_
      projection := ?_
      effects := ?_
      targets := hr.targets ▸ h.targets
      lookups := hr.lookups ▸ h.lookups
      orphans := ?_ }
  · rw [heff, ids_updateRow fun e => effectAfter_id outcome e]
    exact h.ids
  · intro hd
    rw [(h.deleted (hr.policyStatus ▸ hd)).2.2] at he
    cases he
  · intro p' hp'
    rw [hr.projection] at hp'
    obtain ⟨p, hp, rfl⟩ := Option.map_eq_some_iff.1 hp'
    rw [(projectionAfter_desired hout).1, (projectionAfter_desired hout).2.1]
    exact h.hash p hp
  · intro p' hp'
    rw [hr.projection] at hp'
    obtain ⟨p, hp, rfl⟩ := Option.map_eq_some_iff.1 hp'
    rw [(projectionAfter_desired hout).1, (projectionAfter_desired hout).2.2]
    exact h.projection p hp
  · rw [heff]
    exact made_updateRow h.effects fun e => effectAfter_made input outcome e
  · intro hnone
    rw [hr.projection, Option.map_eq_none_iff] at hnone
    rw [h.orphans hnone] at he
    cases he

theorem coherent_replaced (h : Coherent setup s) {input : ExecuteInput} {e : EffectRow}
    {p : ProjectionRow} {d : DesiredCopy} (hfresh : s.freshEffect input.replacement.id = true)
    (he : e ∈ s.effects) (hpass : Passed setup s e p)
    (hrep : replacementDesired setup p e = .ok d)
    (hr : Recorded input e (.replaced d) s s') : Coherent setup s' := by
  obtain ⟨desired, hpd, hed, -, rfl⟩ := replacementDesired_ok hrep
  have hmade : Made setup p.sourceBasisHash (some desired) := hpd ▸ h.projection p hpass.projection
  have hmade' : Made setup e.sourceBasisHash (some desired) := hed ▸ h.effects e he
  have heff := hr.effects
  have hproj := hr.projection
  rw [hpass.projection] at heff hproj
  refine
    { ids := ?_
      deleted := ?_
      hash := ?_
      projection := ?_
      effects := ?_
      targets := hr.targets ▸ h.targets
      lookups := hr.lookups ▸ h.lookups
      orphans := ?_ }
  · rw [heff]
    refine nodup_append_fresh ?_ fun e' he' => ?_
    · rw [ids_updateRow fun e => effectAfter_id _ e]
      exact h.ids
    · rcases mem_rewritten h.ids he he' with rfl | ⟨he', -⟩
      · rw [effectAfter_id]
        exact freshEffect_ne hfresh he
      · exact freshEffect_ne hfresh he'
  · intro hd
    rw [(h.deleted (hr.policyStatus ▸ hd)).2.2] at he
    cases he
  · intro p' hp'
    rw [hproj, Option.map_some, Option.some.injEq] at hp'
    subst hp'
    rfl
  · intro p' hp'
    rw [hproj, Option.map_some, Option.some.injEq] at hp'
    subst hp'
    exact hmade.withGeneration _
  · rw [heff]
    exact made_append (made_updateRow h.effects fun e => effectAfter_made input _ e)
      (hmade'.withGeneration _)
  · intro hnone
    rw [hproj] at hnone
    cases hnone

theorem gateStopped_ne_replaced {outcome : Outcome} (h : GateStopped s outcome) (d : DesiredCopy) :
    outcome ≠ .replaced d := by
  cases h <;> simp

theorem coherent_executed (h : Coherent setup s) {input : ExecuteInput}
    (hfresh : s.freshEffect input.replacement.id = true) (hx : Executed setup input s s') :
    Coherent setup s' := by
  cases hx with
  | idle => exact h
  | stopped e he outcome hg s' hs' =>
    rcases hs' with rfl | hrec
    · exact coherent_rest h rfl rfl rfl rfl rfl Or.inl
    · exact coherent_recorded h (gateStopped_ne_replaced (gate_error hg))
        (leasedEffect_isLeased he).mem (record_recorded hrec)
  | ran e he p hg session ended hrun s' hs' =>
    have hleased := leasedEffect_isLeased he
    have hcal : Coherent setup { s with calendar := session.calendar } :=
      coherent_rest h rfl rfl rfl rfl rfl Or.inl
    rcases hs' with rfl | hrec
    · exact coherent_rest hcal rfl rfl rfl rfl rfl Or.inl
    · by_cases hout : ∀ d, conclude setup s p e ended ≠ .replaced d
      · exact coherent_recorded hcal hout hleased.mem (record_recorded hrec)
      · obtain ⟨d, hd⟩ := not_forall_not.1 hout
        obtain ⟨-, -, hrep⟩ := conclude_replaced hd
        rw [hd] at hrec
        have hpass := gate_ok hg
        exact coherent_replaced hcal hfresh hleased.mem
          ⟨hpass.active, hpass.revision, hpass.projection, hpass.effectBasis,
            hpass.projectionBasis⟩ hrep (record_recorded hrec)

theorem coherent_init (h : Initial setup s) : Coherent setup s where
  ids := by simp [h.effects]
  deleted _ := ⟨h.passOpen, h.projection, h.effects⟩
  hash p hp := by
    rw [h.projection] at hp
    cases hp
  projection p hp := by
    rw [h.projection] at hp
    cases hp
  effects := by simp [h.effects]
  targets := by simp [h.targets]
  lookups := by simp [h.lookups]
  orphans _ := h.effects

theorem coherent_stepped (h : Coherent setup s) {event : Event} (hs : Stepped setup s event s') :
    Coherent setup s' := by
  cases hs with
  | rest _ _ hp he hc ht hl hcr hst hr ho => exact coherent_rest h hp he ht hl hst ho
  | touched _ effects htouched policyStatus hst jobs => exact coherent_touched h htouched hst jobs
  | loaded target htarget => exact coherent_loaded h htarget
  | observed target htarget reply => exact coherent_observed h htarget _
  | edited edit => exact coherent_rest h rfl rfl rfl rfl rfl Or.inl
  | reconciled ctx o ins ho hpass hfresh _ hr => exact coherent_reconciled h hpass hfresh hr
  | executed input hfresh _ hx => exact coherent_executed h hfresh hx
  | settled lookup input hl hfresh _ hst => exact coherent_settled h hl hfresh hst
  | resolved notice action input hfresh _ hr => exact coherent_resolved h hfresh hr
  | retried input hfresh _ hr => exact coherent_retried h hfresh hr

theorem coherent_reachable {ok : State → Event → Prop} (h : (system setup).Reachable ok s) :
    Coherent setup s :=
  h.invariant (fun _ => coherent_init) fun s event hc _ =>
    coherent_stepped hc (step_stepped setup s event)

end Steps

end Planipus.Sync

import Planipus.Sync.Concurrent
import Planipus.Sync.Verify.Records
import Planipus.Sync.Verify.Start

/-!
# The boundary that a pause draws

An execution holds the lock of the policy row from the gate to its commit, and `setPaused` needs the
same lock, so that no execution is past the gate when a pause commits. While the policy is paused
the gate lets no execution pass, so that no request is written and an unfinished effect can only be
leased, reaped and deferred. The resume makes the deferred effects due at once.
-/

namespace Planipus.Sync

open CalendarSync Provider Library

namespace Concurrent

variable {setup : Setup} {c c' : Concurrent} {s s' : State} {e e' : EffectRow}

/-! ## The outbox under the other events -/

/-- What an event other than an execution or a `setPaused` does to the outbox. -/
inductive Outbox (setup : Setup) (effects : List EffectRow) : List EffectRow → Prop
  | touched (effects' : List EffectRow) (h : TouchedAll effects effects') :
      Outbox setup effects effects'
  | appended (row : EffectRow) (hfresh : ∀ e ∈ effects, e.id ≠ row.id)
      (hrev : row.policyRevision = setup.policy.revision) : Outbox setup effects (effects ++ [row])
  | revived (dead : EffectRow) (hmem : dead ∈ effects) (hdead : dead.state = .dead)
      (f : EffectRow → EffectRow) (hid : ∀ e, (f e).id = e.id)
      (hrev : ∀ e, (f e).policyRevision = e.policyRevision) (effects' : List EffectRow)
      (h : effects' = updateRow EffectRow.id dead.id f effects ∨
        ∃ row, (∀ e ∈ effects, e.id ≠ row.id) ∧ row.policyRevision = setup.policy.revision ∧
          effects' = updateRow EffectRow.id dead.id f effects ++ [row]) :
      Outbox setup effects effects'

theorem Outbox.same (h : s'.effects = s.effects) : Outbox setup s.effects s'.effects := by
  rw [h]
  exact .touched _ ⟨fun e he => ⟨e, he, Touched.refl e⟩, fun e he _ => ⟨e, he, Touched.refl e⟩, id⟩

theorem outbox_reconciled {ctx : PassContext} {o : ObservationRow} {ins : Insertion}
    (hfresh : s.freshEffect ins.id = true) (h : Reconciled setup ctx o ins s s') :
    Outbox setup s.effects s'.effects := by
  cases h with
  | absent => exact Outbox.same rfl
  | shadowed => exact Outbox.same rfl
  | settled => exact Outbox.same rfl
  | queued p' operation _ _ effects heff =>
    rcases heff with rfl | ⟨rfl, -⟩
    · exact .appended _ (fun e he => freshEffect_ne hfresh he) rfl
    · exact Outbox.same rfl

theorem outbox_settled {lookup : Lookup} {input : SettleInput}
    (hfresh : s.freshEffect input.insertion.id = true) (h : Settled setup input lookup s s') :
    Outbox setup s.effects s'.effects := by
  cases h with
  | unchanged => exact Outbox.same rfl
  | repaired p hp hun =>
    exact .appended _ (fun e he => freshEffect_ne hfresh he) (unmoved_spec hun).revision.symm
  | editHeld => exact Outbox.same rfl
  | mismatchHeld => exact Outbox.same rfl

theorem outbox_resolved {input : RecoveryInput} (hfresh : s.freshEffect input.insertion.id = true)
    (h : Resolved setup input s s') : Outbox setup s.effects s'.effects := by
  cases h with
  | detached => exact Outbox.same rfl
  | restored => exact .appended _ (fun e he => freshEffect_ne hfresh he) rfl

theorem outbox_retried {input : RecoveryInput} (hfresh : s.freshEffect input.insertion.id = true)
    (h : Retried setup input s s') : Outbox setup s.effects s'.effects := by
  cases h with
  | unchanged => exact Outbox.same rfl
  | replayed p hp dead hdead =>
    obtain ⟨hmem, hd⟩ := blockingDeadEffect_mem hdead
    exact .revived dead hmem hd (replayEffect input.now) (fun _ => rfl) (fun _ => rfl) _ (Or.inl rfl)
  | gaveUp p hp dead hdead =>
    obtain ⟨hmem, hd⟩ := blockingDeadEffect_mem hdead
    exact .revived dead hmem hd (supersedeDead setup dead) (fun _ => rfl) (fun _ => rfl) _ (Or.inl rfl)
  | stale => exact Outbox.same rfl
  | requeued p hp effects heff =>
    rcases heff with ⟨rfl, -⟩ | ⟨dead, hdead, rfl⟩
    · exact .appended _ (fun e he => freshEffect_ne hfresh he) rfl
    · obtain ⟨hmem, hd⟩ := blockingDeadEffect_mem hdead
      exact .revived dead hmem hd (supersedeDead setup dead) (fun _ => rfl) (fun _ => rfl) _
        (Or.inr ⟨_, fun e he => freshEffect_ne hfresh he, rfl, rfl⟩)

theorem outbox_stepped {event : Event} (hex : ∀ input, event ≠ .execute input)
    (h : Stepped setup s event s') : Outbox setup s.effects s'.effects := by
  cases h with
  | rest _ _ _ he => exact Outbox.same he
  | touched _ effects h => exact .touched effects h
  | loaded => exact Outbox.same rfl
  | observed => exact Outbox.same rfl
  | edited => exact Outbox.same rfl
  | reconciled ctx o ins _ _ hfresh _ h => exact outbox_reconciled hfresh h
  | executed input => exact absurd rfl (hex input)
  | settled lookup input _ hfresh _ h => exact outbox_settled hfresh h
  | resolved _ _ input hfresh _ h => exact outbox_resolved hfresh h
  | retried input hfresh _ h => exact outbox_retried hfresh h

/-! ## The status of the policy -/

theorem reconciled_policyStatus {ctx : PassContext} {o : ObservationRow} {ins : Insertion}
    (h : Reconciled setup ctx o ins s s') : s'.policyStatus = s.policyStatus := by
  cases h <;> rfl

theorem settled_policyStatus {lookup : Lookup} {input : SettleInput}
    (h : Settled setup input lookup s s') : s'.policyStatus = s.policyStatus := by
  cases h <;> rfl

theorem resolved_policyStatus {input : RecoveryInput} (h : Resolved setup input s s') :
    s'.policyStatus = s.policyStatus := by
  cases h <;> rfl

theorem retried_policyStatus {input : RecoveryInput} (h : Retried setup input s s') :
    s'.policyStatus = s.policyStatus := by
  cases h <;> rfl

theorem observe_policyStatus (target : VerificationTarget) (reply : Reply) :
    (observe target reply s).policyStatus = s.policyStatus := by
  unfold observe
  split
  · rfl
  · unfold noteAuth
    split <;> rfl

/-- Only `setPaused` changes the status of the policy. -/
theorem policyStatus_step {event : Event} (hcut : cut event = false) :
    (Sync.step setup s event).policyStatus = s.policyStatus := by
  cases event with
  | execute input => cases hcut
  | setPaused paused now => cases hcut
  | store event => rfl
  | beginPass => rfl
  | crash owner => rfl
  | acknowledge notice => rfl
  | setEndpoints source destination => rfl
  | edit edit => rfl
  | cleanup ids => rfl
  | readObservation =>
    simp only [Sync.step]
    split <;> rfl
  | lease input =>
    simp only [Sync.step]
    split <;> rfl
  | loadTarget =>
    simp only [Sync.step]
    split <;> rfl
  | reconcile ctx o ins =>
    simp only [Sync.step]
    split
    · exact reconciled_policyStatus reconcileObservation_cases
    · rfl
  | observe target reply =>
    simp only [Sync.step]
    split
    · exact observe_policyStatus target reply
    · rfl
  | settle lookup input =>
    simp only [Sync.step]
    split
    · exact settled_policyStatus settle_cases
    · rfl
  | resolve notice action input =>
    simp only [Sync.step]
    split
    · cases h : resolve setup input notice action s with
      | error _ => rfl
      | ok s' => exact resolved_policyStatus (resolve_cases h)
    · rfl
  | retryBlocked input =>
    simp only [Sync.step]
    split
    · cases h : retryBlocked setup input s with
      | error _ => rfl
      | ok s' => exact retried_policyStatus (retryBlocked_cases h)
    · rfl

/-! ## Effects that outlive a step -/

/-- The effect is still there to be executed, with the intent it had. -/
structure Survives (e e' : EffectRow) : Prop where
  id : e'.id = e.id
  policyRevision : e'.policyRevision = e.policyRevision
  sourceBasisHash : e'.sourceBasisHash = e.sourceBasisHash
  operation : e'.operation = e.operation
  idempotencyKey : e'.idempotencyKey = e.idempotencyKey
  desiredState : e'.desiredState = e.desiredState
  unfinished : e'.unfinished = true

theorem Survives.refl (h : e.unfinished = true) : Survives e e := ⟨rfl, rfl, rfl, rfl, rfl, rfl, h⟩

theorem Survives.trans {e'' : EffectRow} (h : Survives e e') (h' : Survives e' e'') :
    Survives e e'' where
  id := h'.id.trans h.id
  policyRevision := h'.policyRevision.trans h.policyRevision
  sourceBasisHash := h'.sourceBasisHash.trans h.sourceBasisHash
  operation := h'.operation.trans h.operation
  idempotencyKey := h'.idempotencyKey.trans h.idempotencyKey
  desiredState := h'.desiredState.trans h.desiredState
  unfinished := h'.unfinished

theorem Survives.of_touched (h : Touched e e') (hun : e.unfinished = true) : Survives e e' :=
  ⟨h.id, h.policyRevision, h.sourceBasisHash, h.operation, h.idempotencyKey, h.desiredState,
    h.unfinished.trans hun⟩

theorem survives_deferEffect (now : Instant) (reason : SafeErrorCode) :
    Survives e (deferEffect now reason e) := ⟨rfl, rfl, rfl, rfl, rfl, rfl, rfl⟩

theorem survives_resumeEffect (now : Instant) (h : e.unfinished = true) :
    Survives e (resumeEffect setup now e) :=
  .of_touched (touched_resumeEffect setup now e) h

theorem not_succeeded (h : e.unfinished = true) : e.state ≠ .succeeded := by
  intro hs
  simp [EffectRow.unfinished, hs] at h

theorem not_dead (h : e.unfinished = true) : e.state ≠ .dead := by
  intro hs
  simp [EffectRow.unfinished, hs] at h

theorem Outbox.survives {effects effects' : List EffectRow} (h : Outbox setup effects effects')
    (hids : (effects.map EffectRow.id).Nodup) (he : e ∈ effects) (hun : e.unfinished = true) :
    ∃ e' ∈ effects', Survives e e' := by
  cases h with
  | touched _ h =>
    obtain ⟨e', he', ht⟩ := h.forth e he (not_succeeded hun)
    exact ⟨e', he', .of_touched ht hun⟩
  | appended row => exact ⟨e, List.mem_append_left _ he, .refl hun⟩
  | revived dead hmem hdead f _ _ _ h =>
    have hne : e.id ≠ dead.id := by
      intro hid
      rw [eq_of_id_eq hids he hmem hid] at hun
      exact not_dead hun hdead
    have hkept : e ∈ updateRow EffectRow.id dead.id f effects := mem_updateRow_of_ne he hne
    rcases h with rfl | ⟨row, -, -, rfl⟩
    · exact ⟨e, hkept, .refl hun⟩
    · exact ⟨e, List.mem_append_left _ hkept, .refl hun⟩

theorem Outbox.ids {effects effects' : List EffectRow} (h : Outbox setup effects effects')
    (hids : (effects.map EffectRow.id).Nodup) : (effects'.map EffectRow.id).Nodup := by
  cases h with
  | touched _ h => exact h.ids hids
  | appended row hfresh => exact nodup_append_fresh hids hfresh
  | revived dead _ _ f hid _ _ h =>
    have hkept : ((updateRow EffectRow.id dead.id f effects).map EffectRow.id).Nodup := by
      rwa [ids_updateRow hid]
    rcases h with rfl | ⟨row, hfresh, -, rfl⟩
    · exact hkept
    · refine nodup_append_fresh hkept (forall_updateRow (fun e he _ => hfresh e he) ?_)
      intro e he _
      rw [hid]
      exact hfresh e he

theorem Outbox.revision {effects effects' : List EffectRow} (h : Outbox setup effects effects')
    (hrev : ∀ e ∈ effects, e.policyRevision = setup.policy.revision) :
    ∀ e ∈ effects', e.policyRevision = setup.policy.revision := by
  have happend : ∀ {rows : List EffectRow} {row : EffectRow},
      (∀ e ∈ rows, e.policyRevision = setup.policy.revision) →
      row.policyRevision = setup.policy.revision →
      ∀ e ∈ rows ++ [row], e.policyRevision = setup.policy.revision := by
    intro rows row hrows hrow e he
    rcases List.mem_append.1 he with hold | hnew
    · exact hrows e hold
    · rwa [List.mem_singleton.1 hnew]
  cases h with
  | touched _ h =>
    intro e' he'
    obtain ⟨e, he, ht⟩ := h.back e' he'
    exact ht.policyRevision.trans (hrev e he)
  | appended row _ hrow => exact happend hrev hrow
  | revived dead _ _ f _ hkeep _ h =>
    have hkept : ∀ e ∈ updateRow EffectRow.id dead.id f effects,
        e.policyRevision = setup.policy.revision := by
      refine forall_updateRow (fun e he _ => hrev e he) ?_
      intro e he _
      rw [hkeep]
      exact hrev e he
    rcases h with rfl | ⟨row, -, hrow, rfl⟩
    · exact hkept
    · exact happend hkept hrow

/-! ## What holds of every interleaving -/

/-- An execution past the gate belongs to an active policy. -/
structure Guarded (setup : Setup) (c : Concurrent) : Prop where
  active : ∀ x, c.holder = some (.execution x) → c.rows.policyStatus = .active
  current : ∀ x, c.holder = some (.execution x) →
    x.effect.policyRevision = setup.policy.revision
  ids : (c.rows.effects.map EffectRow.id).Nodup
  revision : ∀ e ∈ c.rows.effects, e.policyRevision = setup.policy.revision

theorem Guarded.ofRows (h : Guarded setup c) (hst : s.policyStatus = c.rows.policyStatus)
    (hout : Outbox setup c.rows.effects s.effects) : Guarded setup { c with rows := s } where
  active x hx := hst.trans (h.active x hx)
  current := h.current
  ids := hout.ids h.ids
  revision := hout.revision h.revision

/-- A step after which nobody holds the lock. -/
theorem Guarded.release (hids : (s.effects.map EffectRow.id).Nodup)
    (hrev : ∀ e ∈ s.effects, e.policyRevision = setup.policy.revision) :
    Guarded setup ⟨s, none⟩ where
  active _ hx := (nomatch hx)
  current _ hx := (nomatch hx)
  ids := hids
  revision := hrev

theorem effectAfter_policyRevision (input : ExecuteInput) (outcome : Outcome) (e : EffectRow) :
    (effectAfter input outcome e).policyRevision = e.policyRevision := by
  cases outcome <;> rfl

theorem mem_insertedAfter {input : ExecuteInput} {projection : Option ProjectionRow}
    {outcome : Outcome} {row : EffectRow} (h : row ∈ insertedAfter input e projection outcome) :
    insertedAfter input e projection outcome = [row] ∧ row.id = input.replacement.id ∧
      row.policyRevision = e.policyRevision := by
  cases outcome with
  | replaced desired =>
    cases projection with
    | none => cases h
    | some p =>
      have hrow : row = _ := List.mem_singleton.1 h
      subst hrow
      exact ⟨rfl, rfl, rfl⟩
  | _ => cases h

/-- The outbox after an outcome has been recorded. -/
theorem Guarded.recorded {input : ExecuteInput} {outcome : Outcome} (h : Guarded setup c)
    (hfresh : ∀ row ∈ insertedAfter input e c.rows.projection outcome,
      c.rows.freshEffect row.id = true ∧ row.policyRevision = setup.policy.revision)
    (hrec : Recorded input e outcome c.rows s) : Guarded setup ⟨s, none⟩ := by
  have hids : ((updateRow EffectRow.id e.id (effectAfter input outcome) c.rows.effects).map
      EffectRow.id).Nodup := by
    rw [ids_updateRow (effectAfter_id outcome)]
    exact h.ids
  have hrev : ∀ e' ∈ updateRow EffectRow.id e.id (effectAfter input outcome) c.rows.effects,
      e'.policyRevision = setup.policy.revision := by
    refine forall_updateRow (fun e' he' _ => h.revision e' he') ?_
    intro e' he' _
    rw [effectAfter_policyRevision]
    exact h.revision e' he'
  apply Guarded.release
  · rw [hrec.effects]
    cases hins : insertedAfter input e c.rows.projection outcome with
    | nil => rwa [List.append_nil]
    | cons row rest =>
      have hmem : row ∈ insertedAfter input e c.rows.projection outcome := by
        rw [hins]
        exact List.mem_cons_self
      rw [← hins, (mem_insertedAfter hmem).1]
      refine nodup_append_fresh hids (forall_updateRow ?_ ?_)
      · intro e' he' _
        exact freshEffect_ne (hfresh row hmem).1 he'
      · intro e' he' _
        rw [effectAfter_id]
        exact freshEffect_ne (hfresh row hmem).1 he'
  · intro e' he'
    rw [hrec.effects] at he'
    rcases List.mem_append.1 he' with hold | hnew
    · exact hrev e' hold
    · exact (hfresh e' hnew).2

/-- The gate never asks for a replacement. -/
theorem gate_inserts_nothing {input : ExecuteInput} {outcome : Outcome}
    (h : Sync.gate setup s e = .error outcome) :
    insertedAfter input e s.projection outcome = [] := by
  cases gate_error h <;> rfl

theorem guarded_gate (h : Guarded setup c) (input : ExecuteInput) :
    Guarded setup (c.gate setup input) := by
  unfold gate
  cases hholder : c.holder with
  | some holder => exact h
  | none =>
    cases hleased : leasedEffect input c.rows with
    | none => exact h
    | some e =>
      dsimp only
      cases hgate : Sync.gate setup c.rows e with
      | ok p =>
        have hpassed := gate_ok hgate
        refine ⟨fun _ _ => hpassed.active, ?_, h.ids, h.revision⟩
        intro x hx
        cases hx
        exact hpassed.revision.symm
      | error outcome =>
        dsimp only
        cases hrec : record input e c.rows outcome with
        | none => exact .release h.ids h.revision
        | some s' =>
          apply h.recorded _ (record_recorded hrec)
          intro row hrow
          rw [gate_inserts_nothing hgate] at hrow
          cases hrow

theorem guarded_finish (h : Guarded setup c) (now : Instant) (replacement : Insertion) :
    Guarded setup (c.finish setup now replacement) := by
  unfold finish
  split
  · rename_i x hholder
    split
    · rename_i outcome _
      split
      · rename_i hfresh
        dsimp only
        cases hrec : record { x.input with now, replacement } x.effect c.rows
            (conclude setup c.rows x.projection x.effect outcome) with
        | none => exact .release h.ids h.revision
        | some s' =>
          apply h.recorded _ (record_recorded hrec)
          intro row hrow
          obtain ⟨-, hid, hrev⟩ := mem_insertedAfter hrow
          rw [hid, hrev]
          exact ⟨hfresh, h.current x hholder⟩
      · exact h
    · exact h
  · exact h

theorem guarded_exchange (h : Guarded setup c) (ex : Exchange) : Guarded setup (c.exchange ex) := by
  unfold exchange
  split
  · rename_i x hholder
    dsimp only
    have hkeep : ∀ (calendar : Calendar) (dialogue : Dialogue), Guarded setup
        ⟨{ c.rows with calendar }, some (.execution { x with dialogue })⟩ := by
      intro calendar dialogue
      refine ⟨fun _ _ => h.active x hholder, ?_, h.ids, h.revision⟩
      intro x' hx'
      cases hx'
      exact h.current x hholder
    split
    · exact h
    · exact hkeep _ _
    · exact hkeep _ _
  · exact h

theorem guarded_lock (h : Guarded setup c) {holder : Holder}
    (hne : ∀ x, holder ≠ .execution x) : Guarded setup (c.lock holder) := by
  unfold lock
  split
  · exact h
  · refine ⟨?_, ?_, h.ids, h.revision⟩
    · intro x hx
      cases hx
      exact absurd rfl (hne x)
    · intro x hx
      cases hx
      exact absurd rfl (hne x)

theorem setPaused_outbox (paused : Bool) (now : Instant) :
    Outbox setup s.effects (commit s (setPaused setup paused now s)).effects :=
  outbox_stepped (fun _ h => by cases h) (setPaused_stepped setup s paused now)

theorem guarded_step (c : Concurrent) (m : Move) (h : Guarded setup c) :
    Guarded setup (step setup c m) := by
  cases m with
  | gate input => exact guarded_gate h input
  | exchange ex => exact guarded_exchange h ex
  | finish now replacement => exact guarded_finish h now replacement
  | die =>
    show Guarded setup c.die
    unfold die
    split
    · exact .release h.ids h.revision
    · exact h
  | lockCommand paused => exact guarded_lock h (fun _ hx => by cases hx)
  | commitCommand now =>
    show Guarded setup (c.commitCommand setup now)
    unfold commitCommand
    split
    · rename_i paused _
      have hout : Outbox setup c.rows.effects _ := setPaused_outbox paused now
      exact .release (hout.ids h.ids) (hout.revision h.revision)
    · exact h
  | lockElsewhere => exact guarded_lock h (fun _ hx => by cases hx)
  | unlockElsewhere =>
    show Guarded setup c.unlockElsewhere
    unfold unlockElsewhere
    split
    · exact .release h.ids h.revision
    · exact h
  | event event =>
    simp only [step]
    split
    · exact h
    · rename_i hcut
      have hcut : cut event = false := by simpa using hcut
      refine h.ofRows (policyStatus_step hcut) (outbox_stepped ?_ (step_stepped setup c.rows event))
      rintro input rfl
      cases hcut

theorem guarded (h : (machine setup).Reachable (fun _ _ => True) c) : Guarded setup c := by
  refine h.invariant ?_ (fun c m hc _ => guarded_step c m hc)
  rintro c ⟨hinit, hholder⟩
  refine ⟨?_, ?_, ?_, ?_⟩
  · intro x hx
    rw [hholder] at hx
    cases hx
  · intro x hx
    rw [hholder] at hx
    cases hx
  · rw [hinit.effects]
    exact List.nodup_nil
  · rw [hinit.effects]
    intro e he
    cases he

/-! ## While the policy is paused -/

/-- The step commits a resume. -/
def resumes (setup : Setup) (c : Concurrent) : Move → Bool
  | .commitCommand now =>
    match c.holder, setPaused setup false now c.rows with
    | some (.command false), .ok _ => true
    | _, _ => false
  | _ => false

/-- A pause has deferred the effect for a day. -/
def Parked (e : EffectRow) : Prop := e.state = .retry ∧ e.safeErrorCode = some .policyPaused

theorem gate_paused (h : s.policyStatus = .paused) :
    Sync.gate setup s e = .error (.deferred .policyPaused) := by
  unfold Sync.gate effectPolicyExecutionDisposition
  rw [h]

theorem not_executing (h : Guarded setup c) (hp : c.rows.policyStatus = .paused) (x : Execution) :
    c.holder ≠ some (.execution x) := by
  intro hx
  have hactive := h.active x hx
  rw [hp] at hactive
  cases hactive

/-- Nobody sends a write request for a paused policy. -/
theorem requested_paused (h : Guarded setup c) (hp : c.rows.policyStatus = .paused) (m : Move) :
    c.requested m = [] := by
  unfold requested
  split
  · split
    · rename_i x hx
      exact absurd hx (not_executing h hp x)
    · rfl
  · rfl

/-- What a step leaves of a paused policy and its unfinished effects. -/
structure Keeps (c c' : Concurrent) : Prop where
  paused : c'.rows.policyStatus = .paused
  survives : ∀ e ∈ c.rows.effects, e.unfinished = true → ∃ e' ∈ c'.rows.effects, Survives e e'

theorem Keeps.refl (hp : c.rows.policyStatus = .paused) : Keeps c c :=
  ⟨hp, fun e he hun => ⟨e, he, .refl hun⟩⟩

/-- A step that leaves the rows alone. -/
theorem Keeps.holder (hp : c.rows.policyStatus = .paused) (holder : Option Holder) :
    Keeps c { c with holder } :=
  ⟨hp, fun e he hun => ⟨e, he, .refl hun⟩⟩

theorem keeps_gate (hp : c.rows.policyStatus = .paused)
    (input : ExecuteInput) : Keeps c (c.gate setup input) := by
  unfold gate
  cases hholder : c.holder with
  | some holder => exact .refl hp
  | none =>
    cases hleased : leasedEffect input c.rows with
    | none => exact .refl hp
    | some leased =>
      dsimp only
      rw [gate_paused hp]
      refine ⟨hp, ?_⟩
      intro e he hun
      by_cases hid : e.id = leased.id
      · exact ⟨_, mem_updateRow_of_mem he hid, survives_deferEffect _ _⟩
      · exact ⟨e, mem_updateRow_of_ne he hid, .refl hun⟩

/-- An execution's own steps do not happen while the policy is paused. -/
theorem execution_idle (h : Guarded setup c) (hp : c.rows.policyStatus = .paused) (ex : Exchange)
    (now : Instant) (replacement : Insertion) :
    c.exchange ex = c ∧ c.finish setup now replacement = c ∧ c.die = c := by
  have hno := not_executing h hp
  refine ⟨?_, ?_, ?_⟩
  · unfold exchange
    split
    · rename_i x hx
      exact absurd hx (hno x)
    · rfl
  · unfold finish
    split
    · rename_i x hx
      exact absurd hx (hno x)
    · rfl
  · unfold die
    split
    · rename_i x hx
      exact absurd hx (hno x)
    · rfl

theorem keeps_commitCommand (hp : c.rows.policyStatus = .paused) {now : Instant}
    (hres : resumes setup c (.commitCommand now) = false) :
    Keeps c (c.commitCommand setup now) := by
  unfold commitCommand
  split
  · rename_i paused hholder
    cases paused with
    | true =>
      have hset : setPaused setup true now c.rows = .ok { c.rows with policyStatus := .paused } := by
        simp [setPaused, hp]
      rw [hset]
      exact ⟨rfl, fun e he hun => ⟨e, he, .refl hun⟩⟩
    | false =>
      cases hset : setPaused setup false now c.rows with
      | error _ => exact .holder hp none
      | ok s' => simp [resumes, hholder, hset] at hres
  · exact .refl hp

theorem keeps_step (h : Guarded setup c) (hp : c.rows.policyStatus = .paused) (m : Move)
    (hres : resumes setup c m = false) : Keeps c (step setup c m) := by
  cases m with
  | gate input => exact keeps_gate hp input
  | exchange ex =>
    show Keeps c (c.exchange ex)
    rw [(execution_idle h hp ex 0 ⟨0, 0⟩).1]
    exact .refl hp
  | finish now replacement =>
    show Keeps c (c.finish setup now replacement)
    rw [(execution_idle h hp {} now replacement).2.1]
    exact .refl hp
  | die =>
    show Keeps c c.die
    rw [(execution_idle h hp {} 0 ⟨0, 0⟩).2.2]
    exact .refl hp
  | lockCommand paused =>
    show Keeps c (c.lock (.command paused))
    unfold lock
    split
    · exact .refl hp
    · exact .holder hp _
  | commitCommand now => exact keeps_commitCommand hp hres
  | lockElsewhere =>
    show Keeps c (c.lock .elsewhere)
    unfold lock
    split
    · exact .refl hp
    · exact .holder hp _
  | unlockElsewhere =>
    show Keeps c c.unlockElsewhere
    unfold unlockElsewhere
    split
    · exact .holder hp none
    · exact .refl hp
  | event event =>
    simp only [step]
    split
    · exact .refl hp
    · rename_i hcut
      have hcut : cut event = false := by simpa using hcut
      refine ⟨(policyStatus_step hcut).trans hp, ?_⟩
      intro e he hun
      refine Outbox.survives (outbox_stepped ?_ (step_stepped setup c.rows event)) h.ids he hun
      rintro input rfl
      cases hcut

/-- Every effect that was unfinished at the pause survives until a resume. -/
theorem keeps_run (h : Guarded setup c) (hp : c.rows.policyStatus = .paused)
    (hrun : (machine setup).Leads (fun c m => resumes setup c m = false) c c') :
    Guarded setup c' ∧ Keeps c c' := by
  induction hrun with
  | refl => exact ⟨h, .refl hp⟩
  | @snoc t m _ hok ih =>
    obtain ⟨hguarded, hkeeps⟩ := ih
    have hstep := keeps_step hguarded hkeeps.paused m hok
    refine ⟨guarded_step t m hguarded, hstep.paused, ?_⟩
    intro e he hun
    obtain ⟨e', he', hsurvives⟩ := hkeeps.survives e he hun
    obtain ⟨e'', he'', hsurvives'⟩ := hstep.survives e' he' hsurvives.unfinished
    exact ⟨e'', he'', hsurvives.trans hsurvives'⟩

/-! ## The pause and the resume -/

theorem commit_pause {now : Instant} (hlock : c.holder = some (.command true))
    (hlive : c.rows.policyStatus ≠ .deleted) :
    c.commitCommand setup now = ⟨{ c.rows with policyStatus := .paused }, none⟩ := by
  unfold commitCommand
  rw [hlock]
  simp [setPaused, hlive, commit]

theorem not_parked_resumeEffect (now : Instant) (hrev : e.policyRevision = setup.policy.revision) :
    ¬ Parked (resumeEffect setup now e) := by
  unfold resumeEffect
  split
  · rintro ⟨-, hcode⟩
    cases hcode
  · rename_i hno
    rintro ⟨hstate, hcode⟩
    exact hno ⟨hrev, hstate, hcode⟩

/-- The resume leaves no effect parked. -/
theorem resumes_effects {m : Move} (hres : resumes setup c m = true) :
    ∃ now, (step setup c m).rows.effects = c.rows.effects.map (resumeEffect setup now) := by
  cases m with
  | commitCommand now =>
    simp only [resumes] at hres
    split at hres
    · rename_i s' hholder hset
      refine ⟨now, ?_⟩
      show (c.commitCommand setup now).rows.effects = _
      unfold commitCommand
      rw [hholder]
      dsimp only
      rw [hset]
      unfold setPaused at hset
      split at hset
      · cases hset
      · split at hset
        · cases ‹false = true›
        · split at hset
          · cases hset
          · cases hset
            obtain ⟨jobs, hjobs⟩ := State.enqueue_eq { c.rows with
              policyStatus := .active, effects := c.rows.effects.map (resumeEffect setup now) } .revision
            simp only [commit, hjobs]
    · cases hres
  | _ => cases hres

/-- **The pause boundary**: from the commit of a pause until a resume commits, in every interleaving,
no write request is sent for the projection and every effect that was unfinished at the pause is
still there to be executed. After the resume it still is, and the pause has left none parked. -/
theorem pause_boundary {now : Instant} (h : (machine setup).Reachable (fun _ _ => True) c)
    (hlock : c.holder = some (.command true)) (hlive : c.rows.policyStatus ≠ .deleted)
    (hrun : (machine setup).Leads (fun c m => resumes setup c m = false)
      (c.commitCommand setup now) c') :
    (∀ m, c'.requested m = []) ∧
      (∀ e ∈ c.rows.effects, e.unfinished = true → ∃ e' ∈ c'.rows.effects, Survives e e') ∧
      (∀ m, resumes setup c' m = true →
        (∀ e ∈ c.rows.effects, e.unfinished = true →
          ∃ e' ∈ (step setup c' m).rows.effects, Survives e e') ∧
        ∀ e' ∈ (step setup c' m).rows.effects, ¬ Parked e') := by
  have hguarded := guarded_step c (.commitCommand now) (guarded h)
  have hpause : c.commitCommand setup now = ⟨{ c.rows with policyStatus := .paused }, none⟩ :=
    commit_pause hlock hlive
  have hp : (c.commitCommand setup now).rows.policyStatus = .paused := by rw [hpause]
  obtain ⟨hguarded', hkeeps⟩ := keeps_run hguarded hp hrun
  have hsurvive : ∀ e ∈ c.rows.effects, e.unfinished = true →
      ∃ e' ∈ c'.rows.effects, Survives e e' := by
    intro e he hun
    refine hkeeps.survives e ?_ hun
    show e ∈ (c.commitCommand setup now).rows.effects
    rw [hpause]
    exact he
  refine ⟨requested_paused hguarded' hkeeps.paused, hsurvive, ?_⟩
  intro m hres
  obtain ⟨now', heffects⟩ := resumes_effects hres
  rw [heffects]
  constructor
  · intro e he hun
    obtain ⟨e', he', hsurvives⟩ := hsurvive e he hun
    exact ⟨_, List.mem_map_of_mem he',
      hsurvives.trans (survives_resumeEffect now' hsurvives.unfinished)⟩
  · intro e' he'
    obtain ⟨e, he, rfl⟩ := List.mem_map.1 he'
    exact not_parked_resumeEffect now' (hguarded'.revision e he)

/-- A worker has leased the effect of the first pass, and a pause has the lock. -/
def pausing : Concurrent :=
  (machine plainSetup).run ⟨startState (plainEvent "meeting" 1), none⟩
    ((passOver (plainEvent "meeting" 1) 1 ++ [leaseBy "worker" 0]).map .event ++
      [.lockCommand true])

/-- After the pause the worker gets the lock, and a resume is about to commit. -/
def whilePaused : List Move :=
  [.gate { owner := "worker", effect := 1, now := 0, replacement := ⟨2, 2⟩ }, .lockCommand false]

theorem pause_boundary_deferredEffect :
    (pausing.rows.effects.map EffectRow.state = [.leased] ∧
      ((machine plainSetup).run (pausing.commitCommand plainSetup 0) whilePaused).rows.effects.map
        EffectRow.state = [.retry]) ∧
      ∀ e' ∈ (step plainSetup
          ((machine plainSetup).run (pausing.commitCommand plainSetup 0) whilePaused)
          (.commitCommand 5)).rows.effects, ¬ Parked e' := by
  have hreach : (machine plainSetup).Reachable (fun _ _ => True) pausing :=
    ⟨_, ⟨initial_startState, rfl⟩, Machine.leads_run_free _ _⟩
  have hrun : (machine plainSetup).Leads (fun c m => resumes plainSetup c m = false)
      (pausing.commitCommand plainSetup 0) _ :=
    Machine.leads_run whilePaused _ (by decide +kernel)
  have hboundary := pause_boundary hreach rfl (by decide +kernel) hrun
  exact ⟨by decide +kernel, (hboundary.2.2 (.commitCommand 5) (by decide +kernel)).2⟩

end Concurrent

end Planipus.Sync

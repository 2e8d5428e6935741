import Planipus.Sync.Verify.Coherence
import Planipus.Sync.Verify.Start

/-!
# No stale write

Between the transaction that computes an effect and the one that executes it, anything may happen.
The gate compares the effect's basis with the version of the source event that is stored under the
lock, so whatever is written was evaluated from that version (`no_stale_write`), and an effect that
has been overtaken ends without a request.
-/

namespace Planipus.Sync

open CalendarSync Provider Library

section Freshness

variable {setup : Setup} {s s' : State} {input : ExecuteInput} {e : EffectRow}

/-- A newer version of the source event is stored, or the policy has moved on. -/
def Overtaken (setup : Setup) (s : State) (e : EffectRow) : Prop :=
  e.sourceBasisHash ≠ some s.observation.basis ∨ e.policyRevision ≠ setup.policy.revision ∨
    s.policyStatus ≠ .active

/-- The row of an effect that was superseded or deferred. -/
inductive SetAside (now : Instant) (e : EffectRow) : EffectRow → Prop
  | superseded (code : SafeErrorCode) : SetAside now e (finishEffect (some code) e)
  | deferred (code : SafeErrorCode) : SetAside now e (deferEffect now code e)

/-- The row of an effect that the gate stopped. A connection that no longer carries the copy is
looked at before the basis, and fails the effect for good. -/
inductive Stopped (s : State) (now : Instant) (e : EffectRow) : EffectRow → Prop
  | setAside (e' : EffectRow) : SetAside now e e' → Stopped s now e e'
  | sourceUnusable : s.source.usable .source = false →
      Stopped s now e (failEffect now connectionRoleChanged e)
  | destinationUnusable : s.destination.usable .destination = false →
      Stopped s now e (failEffect now targetUnavailable e)

theorem gate_overtaken (h : Overtaken setup s e) : ∃ outcome, gate setup s e = .error outcome := by
  cases hg : gate setup s e with
  | error outcome => exact ⟨outcome, rfl⟩
  | ok p =>
    have hpass := gate_ok hg
    rcases h with hbasis | hrev | hstatus
    · exact absurd hpass.effectBasis hbasis
    · exact absurd hpass.revision.symm hrev
    · exact absurd hpass.active hstatus

theorem gate_stopped {outcome : Outcome} (hproj : s.projection ≠ none)
    (h : gate setup s e = .error outcome) : Stopped s input.now e (effectAfter input outcome e) := by
  unfold gate at h
  split at h
  · cases h
    exact .setAside _ (.deferred _)
  · cases h
    exact .setAside _ (.deferred _)
  · cases h
    exact .setAside _ (.superseded _)
  split at h
  · rename_i hsource
    rw [Bool.not_eq_true'] at hsource
    cases h
    exact .sourceUnusable hsource
  split at h
  · rename_i hnone
    exact absurd hnone hproj
  split at h
  · rename_i hdest
    rw [Bool.not_eq_true'] at hdest
    cases h
    exact .destinationUnusable hdest
  split at h
  · cases h
    exact .setAside _ (.superseded _)
  · cases h

theorem issued_of_gate_error {outcome : Outcome} (he : leasedEffect input s = some e)
    (hg : gate setup s e = .error outcome) : issued setup s (.execute input) = [] := by
  simp only [issued, issuedCalls, he, executeSession, hg]
  split <;> rfl

/-- An execution stopped by the gate records its outcome, unless the worker dies. -/
theorem step_of_gate_error {outcome : Outcome} (he : leasedEffect input s = some e)
    (hg : gate setup s e = .error outcome) (hout : ∀ d, outcome ≠ .replaced d)
    (hfresh : s.freshEffect input.replacement.id = true) (hcrash : input.crash = false) :
    Recorded input e outcome s (step setup s (.execute input)) := by
  have hrec : ∃ s', record input e s outcome = some s' := by
    cases outcome with
    | replaced d => exact absurd rfl (hout d)
    | _ => exact ⟨_, rfl⟩
  obtain ⟨s', hs'⟩ := hrec
  have hstep : step setup s (.execute input) = s' := by
    simp only [step, hfresh, if_true, executeOne, he, executeSession, hg, hcrash,
      Bool.false_eq_true, if_false]
    show (record input e s outcome).getD _ = s'
    rw [hs', Option.getD_some]
  rw [hstep]
  exact record_recorded hs'

/-- A worker that dies leaves the effect leased. -/
theorem mem_step_of_crash (he : leasedEffect input s = some e) (hcrash : input.crash = true) :
    e ∈ (step setup s (.execute input)).effects := by
  have hmem := (leasedEffect_isLeased he).mem
  simp only [step, executeOne, he, hcrash, if_true, abandon]
  split <;> exact hmem

/-- **No stale write.** Whatever is created or updated is a copy of the version of the source event
that is stored at that moment, which is live, under the active policy. An effect that has been
overtaken sends nothing: it is superseded or deferred, or failed for good where a connection no longer
carries the copy, and a worker that dies leaves it for the next lease. -/
theorem no_stale_write (h : (system setup).Reachable (fun _ _ => True) s) (event : Event) :
    (∀ call ∈ issued setup s event, ∀ payload, call.request.payload? = some payload →
      s.policyStatus = .active ∧ s.observation.tombstone = false ∧
        Produced setup s.observation payload.desired) ∧
    ∀ input e, event = .execute input → leasedEffect input s = some e → Overtaken setup s e →
      issued setup s event = [] ∧
        (input.crash = true → e ∈ (step setup s event).effects) ∧
        (input.crash = false → s.freshEffect input.replacement.id = true →
          ∃ e' ∈ (step setup s event).effects, Stopped s input.now e e') := by
  have hcoh := coherent_reachable h
  constructor
  · intro call hcall payload hpay
    obtain ⟨input, e, p, rfl, he, hg, htried⟩ := issued_tried hcall
    have hleased := leasedEffect_isLeased he
    have hpass := gate_ok hg
    obtain ⟨read, -, -, hauth⟩ := htried.reason
    have hdesired := hauth.desired hpay
    obtain ⟨o, hbasis, hprod⟩ := hcoh.effects e hleased.mem payload.desired hdesired
    rw [hpass.effectBasis, Option.some.injEq] at hbasis
    have ho : s.observation = o := ObservationRow.basis_inj hbasis
    subst ho
    exact ⟨hpass.active, hprod.live, hprod⟩
  · rintro input e rfl he hover
    obtain ⟨outcome, hg⟩ := gate_overtaken hover
    refine ⟨issued_of_gate_error he hg, mem_step_of_crash he, ?_⟩
    intro hcrash hfresh
    have hmem := (leasedEffect_isLeased he).mem
    have hproj : s.projection ≠ none := by
      intro hnone
      rw [hcoh.orphans hnone] at hmem
      cases hmem
    have hrec := step_of_gate_error he hg (gateStopped_ne_replaced (gate_error hg)) hfresh hcrash
    exact ⟨_, hrec.mem_self hmem, gate_stopped hproj hg⟩

/-- The run in which a pass queues a create and a worker leases it. -/
def leasedCreate : State :=
  runFrom (plainSetup) (startState (plainEvent "meeting" 1))
    (passOver (plainEvent "meeting" 1) 1 ++ [leaseBy "worker" 0])

/-- The event moves before the effect is executed, -/
def overtakenCreate : State := runFrom plainSetup leasedCreate [.store (plainEvent "meeting" 2 "r2")]

/-- and a sync is refused, which marks the source's connection. -/
def refusedCreate : State :=
  runFrom plainSetup overtakenCreate
    [.setEndpoints ⟨true, .actionRequired, .source⟩ ⟨true, .active, .destination⟩]

theorem reachable_overtakenCreate : (system plainSetup).Reachable (fun _ _ => True) overtakenCreate :=
  @reachable_runFrom plainSetup (plainEvent "meeting" 1) _ (passOver (plainEvent "meeting" 1) 1 ++
    [leaseBy "worker" 0, .store (plainEvent "meeting" 2 "r2")])

theorem reachable_refusedCreate : (system plainSetup).Reachable (fun _ _ => True) refusedCreate :=
  @reachable_runFrom plainSetup (plainEvent "meeting" 1) _ (passOver (plainEvent "meeting" 1) 1 ++
    [leaseBy "worker" 0, .store (plainEvent "meeting" 2 "r2"),
      .setEndpoints ⟨true, .actionRequired, .source⟩ ⟨true, .active, .destination⟩])

def executeCreate : ExecuteInput := { owner := "worker", effect := 1, now := 0, replacement := ⟨101, 101⟩ }

theorem leased_overtaken (h : ((leasedEffect executeCreate s).any fun e =>
      e.sourceBasisHash ≠ some s.observation.basis) = true) :
    ∃ e, leasedEffect executeCreate s = some e ∧ e.sourceBasisHash ≠ some s.observation.basis := by
  rw [Option.any_eq_true] at h
  obtain ⟨e, he, hbasis⟩ := h
  exact ⟨e, he, of_decide_eq_true hbasis⟩

/-- The first execution sends one request, and it is fresh. The overtaken effect is set aside. -/
theorem no_stale_write_leasedCreate :
    ((issued plainSetup leasedCreate (executeBy "worker" 1)).length = 1 ∧
      ∀ call ∈ issued plainSetup leasedCreate (executeBy "worker" 1),
        ∀ payload, call.request.payload? = some payload →
          leasedCreate.policyStatus = .active ∧ leasedCreate.observation.tombstone = false ∧
            Produced plainSetup leasedCreate.observation payload.desired) ∧
    ∃ e, leasedEffect executeCreate overtakenCreate = some e ∧
      issued plainSetup overtakenCreate (.execute executeCreate) = [] ∧
      ∃ e' ∈ (step plainSetup overtakenCreate (.execute executeCreate)).effects,
        Stopped overtakenCreate 0 e e' := by
  refine ⟨⟨by decide +kernel, (no_stale_write (reachable_runFrom _) _).1⟩, ?_⟩
  obtain ⟨e, he, hbasis⟩ := leased_overtaken (s := overtakenCreate) (by decide +kernel)
  obtain ⟨hnone, -, hstopped⟩ :=
    (no_stale_write reachable_overtakenCreate (.execute executeCreate)).2 executeCreate e rfl he (.inl hbasis)
  exact ⟨e, he, hnone, hstopped rfl (by decide +kernel)⟩

/-- As claimed, every overtaken effect would be superseded or deferred. The refused one is dead. -/
theorem no_stale_write_refusedCreate :
    ¬∀ s, (system plainSetup).Reachable (fun _ _ => True) s → ∀ input e, leasedEffect input s = some e →
      Overtaken plainSetup s e → input.crash = false → s.freshEffect input.replacement.id = true →
        ∃ e' ∈ (step plainSetup s (.execute input)).effects, SetAside input.now e e' := by
  intro hclaim
  obtain ⟨e, he, hbasis⟩ := leased_overtaken (s := refusedCreate) (by decide +kernel)
  obtain ⟨e', he', haside⟩ := hclaim refusedCreate reachable_refusedCreate executeCreate e he (.inl hbasis)
    rfl (by decide +kernel)
  have hdead : ∀ e' ∈ (step plainSetup refusedCreate (.execute executeCreate)).effects, e'.state = .dead := by
    decide +kernel
  have hstate := hdead e' he'
  cases haside <;> cases hstate

end Freshness

end Planipus.Sync

import Planipus.Sync.Verify.Coherence
import Planipus.Sync.Verify.Start

/-!
# The order of the outbox

A lease takes the first effect of a projection that has not succeeded, in the order of creation
times. The creation time of an effect is the start of the transaction that inserts it, but its
place among the projection's intents is given under the row lock that the transaction takes later.
The two orders agree as long as every transaction that queues an effect began after those whose
effects are still there (`InTurn`). Then at most one effect is leased at a time, and effects are
executed in the order of their intents (`outbox_in_order`).
-/

namespace Planipus.Sync

open CalendarSync Provider Library

section Order

variable {e e' : EffectRow}

/-- The intent sequence under which the effect was created. -/
def EffectRow.intent (e : EffectRow) : Nat := e.idempotencyKey.intentSequence

theorem precedes_iff :
    e.precedes e' = true ↔
      e.createdAt < e'.createdAt ∨ (e.createdAt = e'.createdAt ∧ e.id < e'.id) := by
  simp [EffectRow.precedes]

theorem precedes_asymm (h : e.precedes e' = true) : e'.precedes e ≠ true := by
  intro h'
  rw [precedes_iff] at h h'
  rcases h with h | ⟨heq, hid⟩
  · rcases h' with h' | ⟨heq', -⟩
    · exact Int.lt_asymm h h'
    · exact Int.ne_of_lt h heq'.symm
  · rcases h' with h' | ⟨-, hid'⟩
    · exact Int.ne_of_lt h' heq.symm
    · exact Nat.lt_asymm hid hid'

/-- Effects of one creation time are told apart by their IDs. -/
theorem precedes_total (h : e'.precedes e ≠ true) : e'.id = e.id ∨ e.precedes e' = true := by
  rw [Ne, precedes_iff, not_or, not_and] at h
  rw [precedes_iff]
  rcases Int.lt_trichotomy e.createdAt e'.createdAt with hlt | heq | hgt
  · exact Or.inr (Or.inl hlt)
  · rcases Nat.lt_trichotomy e.id e'.id with hid | hid | hid
    · exact Or.inr (Or.inr ⟨heq, hid⟩)
    · exact Or.inl hid.symm
    · exact absurd hid (h.2 heq.symm)
  · exact absurd hgt h.1

end Order

/-! ## What a step leaves of a row -/

section Rows

variable {e e' e'' : EffectRow}

/-- `e'` is the row `e` after a step: its place in the queue is kept, and so is success. -/
structure Follows (e e' : EffectRow) : Prop where
  id : e'.id = e.id
  createdAt : e'.createdAt = e.createdAt
  intent : e'.intent = e.intent
  succeeded : e.state = .succeeded → e'.state = .succeeded

theorem Follows.refl (e : EffectRow) : Follows e e := ⟨rfl, rfl, rfl, fun h => h⟩

theorem Follows.precedes {r r' : EffectRow} (h : Follows e e') (h' : Follows r r') :
    e'.precedes r' = e.precedes r := by
  unfold EffectRow.precedes
  rw [h.id, h.createdAt, h'.id, h'.createdAt]

theorem Touched.follows (h : Touched e e')
    (hs : e.state = .succeeded → e'.state = .succeeded) : Follows e e' where
  id := h.id
  createdAt := h.createdAt
  intent := congrArg IdempotencyKey.intentSequence h.idempotencyKey
  succeeded := hs

theorem follows_reap (now : Instant) (e : EffectRow) : Follows e (reap now e) := by
  refine (touched_reap now e).follows fun hs => ?_
  unfold reap
  rw [if_neg (by simp [hs])]
  exact hs

theorem reap_leased {now : Instant} (h : (reap now e).state = .leased) : e.state = .leased := by
  unfold reap at h
  split at h
  · cases h
  · exact h

end Rows

/-! ## The queue of a projection -/

/-- `e` comes before every other effect that has not succeeded. -/
def First (s : State) (e : EffectRow) : Prop :=
  ∀ e' ∈ s.effects, e'.state ≠ .succeeded → e'.id = e.id ∨ e.precedes e' = true

/-- Among the effects that have not succeeded the order of creation is the order of the intents,
and a leased effect is the first. -/
structure Queue (s : State) : Prop where
  bound : ∀ p, s.projection = some p → ∀ e ∈ s.effects, e.intent ≤ p.intentSequence
  distinct : ∀ e ∈ s.effects, ∀ e' ∈ s.effects, e.intent = e'.intent → e.id = e'.id
  order : ∀ e ∈ s.effects, ∀ e' ∈ s.effects, e.state ≠ .succeeded → e'.state ≠ .succeeded →
    e.intent < e'.intent → e.precedes e' = true
  first : ∀ e ∈ s.effects, e.state = .leased → First s e

/-! ## Queueing -/

/-- The ID and the creation time that an event would give to an effect. -/
def Event.insertion? : Event → Option Insertion
  | .reconcile _ _ ins => some ins
  | .execute input => some input.replacement
  | .settle _ input => some input.insertion
  | .resolve _ _ input => some input.insertion
  | .retryBlocked input => some input.insertion
  | _ => none

/-- A row created so comes after the row `e`. -/
def Insertion.after (ins : Insertion) (e : EffectRow) : Bool :=
  e.createdAt < ins.createdAt || (e.createdAt = ins.createdAt && e.id < ins.id)

/-- The event inserts an effect. -/
def queues (setup : Setup) (s : State) (event : Event) (ins : Insertion) : Bool :=
  s.freshEffect ins.id && (step setup s event).effects.any fun e => e.id = ins.id

/-- The effect that the event inserts, if any, is created after those that have not succeeded. -/
def inTurn (setup : Setup) (s : State) (event : Event) : Bool :=
  event.insertion?.all fun ins =>
    !queues setup s event ins || s.effects.all fun e => e.state = .succeeded || ins.after e

section Growth

variable {setup : Setup} {s s' : State} {event : Event} {ins : Insertion}

/-- A row that a step has inserted: the newest intent of the projection. -/
structure Inserted (ins : Insertion) (s s' : State) (e : EffectRow) : Prop where
  fresh : s.freshEffect ins.id = true
  id : e.id = ins.id
  createdAt : e.createdAt = ins.createdAt
  state : e.state = .pending
  intent : ∃ p', s'.projection = some p' ∧ e.intent = p'.intentSequence ∧
    ∀ p, s.projection = some p → p.intentSequence < p'.intentSequence

/-- The row was there before the step, and was leased or first if it is leased now. -/
def Kept (s : State) (e' : EffectRow) : Prop :=
  ∃ e ∈ s.effects, Follows e e' ∧ (e'.state = .leased → e.state = .leased ∨ First s e)

/-- What a step makes of the outbox. -/
structure Grown (ins : Option Insertion) (s s' : State) : Prop where
  back : ∀ e' ∈ s'.effects, Kept s e' ∨ ∃ i, ins = some i ∧ Inserted i s s' e'
  mono : ∀ p, s.projection = some p →
    ∃ p', s'.projection = some p' ∧ p.intentSequence ≤ p'.intentSequence

theorem kept_same {e : EffectRow} (he : e ∈ s.effects) : Kept s e :=
  ⟨e, he, Follows.refl e, Or.inl⟩

theorem grown_of_eq {ins : Option Insertion} (he : s'.effects = s.effects)
    (hp : s'.projection = s.projection) : Grown ins s s' where
  back _ he' := Or.inl (kept_same (he ▸ he'))
  mono p hp' := ⟨p, hp.trans hp', Nat.le_refl _⟩

/-- A step that rewrites the projection and rows of the outbox. -/
theorem grown_rows {ins : Option Insertion} {p p' : ProjectionRow} (hp : s.projection = some p)
    (hp' : s'.projection = some p') (hle : p.intentSequence ≤ p'.intentSequence)
    (hrows : ∀ e' ∈ s'.effects, Kept s e') : Grown ins s s' where
  back e' he' := Or.inl (hrows e' he')
  mono q hq := by
    rw [hp, Option.some.injEq] at hq
    subst hq
    exact ⟨p', hp', hle⟩

/-- A step that queues `row` behind rows of the outbox. -/
theorem grown_append {effects : List EffectRow} {row : EffectRow} {p' : ProjectionRow}
    (hfresh : s.freshEffect ins.id = true) (heff : s'.effects = effects ++ [row])
    (hrows : ∀ e' ∈ effects, Kept s e')
    (hid : row.id = ins.id) (hat : row.createdAt = ins.createdAt) (hst : row.state = .pending)
    (hp' : s'.projection = some p') (hint : row.intent = p'.intentSequence)
    (hlt : ∀ p, s.projection = some p → p.intentSequence < p'.intentSequence) :
    Grown (some ins) s s' where
  back e' he' := by
    rw [heff] at he'
    rcases List.mem_append.1 he' with he' | he'
    · exact Or.inl (hrows e' he')
    · rw [List.mem_singleton.1 he']
      exact Or.inr ⟨ins, rfl, hfresh, hid, hat, hst, p', hp', hint, hlt⟩
  mono p hp := ⟨p', hp', Nat.le_of_lt (hlt p hp)⟩


/-- Rewriting one row to a state that is not leased. -/
theorem kept_updateRow {f : EffectRow → EffectRow} {e : EffectRow} (hmem : e ∈ s.effects)
    (hids : (s.effects.map EffectRow.id).Nodup) (hf : Follows e (f e))
    (hleased : (f e).state ≠ .leased) {e' : EffectRow}
    (h : e' ∈ updateRow EffectRow.id e.id f s.effects) : Kept s e' := by
  rcases mem_rewritten hids hmem h with rfl | ⟨h, -⟩
  · exact ⟨e, hmem, hf, fun hl => absurd hl hleased⟩
  · exact kept_same h

theorem grown_reconciled {ctx : PassContext} {o : ObservationRow}
    (hfresh : s.freshEffect ins.id = true) (hr : Reconciled setup ctx o ins s s') :
    Grown (some ins) s s' := by
  cases hr with
  | absent hnone hop => exact grown_of_eq rfl rfl
  | shadowed p hp hb => exact grown_rows hp rfl (Nat.le_refl _) fun e' => kept_same
  | settled p hp hb hop =>
    refine grown_rows hp rfl ?_ fun e' => kept_same
    simp only [refresh, hop, if_true]
    exact Nat.le_refl _
  | queued p' operation hp' hop effects heff =>
    have hlt : ∀ p, s.projection = some p → p.intentSequence < p'.intentSequence := by
      intro p hp
      rcases hp' with ⟨hnone, -⟩ | ⟨q, hq, -, rfl⟩
      · rw [hnone] at hp
        cases hp
      · rw [hq, Option.some.injEq] at hp
        subst hp
        have hne : (evaluate setup ctx o (some q)).operation ≠ .none := by
          intro h
          rw [hq, h] at hop
          cases hop
        simp [refresh, hne]
    rcases heff with rfl | ⟨rfl, -⟩
    · exact grown_append hfresh rfl (fun e' => kept_same) rfl rfl rfl rfl rfl hlt
    · refine ⟨fun e' he' => Or.inl (kept_same he'), fun p hp => ?_⟩
      exact ⟨p', rfl, Nat.le_of_lt (hlt p hp)⟩

theorem grown_settled {lookup : Lookup} {input : SettleInput}
    (hfresh : s.freshEffect input.insertion.id = true) (hst : Settled setup input lookup s s') :
    Grown (some input.insertion) s s' := by
  cases hst with
  | unchanged => exact grown_of_eq rfl rfl
  | repaired p hp hun observed revision hshow desired hd notices =>
    refine grown_append hfresh rfl (fun e' => kept_same) rfl rfl rfl rfl rfl fun q hq => ?_
    rw [hp, Option.some.injEq] at hq
    subst hq
    exact Nat.lt_succ_self _
  | editHeld p hp hun observed revision hshow desired hd code hcode notices =>
    exact grown_rows hp rfl (Nat.le_refl _) fun e' => kept_same
  | mismatchHeld p hp hun event hobs hown =>
    exact grown_rows hp rfl (Nat.le_refl _) fun e' => kept_same

theorem grown_resolved {input : RecoveryInput}
    (hfresh : s.freshEffect input.insertion.id = true) (hr : Resolved setup input s s') :
    Grown (some input.insertion) s s' := by
  cases hr with
  | detached p hp hheld notices =>
    exact grown_rows hp rfl (Nat.le_refl _) fun e' => kept_same
  | restored p hp hheld operation hop hrev hbasis hevid notices =>
    refine grown_append hfresh rfl (fun e' => kept_same) rfl rfl rfl rfl rfl fun q hq => ?_
    rw [hp, Option.some.injEq] at hq
    subst hq
    exact Nat.lt_succ_self _

/-- Replaying or superseding the dead effect. -/
theorem kept_dead {f : EffectRow → EffectRow} {dead : EffectRow}
    (hids : (s.effects.map EffectRow.id).Nodup)
    (hdead : blockingDeadEffect s.effects = some dead) (hf : Follows dead (f dead))
    (hleased : (f dead).state ≠ .leased) :
    ∀ e' ∈ (s.mapEffect dead.id f).effects, Kept s e' :=
  fun _ => kept_updateRow (blockingDeadEffect_mem hdead).1 hids hf hleased

theorem grown_retried (hids : (s.effects.map EffectRow.id).Nodup) {input : RecoveryInput}
    (hfresh : s.freshEffect input.insertion.id = true) (hr : Retried setup input s s') :
    Grown (some input.insertion) s s' := by
  cases hr with
  | unchanged => exact grown_of_eq rfl rfl
  | replayed p hp dead hdead hreplay =>
    have hstate := (blockingDeadEffect_mem hdead).2
    refine grown_rows hp rfl (Nat.le_refl _)
      (kept_dead hids hdead ⟨rfl, rfl, rfl, ?_⟩ (by simp [replayEffect, closeEffect]))
    intro hs
    rw [hstate] at hs
    cases hs
  | gaveUp p hp dead hdead hreplay hno jobs =>
    exact grown_rows hp rfl (Nat.le_refl _)
      (kept_dead hids hdead ⟨rfl, rfl, rfl, fun _ => rfl⟩
        (by simp [supersedeDead, finishEffect, closeEffect]))
  | stale p hp hdead hheld jobs => exact grown_rows hp rfl (Nat.le_refl _) fun e' => kept_same
  | requeued p hp effects heff operation hop hrev hbasis hevid =>
    refine grown_append hfresh rfl ?_ rfl rfl rfl rfl rfl fun q hq => ?_
    · rcases heff with ⟨rfl, -⟩ | ⟨dead, hdead, rfl⟩
      · exact fun e' => kept_same
      · exact kept_dead hids hdead ⟨rfl, rfl, rfl, fun _ => rfl⟩
          (by simp [supersedeDead, finishEffect, closeEffect])
    · rw [hp, Option.some.injEq] at hq
      subst hq
      exact Nat.lt_succ_self _

/-- An execution ends the lease and keeps the place in the queue. -/
theorem follows_effectAfter (input : ExecuteInput) (outcome : Outcome) {e : EffectRow}
    (h : e.state = .leased) :
    Follows e (effectAfter input outcome e) ∧ (effectAfter input outcome e).state ≠ .leased := by
  have hs : ∀ e' : EffectRow, e.state = .succeeded → e'.state = .succeeded := by
    intro e' hs
    rw [h] at hs
    cases hs
  cases outcome with
  | failed error =>
    refine ⟨⟨rfl, rfl, rfl, hs _⟩, ?_⟩
    simp only [effectAfter, failEffect, closeEffect]
    split <;> decide
  | _ =>
    exact ⟨⟨rfl, rfl, rfl, hs _⟩, by simp [effectAfter, deferEffect, finishEffect, closeEffect]⟩

theorem grown_recorded (hids : (s.effects.map EffectRow.id).Nodup) {input : ExecuteInput}
    {e : EffectRow} {outcome : Outcome} {p : ProjectionRow} (hp : s.projection = some p)
    (hfresh : s.freshEffect input.replacement.id = true) (hl : IsLeased input s e)
    (hr : Recorded input e outcome s s') : Grown (some input.replacement) s s' := by
  obtain ⟨hf, hleased⟩ := follows_effectAfter input outcome hl.state
  have hrows : ∀ e' ∈ updateRow EffectRow.id e.id (effectAfter input outcome) s.effects,
      Kept s e' :=
    fun e' => kept_updateRow hl.mem hids hf hleased
  have hproj := hr.projection_some hp
  have heff := hr.effects
  rw [hp] at heff
  by_cases hrep : ∃ d, outcome = .replaced d
  · obtain ⟨d, rfl⟩ := hrep
    refine grown_append hfresh heff hrows rfl rfl rfl hproj rfl fun q hq => ?_
    rw [hp, Option.some.injEq] at hq
    subst hq
    exact Nat.lt_succ_self _
  · have hins : insertedAfter input e (some p) outcome = [] := by
      cases outcome with
      | replaced d => exact absurd ⟨d, rfl⟩ hrep
      | _ => rfl
    rw [hins, List.append_nil] at heff
    refine grown_rows hp hproj ?_ (heff ▸ hrows)
    cases outcome with
    | replaced d => exact absurd ⟨d, rfl⟩ hrep
    | succeeded remote =>
      simp only [projectionAfter, succeedProjection]
      split <;> exact Nat.le_refl _
    | _ => exact Nat.le_refl _

theorem Coherent.projection_of_mem (h : Coherent setup s) {e : EffectRow} (he : e ∈ s.effects) :
    ∃ p, s.projection = some p := by
  cases hp : s.projection with
  | none =>
    rw [h.orphans hp] at he
    cases he
  | some p => exact ⟨p, rfl⟩

theorem grown_executed (h : Coherent setup s) {input : ExecuteInput}
    (hfresh : s.freshEffect input.replacement.id = true) (hx : Executed setup input s s') :
    Grown (some input.replacement) s s' := by
  cases hx with
  | idle => exact grown_of_eq rfl rfl
  | stopped e he outcome hg s' hs' =>
    have hl := leasedEffect_isLeased he
    obtain ⟨p, hp⟩ := h.projection_of_mem hl.mem
    rcases hs' with rfl | hrec
    · exact grown_of_eq rfl rfl
    · exact grown_recorded h.ids hp hfresh hl (record_recorded hrec)
  | ran e he p hg session ended hrun s' hs' =>
    have hl := leasedEffect_isLeased he
    rcases hs' with rfl | hrec
    · exact grown_of_eq rfl rfl
    · have hg' : Grown (some input.replacement) { s with calendar := session.calendar } s' :=
        grown_recorded (s := { s with calendar := session.calendar }) h.ids
          (gate_ok hg).projection hfresh
          ⟨hl.mem, hl.id, hl.state, hl.owner, hl.alive⟩ (record_recorded hrec)
      exact ⟨fun e' he' => (hg'.back e' he').imp_right fun ⟨i, hi, hins⟩ =>
        ⟨i, hi, hins.fresh, hins.id, hins.createdAt, hins.state, hins.intent⟩, hg'.mono⟩

theorem kept_resumeEffect (now : Instant) :
    ∀ e' ∈ s.effects.map (resumeEffect setup now), Kept s e' := by
  intro e' he'
  obtain ⟨e, he, rfl⟩ := List.mem_map.1 he'
  refine ⟨e, he, ?_⟩
  unfold resumeEffect
  split
  · exact ⟨⟨rfl, rfl, rfl, fun h => h⟩, Or.inl⟩
  · exact ⟨Follows.refl e, Or.inl⟩

theorem grown_setPaused (paused : Bool) (now : Instant) :
    Grown none s (commit s (setPaused setup paused now s)) := by
  unfold setPaused
  split
  · exact grown_of_eq rfl rfl
  split
  · exact grown_of_eq rfl rfl
  split
  · exact grown_of_eq rfl rfl
  obtain ⟨jobs, hjobs⟩ := State.enqueue_eq
    { s with policyStatus := .active, effects := s.effects.map (resumeEffect setup now) } .revision
  simp only [commit, hjobs]
  exact ⟨fun e' he' => Or.inl (kept_resumeEffect now e' he'), fun p hp => ⟨p, hp, Nat.le_refl _⟩⟩

theorem grown_observe (target : VerificationTarget) (reply : Reply) :
    Grown none s (observe target reply s) := by
  unfold observe
  split
  · exact grown_of_eq rfl rfl
  · unfold noteAuth
    split <;> exact grown_of_eq rfl rfl

theorem reap_succeeded {now : Instant} {e : EffectRow} (h : (reap now e).state = .succeeded) :
    e.state = .succeeded := by
  unfold reap at h
  split at h
  · cases h
  · exact h

/-- What a lease takes is first: the order of creation is total. -/
theorem first_of_eligible {now : Instant} {e : EffectRow}
    (h : eligible now (s.effects.map (reap now)) (reap now e) = true) : First s e := by
  simp only [eligible, Bool.and_eq_true, List.all_eq_true] at h
  intro e' he' hs
  have hprior := h.2 (reap now e') (List.mem_map_of_mem he')
  rw [Bool.or_eq_true, decide_eq_true_eq, Bool.not_eq_true'] at hprior
  rw [(follows_reap now e').precedes (follows_reap now e)] at hprior
  rcases hprior with hsucc | hnot
  · exact absurd (reap_succeeded hsucc) hs
  · exact precedes_total (by simp [hnot])

theorem kept_lease (input : LeaseInput) : ∀ e' ∈ (lease input s).effects, Kept s e' := by
  intro e' he'
  obtain ⟨r, hr, rfl⟩ := List.mem_map.1 he'
  obtain ⟨e, he, rfl⟩ := List.mem_map.1 hr
  refine ⟨e, he, ?_⟩
  split
  · rename_i htake
    rw [Bool.and_eq_true] at htake
    refine ⟨?_, fun _ => Or.inr (first_of_eligible htake.2)⟩
    have hdue := htake.2
    simp only [eligible, Bool.and_eq_true, Bool.or_eq_true, decide_eq_true_eq] at hdue
    have hreap := follows_reap input.now e
    refine ⟨hreap.id, hreap.createdAt, hreap.intent, fun hs => ?_⟩
    rcases hdue.1.1 with h | h <;> rw [hreap.succeeded hs] at h <;> cases h
  · exact ⟨follows_reap input.now e, fun h => Or.inl (reap_leased h)⟩

/-- **A step, seen from the outbox.** -/
theorem grown_step (h : Coherent setup s) (event : Event) :
    Grown event.insertion? s (step setup s event) := by
  cases event with
  | lease input =>
    simp only [step, Event.insertion?]
    split
    · exact grown_of_eq rfl rfl
    · exact ⟨fun e' he' => Or.inl (kept_lease input e' he'), fun p hp => ⟨p, hp, Nat.le_refl _⟩⟩
  | reconcile ctx o ins =>
    simp only [step, Event.insertion?]
    split
    · rename_i hguard
      simp only [Bool.and_eq_true] at hguard
      exact grown_reconciled hguard.2 reconcileObservation_cases
    · exact grown_of_eq rfl rfl
  | execute input =>
    simp only [step, Event.insertion?]
    split
    · rename_i hfresh
      exact grown_executed h hfresh (executeOne_cases setup input s)
    · exact grown_of_eq rfl rfl
  | settle lookup input =>
    simp only [step, Event.insertion?]
    split
    · rename_i hguard
      simp only [Bool.and_eq_true] at hguard
      exact grown_settled hguard.1.2 settle_cases
    · exact grown_of_eq rfl rfl
  | resolve notice action input =>
    simp only [step, Event.insertion?]
    split
    · rename_i hfresh
      cases hr : resolve setup input notice action s with
      | error _ => exact grown_of_eq rfl rfl
      | ok s' => exact grown_resolved hfresh (resolve_cases hr)
    · exact grown_of_eq rfl rfl
  | retryBlocked input =>
    simp only [step, Event.insertion?]
    split
    · rename_i hfresh
      cases hr : retryBlocked setup input s with
      | error _ => exact grown_of_eq rfl rfl
      | ok s' => exact grown_retried h.ids hfresh (retryBlocked_cases hr)
    · exact grown_of_eq rfl rfl
  | setPaused paused now => exact grown_setPaused paused now
  | cleanup ids =>
    refine ⟨fun e' he' => Or.inl (kept_same (List.mem_filter.1 he').1), fun p hp => ?_⟩
    exact ⟨p, hp, Nat.le_refl _⟩
  | observe target reply =>
    simp only [step, Event.insertion?]
    split
    · exact grown_observe target reply
    · exact grown_of_eq rfl rfl
  | loadTarget =>
    simp only [step, Event.insertion?]
    split <;> exact grown_of_eq rfl rfl
  | readObservation =>
    simp only [step, Event.insertion?]
    split <;> exact grown_of_eq rfl rfl
  | _ => exact grown_of_eq rfl rfl

theorem Inserted.newer {e e' : EffectRow} (h : Inserted ins s s' e') (hc : Coherent setup s)
    (hq : Queue s) (he : e ∈ s.effects) : e.intent < e'.intent := by
  obtain ⟨p, hp⟩ := hc.projection_of_mem he
  obtain ⟨p', -, hintent, hlt⟩ := h.intent
  have hbound := hq.bound p hp e he
  have hnew := hlt p hp
  omega

/-- A step keeps the queue, if what it inserts comes last. -/
theorem Queue.grown {ins : Option Insertion} (hq : Queue s) (hc : Coherent setup s)
    (hg : Grown ins s s')
    (hlast : ∀ i, ins = some i → ∀ e' ∈ s'.effects, Inserted i s s' e' →
      ∀ e ∈ s.effects, e.state ≠ .succeeded → e.precedes e' = true) : Queue s' where
  bound p' hp' e' he' := by
    rcases hg.back e' he' with ⟨e, he, hf, -⟩ | ⟨i, -, hin⟩
    · obtain ⟨p, hp⟩ := hc.projection_of_mem he
      obtain ⟨q, hq', hle⟩ := hg.mono p hp
      rw [hq', Option.some.injEq] at hp'
      subst hp'
      rw [hf.intent]
      exact Nat.le_trans (hq.bound p hp e he) hle
    · obtain ⟨q, hq', hintent, -⟩ := hin.intent
      rw [hq', Option.some.injEq] at hp'
      subst hp'
      exact Nat.le_of_eq hintent
  distinct e₁' h₁ e₂' h₂ heq := by
    rcases hg.back e₁' h₁ with ⟨e₁, he₁, hf₁, -⟩ | ⟨i, hi, hin₁⟩
    · rcases hg.back e₂' h₂ with ⟨e₂, he₂, hf₂, -⟩ | ⟨j, -, hin₂⟩
      · rw [hf₁.intent, hf₂.intent] at heq
        rw [hf₁.id, hf₂.id]
        exact hq.distinct e₁ he₁ e₂ he₂ heq
      · have hlt := hin₂.newer hc hq he₁
        rw [← hf₁.intent] at hlt
        omega
    · rcases hg.back e₂' h₂ with ⟨e₂, he₂, hf₂, -⟩ | ⟨j, hj, hin₂⟩
      · have hlt := hin₁.newer hc hq he₂
        rw [← hf₂.intent] at hlt
        omega
      · rw [hi, Option.some.injEq] at hj
        subst hj
        rw [hin₁.id, hin₂.id]
  order e₁' h₁ e₂' h₂ hs₁ hs₂ hlt := by
    rcases hg.back e₁' h₁ with ⟨e₁, he₁, hf₁, -⟩ | ⟨i, hi, hin₁⟩
    · have hopen : e₁.state ≠ .succeeded := fun h => hs₁ (hf₁.succeeded h)
      rcases hg.back e₂' h₂ with ⟨e₂, he₂, hf₂, -⟩ | ⟨j, hj, hin₂⟩
      · rw [hf₁.intent, hf₂.intent] at hlt
        rw [hf₁.precedes hf₂]
        exact hq.order e₁ he₁ e₂ he₂ hopen (fun h => hs₂ (hf₂.succeeded h)) hlt
      · rw [hf₁.precedes (Follows.refl e₂')]
        exact hlast j hj e₂' h₂ hin₂ e₁ he₁ hopen
    · rcases hg.back e₂' h₂ with ⟨e₂, he₂, hf₂, -⟩ | ⟨j, hj, hin₂⟩
      · have hnewer := hin₁.newer hc hq he₂
        rw [← hf₂.intent] at hnewer
        omega
      · -- Both rows are the inserted one.
        obtain ⟨p₁, hp₁, hi₁, -⟩ := hin₁.intent
        obtain ⟨p₂, hp₂, hi₂, -⟩ := hin₂.intent
        rw [hp₁, Option.some.injEq] at hp₂
        rw [hi₁, hi₂, hp₂] at hlt
        exact absurd hlt (Nat.lt_irrefl _)
  first e₁' h₁ hl e₂' h₂ hs := by
    rcases hg.back e₁' h₁ with ⟨e₁, he₁, hf₁, hl₁⟩ | ⟨i, -, hin₁⟩
    · have hfirst : First s e₁ := (hl₁ hl).elim (hq.first e₁ he₁) id
      rcases hg.back e₂' h₂ with ⟨e₂, he₂, hf₂, -⟩ | ⟨j, hj, hin₂⟩
      · rw [hf₁.id, hf₂.id, hf₁.precedes hf₂]
        exact hfirst e₂ he₂ fun h => hs (hf₂.succeeded h)
      · refine Or.inr ?_
        rw [hf₁.precedes (Follows.refl e₂')]
        refine hlast j hj e₂' h₂ hin₂ e₁ he₁ fun h => ?_
        rw [hf₁.succeeded h] at hl
        cases hl
    · rw [hin₁.state] at hl
      cases hl

end Growth

/-! ## Executions in order -/

/-- The effect that an event executes. -/
def executed (s : State) : Event → Option EffectRow
  | .execute input => if s.freshEffect input.replacement.id then leasedEffect input s else none
  | _ => none

/-- The effects that a run executes, in order. -/
def executions (setup : Setup) : State → List Event → List EffectRow
  | _, [] => []
  | s, event :: events => (executed s event).toList ++ executions setup (step setup s event) events

def OneLeased (s : State) : Prop :=
  ∀ e ∈ s.effects, ∀ e' ∈ s.effects, e.state = .leased → e'.state = .leased → e = e'

/-- No earlier intent is unfinished or dead when an effect is executed. -/
def ExecutesFirst (s : State) (event : Event) : Prop :=
  ∀ e, executed s event = some e → ∀ e' ∈ s.effects, e'.intent < e.intent →
    e'.unfinished = false ∧ e'.dead = false

/-- `e'` is of a later intent than `e`, or the same effect once more. -/
def NotBefore (e e' : EffectRow) : Prop :=
  e.intent < e'.intent ∨ (e'.intent = e.intent ∧ e'.id = e.id)

section Executions

variable {setup : Setup} {s s' : State} {event : Event} {e : EffectRow}

theorem executed_leased (h : executed s event = some e) : e ∈ s.effects ∧ e.state = .leased := by
  cases event with
  | execute input =>
    simp only [executed] at h
    split at h
    · have hl := leasedEffect_isLeased h
      exact ⟨hl.mem, hl.state⟩
    · cases h
  | _ => cases h

theorem Queue.oneLeased (hq : Queue s) (hc : Coherent setup s) : OneLeased s := by
  intro e he e' he' hl hl'
  refine eq_of_id_eq hc.ids he he' ?_
  rcases hq.first e he hl e' he' (by simp [hl']) with hid | hlt
  · exact hid.symm
  · rcases hq.first e' he' hl' e he (by simp [hl]) with hid | hgt
    · exact hid
    · exact absurd hgt (precedes_asymm hlt)

/-- What has not succeeded beside a leased effect is of a later intent. -/
theorem Queue.notBefore (hq : Queue s) (hc : Coherent setup s) (he : e ∈ s.effects)
    (hl : e.state = .leased) :
    ∀ e' ∈ s.effects, e'.state ≠ .succeeded → NotBefore e e' := by
  intro e' he' hs
  have hopen : e.state ≠ .succeeded := by simp [hl]
  rcases Nat.lt_trichotomy e.intent e'.intent with hlt | heq | hgt
  · exact Or.inl hlt
  · exact Or.inr ⟨heq.symm, hq.distinct e' he' e he heq.symm⟩
  · have hprior := hq.order e' he' e he hs hopen hgt
    rcases hq.first e he hl e' he' hs with hid | hlater
    · rw [eq_of_id_eq hc.ids he' he hid] at hgt
      exact absurd hgt (Nat.lt_irrefl _)
    · exact absurd hlater (precedes_asymm hprior)

theorem Queue.executesFirst (hq : Queue s) (hc : Coherent setup s) (event : Event) :
    ExecutesFirst s event := by
  intro e hexec e' he' hlt
  obtain ⟨he, hl⟩ := executed_leased hexec
  have hs : e'.state = .succeeded := by
    by_contra hs
    rcases hq.notBefore hc he hl e' he' hs with hgt | ⟨heq, -⟩
    · exact Nat.lt_asymm hlt hgt
    · exact Nat.ne_of_lt hlt heq
  simp [EffectRow.unfinished, EffectRow.dead, hs]

/-- Whatever a row that came in its turn was inserted behind precedes it. -/
theorem precedes_of_inTurn (hturn : inTurn setup s event = true) {ins : Insertion}
    (hins : event.insertion? = some ins) {e' : EffectRow}
    (he' : e' ∈ (step setup s event).effects) (hnew : Inserted ins s (step setup s event) e') :
    ∀ e ∈ s.effects, e.state ≠ .succeeded → e.precedes e' = true := by
  intro e he hs
  have hqueues : queues setup s event ins = true := by
    rw [queues, hnew.fresh, Bool.true_and]
    exact List.any_eq_true.2 ⟨e', he', decide_eq_true hnew.id⟩
  simp only [inTurn, hins, Option.all_some, hqueues, Bool.not_true, Bool.false_or,
    List.all_eq_true] at hturn
  have hafter := hturn e he
  simp only [hs, decide_false, Bool.false_or, Insertion.after] at hafter
  rw [EffectRow.precedes, hnew.id, hnew.createdAt]
  exact hafter

theorem Queue.step (hq : Queue s) (hc : Coherent setup s) (hturn : inTurn setup s event = true) :
    Queue (step setup s event) :=
  hq.grown hc (grown_step hc event) fun _ hins _ he' hnew => precedes_of_inTurn hturn hins he' hnew

theorem queue_init (h : Initial setup s) : Queue s where
  bound p hp e he := by
    rw [h.effects] at he
    cases he
  distinct := by simp [h.effects]
  order := by simp [h.effects]
  first := by simp [h.effects]

/-- An effect has been executed, and what is left to do is not before it. -/
structure Behind (e : EffectRow) (s : State) : Prop where
  bound : ∃ p, s.projection = some p ∧ e.intent ≤ p.intentSequence
  left : ∀ e' ∈ s.effects, e'.state ≠ .succeeded → NotBefore e e'

theorem Queue.behind (hq : Queue s) (hc : Coherent setup s) (h : executed s event = some e) :
    Behind e s := by
  obtain ⟨he, hl⟩ := executed_leased h
  obtain ⟨p, hp⟩ := hc.projection_of_mem he
  exact ⟨⟨p, hp, hq.bound p hp e he⟩, hq.notBefore hc he hl⟩

theorem Behind.grown {ins : Option Insertion} (h : Behind e s) (hg : Grown ins s s') :
    Behind e s' := by
  obtain ⟨p, hp, hle⟩ := h.bound
  obtain ⟨p', hp', hmono⟩ := hg.mono p hp
  refine ⟨⟨p', hp', Nat.le_trans hle hmono⟩, fun e' he' hs => ?_⟩
  rcases hg.back e' he' with ⟨e₀, he₀, hf, -⟩ | ⟨i, -, hin⟩
  · have hleft := h.left e₀ he₀ fun hs₀ => hs (hf.succeeded hs₀)
    unfold NotBefore
    rw [hf.intent, hf.id]
    exact hleft
  · obtain ⟨q, -, hintent, hlt⟩ := hin.intent
    refine Or.inl ?_
    rw [hintent]
    exact Nat.lt_of_le_of_lt hle (hlt p hp)

/-- What a run executes after an effect is not before it. -/
theorem Behind.executions (h : Behind e s) (hc : Coherent setup s) (events : List Event) :
    ∀ e' ∈ executions setup s events, NotBefore e e' := by
  induction events generalizing s with
  | nil => exact fun _ he' => absurd he' List.not_mem_nil
  | cons event events ih =>
    intro e' he'
    rcases List.mem_append.1 he' with hnow | hlater
    · obtain ⟨hmem, hl⟩ := executed_leased (Option.mem_toList.1 hnow)
      exact h.left e' hmem (by simp [hl])
    · exact ih (h.grown (grown_step hc event)) (coherent_stepped hc (step_stepped setup s event)) e'
        hlater

theorem executions_pairwise (hq : Queue s) (hc : Coherent setup s) (events : List Event)
    (hturn : (system setup).Admits (fun s event => inTurn setup s event = true) s events) :
    (executions setup s events).Pairwise NotBefore := by
  induction events generalizing s with
  | nil => exact List.Pairwise.nil
  | cons event events ih =>
    have hc' : Coherent setup (step setup s event) :=
      coherent_stepped hc (step_stepped setup s event)
    have hrest := ih (hq.step hc hturn.1) hc' hturn.2
    cases hexec : executed s event with
    | none =>
      simp only [executions, hexec]
      exact hrest
    | some e =>
      simp only [executions, hexec]
      refine List.pairwise_cons.2 ⟨?_, hrest⟩
      exact ((hq.behind hc hexec).grown (grown_step hc event)).executions hc' events

/-- **The outbox is worked off in order.** In every run in which effects are queued in their turn,
at most one effect of the projection is leased at any time, no effect is executed while an earlier
intent is unfinished or dead, and the effects are executed in the order of their intents. -/
theorem outbox_in_order (hs : Initial setup s) (events : List Event)
    (hturn : (system setup).Admits (fun s event => inTurn setup s event = true) s events) :
    (system setup).Throughout OneLeased ExecutesFirst s events ∧
      (executions setup s events).Pairwise NotBefore := by
  refine ⟨?_, executions_pairwise (queue_init hs) (coherent_init hs) events hturn⟩
  refine hturn.throughout (I := fun s => Coherent setup s ∧ Queue s)
    ⟨coherent_init hs, queue_init hs⟩ ?_ ?_
  · rintro s ⟨hc, hq⟩
    exact hq.oneLeased hc
  · rintro s event ⟨hc, hq⟩ hok
    exact ⟨hq.executesFirst hc event, coherent_stepped hc (step_stepped setup s event),
      hq.step hc hok⟩

/-- A create that fails once, and the newer intent that waits for it. -/
def twoIntents : List Event :=
  passOver (plainEvent "meeting" 1) 1 ++
    [leaseBy "one" 0, executeBy "one" 1 [{ reply := .failed false }],
      .store (plainEvent "moved" 2 "r2")] ++
    passOver (plainEvent "moved" 2 "r2") 2 ++
    [leaseBy "two" 5000, executeBy "two" 1, leaseBy "one" 6000, executeBy "one" 2]

/-- The first intent is executed twice before the second. -/
theorem outbox_in_order_twoIntents :
    (executions plainSetup (startState (plainEvent "meeting" 1)) twoIntents).map
        EffectRow.intent = [1, 1, 2] ∧
      (system plainSetup).Throughout OneLeased ExecutesFirst (startState (plainEvent "meeting" 1))
        twoIntents ∧
      (executions plainSetup (startState (plainEvent "meeting" 1)) twoIntents).Pairwise
        NotBefore :=
  ⟨by decide +kernel, outbox_in_order initial_startState twoIntents (by decide +kernel)⟩

/-- Two passes have read the event. The transaction of the second begins first, at 0, and gets the
projection last, when the effect of the other is leased. -/
def overtakenPass : List Event :=
  [.beginPass, .readObservation,
    .reconcile plainContext (.ofEvent (plainEvent "meeting" 1)) ⟨1, 1⟩, leaseBy "one" 1,
    .reconcile plainContext (.ofEvent (plainEvent "meeting" 1)) ⟨2, 0⟩, leaseBy "two" 1]

/-- Both effects are leased, and the second intent is executed before the first has ended. -/
theorem outbox_out_of_order :
    Initial plainSetup (startState (plainEvent "meeting" 1)) ∧
      ¬OneLeased (runFrom plainSetup (startState (plainEvent "meeting" 1)) overtakenPass) ∧
      ¬ExecutesFirst (runFrom plainSetup (startState (plainEvent "meeting" 1)) overtakenPass)
        (executeBy "two" 2) ∧
      (executions plainSetup (startState (plainEvent "meeting" 1))
        (overtakenPass ++ [executeBy "two" 2, executeBy "one" 1])).map EffectRow.intent =
          [2, 1] := by
  refine ⟨initial_startState, ?_, ?_, by decide +kernel⟩
  · unfold OneLeased
    decide +kernel
  · intro h
    have hexec : ((executed (runFrom plainSetup (startState (plainEvent "meeting" 1)) overtakenPass)
        (executeBy "two" 2)).map EffectRow.intent) = some 2 := by
      decide +kernel
    obtain ⟨e, he, hintent⟩ := Option.map_eq_some_iff.1 hexec
    have hopen : ∃ e' ∈ (runFrom plainSetup (startState (plainEvent "meeting" 1))
        overtakenPass).effects, e'.intent < 2 ∧ e'.unfinished = true := by
      decide +kernel
    obtain ⟨e', he', hlt, hun⟩ := hopen
    have hdone := (h e he e' he' (hintent ▸ hlt)).1
    rw [hun] at hdone
    cases hdone

end Executions

end Planipus.Sync

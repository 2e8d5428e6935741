import Planipus.Library.Machine
import Planipus.Sync.Reconciliation
import Planipus.Sync.Recovery
import Planipus.Sync.Verification

/-!
# The sync service as a machine

Every operation of the server on one projection, of its users and of other clients of the
destination calendar is an event, and events come in any order. A transaction is one event; what
happens outside a transaction (reading the source event, loading a target, reading the destination)
is an event of its own. A reconcile pass may begin at any time, since a job is only a reason to
begin one.
-/

namespace Planipus.Sync

open CalendarSync Provider Library

inductive Event
  /-- `syncCalendar` stores a version of the source event. -/
  | store (event : SourceObservation)
  | beginPass
  | readObservation
  | reconcile (ctx : PassContext) (o : ObservationRow) (ins : Insertion)
  | lease (input : LeaseInput)
  | execute (input : ExecuteInput)
  /-- A worker dies before it has begun to execute. -/
  | crash (owner : Owner)
  | loadTarget
  | observe (target : VerificationTarget) (reply : Reply)
  | settle (lookup : Lookup) (input : SettleInput)
  | resolve (notice : NoticeId) (action : Resolution) (input : RecoveryInput)
  | acknowledge (notice : NoticeId)
  | retryBlocked (input : RecoveryInput)
  | setPaused (paused : Bool) (now : Instant)
  /-- Discovery, authorization and the user change what the connections allow. -/
  | setEndpoints (source destination : Endpoint)
  /-- Another client changes the destination calendar. -/
  | edit (edit : Calendar.DirectEdit)
  /-- The scheduler deletes old rows of succeeded effects. -/
  | cleanup (ids : List EffectId)

/-- A command that throws leaves the state as it was. -/
def commit (s : State) (outcome : Except PolicyInputError State) : State :=
  match outcome with
  | .ok s' => s'
  | .error _ => s

/-- A pass begins only for an active policy between two usable calendars. -/
def mayBeginPass (s : State) : Bool :=
  s.policyStatus = .active && s.source.usable .source && s.destination.usable .destination

def freshNotice (s : State) (id : NoticeId) : Bool := s.notices.all fun n => n.id ≠ id

def step (setup : Setup) (s : State) : Event → State
  | .store event => { s with observation := .ofEvent event }
  | .beginPass => { s with passOpen := s.passOpen || mayBeginPass s }
  | .readObservation =>
    if s.passOpen then { s with reads := s.observation :: s.reads } else s
  | .reconcile ctx o ins =>
    if s.passOpen && decide (o ∈ s.reads) && s.freshEffect ins.id then
      reconcileObservation setup ctx o ins s
    else s
  | .lease input => if input.owner ∈ s.crashed then s else lease input s
  | .execute input =>
    if s.freshEffect input.replacement.id then executeOne setup input s else s
  | .crash owner => { s with crashed := owner :: s.crashed }
  | .loadTarget =>
    match loadTarget s with
    | none => s
    | some target => { s with targets := target :: s.targets }
  | .observe target reply => if target ∈ s.targets then observe target reply s else s
  | .settle lookup input =>
    if decide (lookup ∈ s.lookups) && s.freshEffect input.insertion.id &&
        freshNotice s input.notice then
      settle setup input lookup s
    else s
  | .resolve notice action input =>
    if s.freshEffect input.insertion.id then commit s (resolve setup input notice action s) else s
  | .acknowledge notice => acknowledge notice s
  | .retryBlocked input =>
    if s.freshEffect input.insertion.id then commit s (retryBlocked setup input s) else s
  | .setPaused paused now => commit s (setPaused setup paused now s)
  | .setEndpoints source destination => { s with source, destination }
  | .edit edit => { s with calendar := s.calendar.apply edit }
  | .cleanup ids =>
    { s with effects := s.effects.filter fun e => !(e.state = .succeeded && decide (e.id ∈ ids)) }

/-- The write requests that an event sends. Only executions send any. -/
def issued (setup : Setup) (s : State) : Event → List ProviderCall
  | .execute input => if s.freshEffect input.replacement.id then issuedCalls setup input s else []
  | _ => []

/-- A calendar that has never seen the projection. -/
structure Unknowing (setup : Setup) (c : Calendar) : Prop where
  vacant : ∀ g, c.events (managedEventId setup.projectionId g) = none
  unused : ∀ g, managedEventId setup.projectionId g ∉ c.created
  unmarked : ∀ id ev, c.events id = some ev →
    ∀ identity, ev.body.managedIdentity = some identity →
      identity.projectionRef ≠ setup.projectionId

/-- A state before the first reconciliation. -/
structure Initial (setup : Setup) (s : State) : Prop where
  projection : s.projection = none
  effects : s.effects = []
  notices : s.notices = []
  reads : s.reads = []
  targets : s.targets = []
  lookups : s.lookups = []
  passOpen : s.passOpen = false
  calendar : Unknowing setup s.calendar

def system (setup : Setup) : Machine State Event where
  Init := Initial setup
  step := step setup

/-! ## Effects that are only touched -/

/-- Leasing, resuming and reaping change what has not ended and keep the rest of the row. The flag
of an effect is only ever set, and only when a lease has expired. -/
structure Touched (e e' : EffectRow) : Prop where
  id : e'.id = e.id
  createdAt : e'.createdAt = e.createdAt
  policyRevision : e'.policyRevision = e.policyRevision
  sourceBasisHash : e'.sourceBasisHash = e.sourceBasisHash
  operation : e'.operation = e.operation
  idempotencyKey : e'.idempotencyKey = e.idempotencyKey
  desiredState : e'.desiredState = e.desiredState
  unfinished : e'.unfinished = e.unfinished
  dead : e'.dead = e.dead
  flagged : e.ambiguous = true → e'.ambiguous = true
  flag : e'.ambiguous = true → e.ambiguous = true ∨ e.unfinished = true
  code : e.dead = true → e'.safeErrorCode = e.safeErrorCode
  /-- A lease is given up only with the flag set, and otherwise keeps its owner. -/
  leased : e.state = .leased →
    (e'.state = .leased ∧ e'.leaseOwner = e.leaseOwner) ∨ e'.ambiguous = true

theorem Touched.refl (e : EffectRow) : Touched e e where
  id := rfl
  createdAt := rfl
  policyRevision := rfl
  sourceBasisHash := rfl
  operation := rfl
  idempotencyKey := rfl
  desiredState := rfl
  unfinished := rfl
  dead := rfl
  flagged h := h
  flag h := Or.inl h
  code _ := rfl
  leased h := Or.inl ⟨h, rfl⟩

theorem touched_reap (now : Instant) (e : EffectRow) : Touched e (reap now e) := by
  unfold reap
  split
  · rename_i h
    exact
      { id := rfl, createdAt := rfl, policyRevision := rfl, sourceBasisHash := rfl,
        operation := rfl, idempotencyKey := rfl, desiredState := rfl,
        unfinished := by simp [EffectRow.unfinished, h.1]
        dead := by simp [EffectRow.dead, h.1]
        flagged := fun _ => rfl
        flag := fun _ => Or.inr (by simp [EffectRow.unfinished, h.1])
        code := fun hd => by simp [EffectRow.dead, h.1] at hd
        leased := fun _ => Or.inr rfl }
  · exact Touched.refl e

theorem touched_leaseRow {input : LeaseInput} {e : EffectRow}
    (h : e.state = .pending ∨ e.state = .retry) : Touched e (leaseRow input e) where
  id := rfl
  createdAt := rfl
  policyRevision := rfl
  sourceBasisHash := rfl
  operation := rfl
  idempotencyKey := rfl
  desiredState := rfl
  unfinished := by rcases h with h | h <;> simp [EffectRow.unfinished, leaseRow, h]
  dead := by rcases h with h | h <;> simp [EffectRow.dead, leaseRow, h]
  flagged h := h
  flag h := Or.inl h
  code hd := by rcases h with h | h <;> simp [EffectRow.dead, h] at hd
  leased hl := by rcases h with h | h <;> simp [h] at hl

theorem Touched.trans {e e' e'' : EffectRow} (h : Touched e e') (h' : Touched e' e'') :
    Touched e e'' where
  id := h'.id.trans h.id
  createdAt := h'.createdAt.trans h.createdAt
  policyRevision := h'.policyRevision.trans h.policyRevision
  sourceBasisHash := h'.sourceBasisHash.trans h.sourceBasisHash
  operation := h'.operation.trans h.operation
  idempotencyKey := h'.idempotencyKey.trans h.idempotencyKey
  desiredState := h'.desiredState.trans h.desiredState
  unfinished := h'.unfinished.trans h.unfinished
  dead := h'.dead.trans h.dead
  flagged hf := h'.flagged (h.flagged hf)
  flag hf := by
    rcases h'.flag hf with hf' | hu
    · exact h.flag hf'
    · exact Or.inr (h.unfinished ▸ hu)
  code hd := (h'.code (h.dead ▸ hd)).trans (h.code hd)
  leased hl := by
    rcases h.leased hl with ⟨hl', ho⟩ | hf
    · rcases h'.leased hl' with ⟨hl'', ho'⟩ | hf'
      · exact Or.inl ⟨hl'', ho'.trans ho⟩
      · exact Or.inr hf'
    · exact Or.inr (h'.flagged hf)

theorem touched_resumeEffect (setup : Setup) (now : Instant) (e : EffectRow) :
    Touched e (resumeEffect setup now e) := by
  unfold resumeEffect
  split
  · rename_i h
    exact
      { id := rfl, createdAt := rfl, policyRevision := rfl, sourceBasisHash := rfl,
        operation := rfl, idempotencyKey := rfl, desiredState := rfl, unfinished := rfl,
        dead := rfl, flagged := fun h => h, flag := fun h => Or.inl h,
        code := fun hd => by simp [EffectRow.dead, h.2.1] at hd
        leased := fun hl => by simp [h.2.1] at hl }
  · exact Touched.refl e

/-- Every row comes from a row that was touched, and only rows of succeeded effects are lost. -/
structure TouchedAll (effects effects' : List EffectRow) : Prop where
  back : ∀ e' ∈ effects', ∃ e ∈ effects, Touched e e'
  forth : ∀ e ∈ effects, e.state ≠ .succeeded → ∃ e' ∈ effects', Touched e e'
  ids : (effects.map EffectRow.id).Nodup → (effects'.map EffectRow.id).Nodup

theorem TouchedAll.map {effects : List EffectRow} {f : EffectRow → EffectRow}
    (h : ∀ e ∈ effects, Touched e (f e)) : TouchedAll effects (effects.map f) where
  back e' he' := by
    obtain ⟨e, he, rfl⟩ := List.mem_map.1 he'
    exact ⟨e, he, h e he⟩
  forth e he _ := ⟨f e, List.mem_map_of_mem he, h e he⟩
  ids hn := by
    have hid : (effects.map f).map EffectRow.id = effects.map EffectRow.id := by
      rw [List.map_map]
      exact List.map_congr_left fun e he => (h e he).id
    rwa [hid]

theorem touchedAll_lease (input : LeaseInput) (s : State) :
    TouchedAll s.effects (lease input s).effects := by
  unfold lease
  dsimp only
  rw [List.map_map]
  refine TouchedAll.map fun e _ => (touched_reap input.now e).trans ?_
  rw [Function.comp_apply]
  split
  · rename_i htake
    refine touched_leaseRow ?_
    simp only [Bool.and_eq_true, eligible, Bool.or_eq_true, decide_eq_true_eq] at htake
    exact htake.2.1.1
  · exact Touched.refl _

theorem touchedAll_filter (effects : List EffectRow) (drop : EffectRow → Bool)
    (h : ∀ e ∈ effects, drop e = true → e.state = .succeeded) :
    TouchedAll effects (effects.filter fun e => !drop e) where
  back e he := ⟨e, (List.mem_filter.1 he).1, Touched.refl e⟩
  forth e he hs := by
    refine ⟨e, List.mem_filter.2 ⟨he, ?_⟩, Touched.refl e⟩
    cases hd : drop e with
    | false => rfl
    | true => exact absurd (h e he hd) hs
  ids hn := hn.sublist (List.Sublist.map _ List.filter_sublist)

/-! ## What a step can do -/

/-- The outcomes of an execution. -/
inductive Executed (setup : Setup) (input : ExecuteInput) (s : State) : State → Prop
  | idle : Executed setup input s s
  | stopped (e : EffectRow) (he : leasedEffect input s = some e) (outcome : Outcome)
      (hg : gate setup s e = .error outcome) (s' : State)
      (hs' : s' = abandon input s ∨ record input e s outcome = some s') :
      Executed setup input s s'
  | ran (e : EffectRow) (he : leasedEffect input s = some e) (p : ProjectionRow)
      (hg : gate setup s e = .ok p) (session : Session) (ended : ProviderOutcome)
      (hrun : runProvider setup p e input.token ⟨s.calendar, input.script, []⟩ = (session, ended))
      (s' : State)
      (hs' : s' = abandon input { s with calendar := session.calendar } ∨
        record input e { s with calendar := session.calendar } (conclude setup s p e ended) =
          some s') :
      Executed setup input s s'

theorem executeOne_cases (setup : Setup) (input : ExecuteInput) (s : State) :
    Executed setup input s (executeOne setup input s) := by
  unfold executeOne
  cases he : leasedEffect input s with
  | none => exact .idle
  | some e =>
    have hlast : ∀ {s₁ : State} {outcome : Outcome},
        (if input.crash then abandon input s₁ else (record input e s₁ outcome).getD
          (abandon input s₁)) = abandon input s₁ ∨
        record input e s₁ outcome = some (if input.crash then abandon input s₁
          else (record input e s₁ outcome).getD (abandon input s₁)) := by
      intro s₁ outcome
      cases input.crash with
      | true => exact Or.inl rfl
      | false =>
        cases hr : record input e s₁ outcome with
        | none => exact Or.inl rfl
        | some s' => exact Or.inr rfl
    cases hg : gate setup s e with
    | error outcome =>
      simp only [executeSession, hg]
      exact .stopped e he outcome hg _ hlast
    | ok p =>
      simp only [executeSession, hg]
      exact .ran e he p hg _ _ rfl _ hlast

/-- The outcomes of an event, one constructor for each part of the state it may change. -/
inductive Stepped (setup : Setup) (s : State) : Event → State → Prop
  | rest (event : Event) (s' : State) (hp : s'.projection = s.projection)
      (he : s'.effects = s.effects) (hc : s'.calendar = s.calendar)
      (ht : s'.targets = s.targets) (hl : s'.lookups = s.lookups)
      (hcr : ∀ owner ∈ s.crashed, owner ∈ s'.crashed)
      (hst : s'.policyStatus = s.policyStatus)
      (hr : s'.reads = s.reads ∨ s.passOpen = true ∧ s'.reads = s.observation :: s.reads)
      (ho : s'.passOpen = true → s.passOpen = true ∨ s.policyStatus = .active) :
      Stepped setup s event s'
  | touched (event : Event) (effects : List EffectRow) (h : TouchedAll s.effects effects)
      (policyStatus : PolicyStatus) (hst : policyStatus = .deleted ↔ s.policyStatus = .deleted)
      (jobs : List JobKey) :
      Stepped setup s event { s with effects, policyStatus, jobs }
  | loaded (target : VerificationTarget) (h : loadTarget s = some target) :
      Stepped setup s .loadTarget { s with targets := target :: s.targets }
  | observed (target : VerificationTarget) (h : target ∈ s.targets) (reply : Reply) :
      Stepped setup s (.observe target reply)
        { s with lookups := ⟨target, s.calendar.events target.destinationEventId⟩ :: s.lookups }
  | edited (edit : Calendar.DirectEdit) :
      Stepped setup s (.edit edit) { s with calendar := s.calendar.apply edit }
  | reconciled (ctx : PassContext) (o : ObservationRow) (ins : Insertion) (ho : o ∈ s.reads)
      (hpass : s.passOpen = true) (hfresh : s.freshEffect ins.id = true) (s' : State)
      (h : Reconciled setup ctx o ins s s') : Stepped setup s (.reconcile ctx o ins) s'
  | executed (input : ExecuteInput) (hfresh : s.freshEffect input.replacement.id = true)
      (s' : State) (h : Executed setup input s s') : Stepped setup s (.execute input) s'
  | settled (lookup : Lookup) (input : SettleInput) (hl : lookup ∈ s.lookups)
      (hfresh : s.freshEffect input.insertion.id = true) (s' : State)
      (h : Settled setup input lookup s s') : Stepped setup s (.settle lookup input) s'
  | resolved (notice : NoticeId) (action : Resolution) (input : RecoveryInput)
      (hfresh : s.freshEffect input.insertion.id = true) (s' : State)
      (h : Resolved setup input s s') : Stepped setup s (.resolve notice action input) s'
  | retried (input : RecoveryInput) (hfresh : s.freshEffect input.insertion.id = true)
      (s' : State) (h : Retried setup input s s') : Stepped setup s (.retryBlocked input) s'

theorem Stepped.idle (setup : Setup) (s : State) (event : Event) : Stepped setup s event s :=
  .rest event s rfl rfl rfl rfl rfl (fun _ h => h) rfl (Or.inl rfl) Or.inl

theorem setPaused_stepped (setup : Setup) (s : State) (paused : Bool) (now : Instant) :
    Stepped setup s (.setPaused paused now) (commit s (setPaused setup paused now s)) := by
  unfold setPaused
  split
  · exact .idle setup s _
  rename_i hdel
  split
  · refine .touched _ s.effects ⟨fun e he => ⟨e, he, Touched.refl e⟩,
      fun e he _ => ⟨e, he, Touched.refl e⟩, fun h => h⟩ .paused ?_ s.jobs
    simp [hdel]
  split
  · exact .idle setup s _
  obtain ⟨jobs, hjobs⟩ := State.enqueue_eq
    { s with policyStatus := .active, effects := s.effects.map (resumeEffect setup now) } .revision
  simp only [commit, hjobs]
  exact .touched _ _ (TouchedAll.map fun e _ => touched_resumeEffect setup now e) .active
    (by simp [hdel]) jobs

theorem noteAuth_stepped (setup : Setup) (s : State) (event : Event) (error : ProviderError) :
    Stepped setup s event (noteAuth error s) := by
  unfold noteAuth
  split
  · exact .rest event _ rfl rfl rfl rfl rfl (fun _ h => h) rfl (Or.inl rfl) Or.inl
  · exact .idle setup s event

theorem observe_stepped (setup : Setup) (s : State) (target : VerificationTarget) (reply : Reply)
    (h : target ∈ s.targets) : Stepped setup s (.observe target reply) (observe target reply s) := by
  unfold observe
  rcases Session.getEvent_cases ⟨s.calendar, [{ reply }], []⟩ target.destinationEventId with
    hok | ⟨error, herror, -⟩
  · rw [hok]
    exact .observed target h reply
  · rw [herror]
    exact noteAuth_stepped setup s _ error

/-- **A step, described.** Every invariant of the machine is shown on these cases. -/
theorem step_stepped (setup : Setup) (s : State) (event : Event) :
    Stepped setup s event (step setup s event) := by
  cases event with
  | store event => exact .rest _ _ rfl rfl rfl rfl rfl (fun _ h => h) rfl (Or.inl rfl) Or.inl
  | beginPass =>
    refine .rest _ _ rfl rfl rfl rfl rfl (fun _ h => h) rfl (Or.inl rfl) fun h => ?_
    simp only [step, Bool.or_eq_true, mayBeginPass, Bool.and_eq_true, decide_eq_true_eq] at h
    exact h.imp_right fun h => h.1.1
  | readObservation =>
    simp only [step]
    split
    · rename_i hpass
      exact .rest _ _ rfl rfl rfl rfl rfl (fun _ h => h) rfl (Or.inr ⟨hpass, rfl⟩) Or.inl
    · exact .idle setup s _
  | reconcile ctx o ins =>
    simp only [step]
    split
    · rename_i h
      simp only [Bool.and_eq_true, decide_eq_true_eq] at h
      exact .reconciled ctx o ins h.1.2 h.1.1 h.2 _ reconcileObservation_cases
    · exact .idle setup s _
  | lease input =>
    simp only [step]
    split
    · exact .idle setup s _
    · exact .touched _ _ (touchedAll_lease input s) s.policyStatus Iff.rfl s.jobs
  | execute input =>
    simp only [step]
    split
    · rename_i h
      exact .executed input h _ (executeOne_cases setup input s)
    · exact .idle setup s _
  | crash owner =>
    exact .rest _ _ rfl rfl rfl rfl rfl (fun _ h => List.mem_cons_of_mem _ h) rfl (Or.inl rfl)
      Or.inl
  | loadTarget =>
    simp only [step]
    split
    · exact .idle setup s _
    · rename_i target h
      exact .loaded target h
  | observe target reply =>
    simp only [step]
    split
    · rename_i h
      exact observe_stepped setup s target reply h
    · exact .idle setup s _
  | settle lookup input =>
    simp only [step]
    split
    · rename_i h
      simp only [Bool.and_eq_true, decide_eq_true_eq] at h
      exact .settled lookup input h.1.1 h.1.2 _ settle_cases
    · exact .idle setup s _
  | resolve notice action input =>
    simp only [step]
    split
    · rename_i hfresh
      cases h : resolve setup input notice action s with
      | error _ => exact .idle setup s _
      | ok s' => exact .resolved notice action input hfresh s' (resolve_cases h)
    · exact .idle setup s _
  | acknowledge notice =>
    exact .rest _ _ rfl rfl rfl rfl rfl (fun _ h => h) rfl (Or.inl rfl) Or.inl
  | retryBlocked input =>
    simp only [step]
    split
    · rename_i hfresh
      cases h : retryBlocked setup input s with
      | error _ => exact .idle setup s _
      | ok s' => exact .retried input hfresh s' (retryBlocked_cases h)
    · exact .idle setup s _
  | setPaused paused now => exact setPaused_stepped setup s paused now
  | setEndpoints source destination =>
    exact .rest _ _ rfl rfl rfl rfl rfl (fun _ h => h) rfl (Or.inl rfl) Or.inl
  | edit edit => exact .edited edit
  | cleanup ids =>
    exact .touched _ _ (touchedAll_filter s.effects _ fun e _ h => by simp at h; exact h.1)
      s.policyStatus Iff.rfl s.jobs

end Planipus.Sync

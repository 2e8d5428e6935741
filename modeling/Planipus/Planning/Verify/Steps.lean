import Planipus.Planning.Coordinator

/-!
# What a step of planning can do

`Effect` lists what an event can make of the state, with everything the code has checked on the way;
`step_effect` says that the list is complete. `RowChange` is the same for one planned event, and
`Effect.rows` brings the two together: the rows of the new state are the old ones, each changed as
`RowChange` allows, and rows for new occurrences. Every statement about runs is a case analysis over
the two.
-/

namespace Planipus.Planning

open CalendarSync Sync Library

section Steps

variable {zones : String → Option Zone} {emailText : String → String} {s s' : State} {e : Event}

theorem commit_ok (h : s.commit = .ok s') : s.Constraints ∧ s' = s := by
  unfold State.commit at h
  split at h
  · rename_i hs
    cases h
    exact ⟨hs, rfl⟩
  · cases h

/-- The input of a plan and its snapshot are about the same reading. -/
theorem prepare_ok {read : Tables} {draft : PlanningDraft} {now : Instant}
    {excludeRuleId : Option String} {prepared : Prepared}
    (h : prepare zones read draft now excludeRuleId = .ok prepared) :
    ∃ target calendars busy known,
      prepared.input = ⟨draft, now, busy, known⟩ ∧
      prepared.snapshotHash =
        sha256Canonical (planningSnapshotDocument target calendars known busy) := by
  unfold prepare at h
  split at h
  · cases h
  · rename_i target _
    split at h
    · cases h
    · simp only at h
      split at h
      · cases h
      · cases hobserved : (read.observations.filter fun row =>
            row.calendarEndpointId ∈ knownCalendars read draft.requestedCalendars now &&
              !row.observation.tombstone).mapM (observedBusy zones excludeRuleId) with
        | error e =>
          rw [hobserved] at h
          cases h
        | ok observed =>
          rw [hobserved] at h
          cases h
          exact ⟨target, _, _, _, rfl, rfl⟩

/-- A draft goes on in a later cycle, and is otherwise the draft of its rule. -/
theorem rollingDraft_same {draft draft' : PlanningDraft} {now : Instant}
    (h : rollingDraft zones draft now = some draft') :
    draft'.kind = draft.kind ∧ conflictPolicy? draft' = conflictPolicy? draft ∧
      lockBeforeMinutes draft' = lockBeforeMinutes draft := by
  cases draft with
  | availabilityBoundary draft =>
    cases h
    exact ⟨rfl, rfl, rfl⟩
  | smartMeeting meeting =>
    unfold rollingDraft at h
    cases hz : zones meeting.timezone with
    | none => simp [hz] at h
    | some z =>
      simp only [hz, Option.bind_eq_bind, Option.bind_some] at h
      split at h
      · split at h
        · cases h
          exact ⟨rfl, rfl, rfl⟩
        · obtain ⟨startDate, -, heq⟩ := Option.bind_eq_some_iff.1 h
          cases heq
          exact ⟨rfl, rfl, rfl⟩
      · cases h
        exact ⟨rfl, rfl, rfl⟩

theorem planForReconcile_ok {read : Tables} {draft draft' : PlanningDraft} {now : Instant}
    {ruleId : String} {result : PlanningResult}
    (h : planForReconcile zones read draft now ruleId = .ok (draft', result)) :
    rollingDraft zones draft now = some draft' ∧
      ∃ input, input.draft = draft' ∧ planScheduling zones input = some result := by
  unfold planForReconcile prepareForReconcile at h
  cases hroll : rollingDraft zones draft now with
  | none =>
    rw [hroll] at h
    cases h
  | some rolled =>
    rw [hroll] at h
    simp only [bind, Except.bind] at h
    cases hprepared : prepare zones read rolled now (some ruleId) with
    | error failure =>
      rw [hprepared] at h
      cases h
    | ok prepared =>
      rw [hprepared] at h
      simp only at h
      obtain ⟨target, calendars, busy, known, hinput, -⟩ := prepare_ok hprepared
      split at h
      · cases h
      · rename_i hplan
        cases h
        refine ⟨?_, prepared.input, rfl, hplan⟩
        rw [hinput]

theorem planForReconcile_draft {read : Tables} {draft draft' : PlanningDraft} {now : Instant}
    {ruleId : String} {result : PlanningResult}
    (h : planForReconcile zones read draft now ruleId = .ok (draft', result)) :
    draft'.kind = draft.kind ∧ conflictPolicy? draft' = conflictPolicy? draft ∧
      lockBeforeMinutes draft' = lockBeforeMinutes draft :=
  rollingDraft_same (planForReconcile_ok h).1

/-- The occurrences of an availability boundary are events. -/
theorem planForReconcile_boundary {read : Tables} {draft draft' : PlanningDraft} {now : Instant}
    {ruleId : String} {result : PlanningResult}
    (h : planForReconcile zones read draft now ruleId = .ok (draft', result))
    (hkind : draft'.kind ≠ .smartMeeting) :
    ∀ occurrence ∈ result.occurrences, occurrence.event.isSome := by
  obtain ⟨-, input, rfl, hplan⟩ := planForReconcile_ok h
  unfold planScheduling at hplan
  split at hplan
  · simp only [planAvailabilityBoundary, Option.bind_eq_bind, Option.bind_eq_some_iff,
      Option.pure_def, Option.some.injEq] at hplan
    obtain ⟨z, -, finish, -, rfl⟩ := hplan
    intro occurrence hmem
    obtain ⟨interval, -, rfl⟩ := List.mem_map.1 hmem
    rfl
  · rename_i meeting hdraft
    rw [hdraft] at hkind
    exact absurd rfl hkind

/-- What an activation has checked. -/
structure Activates (zones : String → Option Zone) (emailText : String → String) (s : State)
    (principalId previewId : String) (read : Tables) (preview : PlanningPreview)
    (result : PlanningResult) : Prop where
  mem : preview ∈ s.previews
  principal : preview.principalId = principalId
  id : preview.id = previewId
  fresh : preview.consumedAt = none ∧ s.clock < preview.expiresAt
  plan : ∃ prepared,
    prepare zones read (parsePlanningDraft emailText preview.draft) preview.planningReferenceAt
      none = .ok prepared ∧
    prepared.snapshotHash = preview.inputSnapshotHash ∧
    planScheduling zones prepared.input = some result

theorem activate_ok {principalId previewId : String} {read : Tables} {newId : Nat → String}
    (h : activate zones emailText s principalId previewId read newId = .ok s') :
    ∃ preview result, Activates zones emailText s principalId previewId read preview result ∧
      s'.Constraints ∧
      s' = s.activated previewId (parsePlanningDraft emailText preview.draft) result newId := by
  unfold activate at h
  split at h
  · cases h
  · rename_i preview hfind
    have hfound := List.find?_some hfind
    simp only [Bool.and_eq_true, decide_eq_true_eq] at hfound
    split at h
    · cases h
    · rename_i hfresh
      rw [not_or, Bool.not_eq_true, Option.isSome_eq_false_iff, Option.isNone_iff_eq_none,
        not_le] at hfresh
      simp only at h
      cases hprepared : prepare zones read (parsePlanningDraft emailText preview.draft)
          preview.planningReferenceAt none with
      | error failure =>
        rw [hprepared] at h
        cases h
      | ok prepared =>
        rw [hprepared] at h
        simp only [bind, Except.bind] at h
        split at h
        · cases h
        · rename_i hhash
          split at h
          · cases h
          · rename_i result hplan
            split at h
            · cases h
            · obtain ⟨hc, rfl⟩ := commit_ok h
              refine ⟨preview, result, ?_, hc, rfl⟩
              exact ⟨List.mem_of_find?_eq_some hfind, hfound.1, hfound.2, hfresh,
                prepared, hprepared, not_not.1 hhash, hplan⟩

/-- What a preview stores. -/
structure Previews (zones : String → Option Zone) (s : State) (principalId newId : String)
    (draft : PlanningDraft) (read : Tables) (preview : PlanningPreview) : Prop where
  id : preview.id = newId
  plan : ∃ prepared,
    prepare zones read preview.draft preview.planningReferenceAt none = .ok prepared ∧
    prepared.snapshotHash = preview.inputSnapshotHash ∧
    planScheduling zones prepared.input = some preview.result

theorem preview_ok {principalId newId : String} {draft : PlanningDraft} {read : Tables}
    (h : preview zones s principalId newId draft read = .ok s') :
    ∃ row, Previews zones s principalId newId draft read row ∧
      s' = { s with previews := s.previews ++ [row] } ∧ s'.Constraints := by
  unfold preview at h
  cases hprepared : prepare zones read draft s.clock none with
  | error failure =>
    rw [hprepared] at h
    cases h
  | ok prepared =>
    rw [hprepared] at h
    simp only [bind, Except.bind] at h
    split at h
    · cases h
    · rename_i result hplan
      obtain ⟨hc, rfl⟩ := commit_ok h
      exact ⟨_, ⟨rfl, prepared, hprepared, rfl, hplan⟩, rfl, hc⟩

theorem reconcile_ok {ruleId : String} {read : Tables} {newId : String → String}
    (h : reconcile zones s ruleId read newId = .ok s') :
    s' = s ∨ ∃ rule draft result, s.rules.find? (·.id = ruleId) = some rule ∧
      rule.status = .active ∧
      planForReconcile zones read rule.draft s.clock ruleId = .ok (draft, result) ∧
      s'.Constraints ∧ s' = s.reconciled rule draft result newId := by
  unfold reconcile at h
  split at h
  · cases h
    exact Or.inl rfl
  · rename_i rule hrule
    split at h
    · cases h
      exact Or.inl rfl
    · rename_i hactive
      cases hplan : planForReconcile zones read rule.draft s.clock ruleId with
      | error failure =>
        rw [hplan] at h
        cases h
      | ok plan =>
        rw [hplan] at h
        obtain ⟨hc, rfl⟩ := commit_ok h
        exact Or.inr ⟨rule, plan.1, plan.2, hrule, not_not.1 hactive, hplan, hc, rfl⟩

/-- What an acceptance has checked. -/
structure Accepts (zones : String → Option Zone) (s : State) (suggestionId : String)
    (read : Tables) (suggestion : Suggestion) (rule : PlanningRule) (row : PlannedEvent) : Prop where
  findSuggestion : s.suggestions.find? (·.id = suggestionId) = some suggestion
  findRule : s.rules.find? (·.id = suggestion.ruleId) = some rule
  findRow : s.plannedEvents.find? (·.id = suggestion.plannedEventId) = some row
  active : rule.status = .active
  pending : suggestion.status = .pending
  basis : sha256Canonical (⟨row.desiredHash, suggestion.proposedState.map sha256Canonical,
    rule.revision⟩ : SuggestionBasis) = suggestion.basisHash
  unlocked : insideNoMoveWindow row.desiredState s.clock (lockBeforeMinutes rule.draft) = false
  latest : ∃ plan, planForReconcile zones read rule.draft s.clock rule.id = .ok plan ∧
    latestProposal plan.2 rule row = suggestion.proposedState

theorem map_sha256Canonical_inj {α : Type} {a b : Option α} :
    a.map sha256Canonical = b.map sha256Canonical ↔ a = b := by
  cases a <;> cases b <;> simp

theorem resolveSuggestion_ok {suggestionId : String} {decision : SuggestionDecision} {read : Tables}
    (h : resolveSuggestion zones s suggestionId decision read = .ok s') :
    (decision = .dismiss ∧ ∃ suggestions, s' = { s with suggestions } ∧
      suggestions = updateRow (·.id) suggestionId (fun other => { other with status := .dismissed })
        s.suggestions) ∨
    (decision = .accept ∧ ∃ suggestion rule row,
      Accepts zones s suggestionId read suggestion rule row ∧ s'.Constraints ∧
      s' = s.accepted suggestion) := by
  unfold resolveSuggestion at h
  cases hsuggestion : s.suggestions.find? (·.id = suggestionId) with
  | none =>
    rw [hsuggestion] at h
    cases h
  | some suggestion =>
    rw [hsuggestion] at h
    simp only at h
    have hid : suggestion.id = suggestionId := (find?_key hsuggestion).2
    split at h
    · rename_i rule row hrule hrow
      split at h
      · cases h
      · rename_i hpending
        split at h
        · cases h
        · rename_i hlive
          rw [not_or, not_not] at hlive
          split at h
          · cases h
            exact Or.inl ⟨rfl, _, rfl, by rw [hid]⟩
          · unfold acceptSuggestion at h
            simp only at h
            split at h
            · cases h
            · rename_i hbasis
              split at h
              · cases h
              · rename_i hlock
                cases hplan : planForReconcile zones read rule.draft s.clock rule.id with
                | error failure =>
                  rw [hplan] at h
                  cases h
                | ok plan =>
                  rw [hplan] at h
                  simp only [bind, Except.bind] at h
                  split at h
                  · cases h
                  · rename_i hlatest
                    obtain ⟨hc, rfl⟩ := commit_ok h
                    refine Or.inr ⟨rfl, suggestion, rule, row, ?_, hc, rfl⟩
                    exact ⟨hsuggestion, hrule, hrow, hlive.2, not_not.1 hpending,
                      not_not.1 hbasis, by simpa using hlock, plan, hplan,
                      map_sha256Canonical_inj.1 (not_not.1 hlatest)⟩
    · cases h

theorem setPaused_ok {ruleId : String} {paused : Bool} (h : setPaused s ruleId paused = .ok s') :
    ∃ rule ∈ s.rules, rule.id = ruleId ∧ (rule.status = .active ∨ rule.status = .paused) ∧
      s' = s.updateRule ruleId fun rule =>
        { rule with status := if paused then .paused else .active } := by
  unfold setPaused at h
  split at h
  · cases h
  · rename_i rule hfind
    have hfound := List.find?_some hfind
    simp only [Bool.and_eq_true, Bool.or_eq_true, decide_eq_true_eq] at hfound
    cases h
    exact ⟨rule, List.mem_of_find?_eq_some hfind, hfound.1, hfound.2, rfl⟩

theorem remove_ok {ruleId : String} (h : remove s ruleId = .ok s') :
    s'.Constraints ∧ s' = s.removed ruleId := by
  unfold remove at h
  split at h
  · cases h
  · obtain ⟨hc, rfl⟩ := commit_ok h
    exact ⟨hc, rfl⟩

/-- What an application has checked before it talks to the provider. -/
structure Applies (s : State) (plannedEventId : String) (expectedIntent : Nat) (rule : PlanningRule)
    (target : PlannedEvent) : Prop where
  findRow : s.plannedEvents.find? (·.id = plannedEventId) = some target
  findRule : s.rules.find? (·.id = target.ruleId) = some rule
  active : rule.status = .active ∨ target.status = .pendingDelete
  intent : target.intentSequence = expectedIntent
  pending : target.status.pending = true

theorem apply_cases (s : State) (plannedEventId : String) (expectedIntent : Nat)
    (c : Conversation) :
    apply s plannedEventId expectedIntent c = s ∨
      ∃ target rule applied, Applies s plannedEventId expectedIntent rule target ∧
        converse s rule target c = some applied ∧
        apply s plannedEventId expectedIntent c = s.applied rule target applied c.committed := by
  unfold apply
  cases hrow : s.plannedEvents.find? (·.id = plannedEventId) with
  | none => exact Or.inl rfl
  | some target =>
    simp only
    cases hrule : s.rules.find? (·.id = target.ruleId) with
    | none => exact Or.inl rfl
    | some rule =>
      simp only
      split
      · exact Or.inl rfl
      · rename_i hactive
        split
        · exact Or.inl rfl
        · rename_i hintent
          cases hconverse : converse s rule target c with
          | none => exact Or.inl rfl
          | some applied =>
            refine Or.inr ⟨target, rule, applied, ?_, hconverse, rfl⟩
            rw [not_and_or, not_not, not_not] at hactive
            rw [not_or, not_not, Bool.not_eq_true, Bool.not_eq_false'] at hintent
            exact ⟨hrow, hrule, hactive, hintent.1, hintent.2⟩

/-! ## Effects -/

/-- What an event can make of the state. -/
inductive Effect (zones : String → Option Zone) (emailText : String → String) (s : State) :
    Event → State → Prop
  | idle {e : Event} : Effect zones emailText s e s
  | tick {elapsed : Nat} :
    Effect zones emailText s (.tick elapsed) { s with clock := s.clock + elapsed }
  | previewed {principalId newId : String} {draft : PlanningDraft} {read : Tables}
      {preview : PlanningPreview} (h : Previews zones s principalId newId draft read preview)
      (hc : State.Constraints { s with previews := s.previews ++ [preview] }) :
    Effect zones emailText s (.preview principalId newId draft read)
      { s with previews := s.previews ++ [preview] }
  | activated {principalId previewId : String} {read : Tables} {newId : Nat → String}
      {preview : PlanningPreview} {result : PlanningResult}
      (h : Activates zones emailText s principalId previewId read preview result)
      (hc : (s.activated previewId (parsePlanningDraft emailText preview.draft) result
        newId).Constraints) :
    Effect zones emailText s (.activate principalId previewId read newId)
      (s.activated previewId (parsePlanningDraft emailText preview.draft) result newId)
  | reconciled {ruleId : String} {read : Tables} {newId : String → String} {rule : PlanningRule}
      {draft : PlanningDraft} {result : PlanningResult}
      (hrule : s.rules.find? (·.id = ruleId) = some rule) (hactive : rule.status = .active)
      (hplan : planForReconcile zones read rule.draft s.clock ruleId = .ok (draft, result))
      (hc : (s.reconciled rule draft result newId).Constraints) :
    Effect zones emailText s (.reconcile ruleId read newId) (s.reconciled rule draft result newId)
  | applied {plannedEventId : String} {expectedIntent : Nat} {c : Conversation}
      {target : PlannedEvent} {rule : PlanningRule} {applied : Applied}
      (h : Applies s plannedEventId expectedIntent rule target)
      (hconverse : converse s rule target c = some applied) :
    Effect zones emailText s (.apply plannedEventId expectedIntent c)
      (s.applied rule target applied c.committed)
  | accepted {suggestionId : String} {read : Tables} {suggestion : Suggestion}
      {rule : PlanningRule} {row : PlannedEvent}
      (h : Accepts zones s suggestionId read suggestion rule row)
      (hc : (s.accepted suggestion).Constraints) :
    Effect zones emailText s (.resolveSuggestion suggestionId .accept read) (s.accepted suggestion)
  | dismissed {suggestionId : String} {read : Tables} :
    Effect zones emailText s (.resolveSuggestion suggestionId .dismiss read)
      { s with
        suggestions := updateRow (·.id) suggestionId
          (fun other => { other with status := .dismissed }) s.suggestions }
  | expired : Effect zones emailText s .expireSuggestions (expireSuggestions s)
  | paused {ruleId : String} {paused : Bool}
      (h : ∃ rule ∈ s.rules, rule.id = ruleId ∧ (rule.status = .active ∨ rule.status = .paused)) :
    Effect zones emailText s (.setPaused ruleId paused) (s.updateRule ruleId fun rule =>
      { rule with status := if paused then .paused else .active })
  | removed {ruleId : String} (hc : (s.removed ruleId).Constraints) :
    Effect zones emailText s (.remove ruleId) (s.removed ruleId)

theorem orKeep_effect {outcome : Except Failure State}
    (h : ∀ s', outcome = .ok s' → Effect zones emailText s e s') :
    Effect zones emailText s e (s.orKeep outcome) := by
  cases outcome with
  | error failure => exact .idle
  | ok s' => exact h s' rfl

theorem step_effect (zones : String → Option Zone) (emailText : String → String) (s : State)
    (e : Event) : Effect zones emailText s e (step zones emailText s e) := by
  cases e with
  | tick elapsed => exact .tick
  | preview principalId newId draft read =>
    refine orKeep_effect fun s' h => ?_
    obtain ⟨row, hrow, rfl, hc⟩ := preview_ok h
    exact .previewed hrow hc
  | activate principalId previewId read newId =>
    refine orKeep_effect fun s' h => ?_
    obtain ⟨preview, result, hpreview, hc, rfl⟩ := activate_ok h
    exact .activated hpreview hc
  | reconcile ruleId read newId =>
    refine orKeep_effect fun s' h => ?_
    rcases reconcile_ok h with rfl | ⟨rule, draft, result, hrule, hactive, hplan, hc, rfl⟩
    · exact .idle
    · exact .reconciled hrule hactive hplan hc
  | apply plannedEventId expectedIntent c =>
    change Effect zones emailText s _ (apply s plannedEventId expectedIntent c)
    rcases apply_cases s plannedEventId expectedIntent c with
      h | ⟨target, rule, applied, happlies, hconverse, h⟩
    · rw [h]
      exact .idle
    · rw [h]
      exact .applied happlies hconverse
  | resolveSuggestion suggestionId decision read =>
    refine orKeep_effect fun s' h => ?_
    rcases resolveSuggestion_ok h with
      ⟨rfl, suggestions, rfl, rfl⟩ | ⟨rfl, suggestion, rule, row, haccepts, hc, rfl⟩
    · exact .dismissed
    · exact .accepted haccepts hc
  | expireSuggestions => exact .expired
  | setPaused ruleId paused =>
    refine orKeep_effect fun s' h => ?_
    obtain ⟨rule, hmem, hid, hstatus, rfl⟩ := setPaused_ok h
    exact .paused ⟨rule, hmem, hid, hstatus⟩
  | remove ruleId =>
    refine orKeep_effect fun s' h => ?_
    obtain ⟨hc, rfl⟩ := remove_ok h
    exact .removed hc

/-! ## What an application leaves behind -/

/-- The row is only marked: its status is kept, or it is held where nothing is to be deleted. -/
def Marked (target row : PlannedEvent) : Prop :=
  ∃ status code, row = { target with status, safeErrorCode := some code } ∧
    (status = target.status ∨ (status = .held ∧ target.status ≠ .pendingDelete))

theorem marked_hold (target : PlannedEvent) (code : String) :
    Marked target (hold code (target.status = .pendingDelete) target) := by
  by_cases h : target.status = .pendingDelete
  · exact ⟨.pendingDelete, code, by simp [hold, h], Or.inl h.symm⟩
  · exact ⟨.held, code, by simp [hold, h], Or.inr ⟨rfl, h⟩⟩

theorem marked_failWith {target : PlannedEvent} (code : String) :
    Marked target (failWith code target) := by
  unfold failWith
  split
  · exact marked_hold _ _
  · exact ⟨target.status, code, rfl, Or.inl rfl⟩

/-- The ways an application can end, with the events at the provider. -/
inductive Applying (s : State) (target : PlannedEvent) (c : Conversation) : Applied → Prop
  /-- Nothing was sent. -/
  | stopped {row : PlannedEvent} (h : Marked target row) : Applying s target c ⟨row, s.remote⟩
  /-- The deletion took effect and its answer was lost. -/
  | unconfirmed {row : PlannedEvent} (hstatus : target.status = .pendingDelete)
      (h : Marked target row) :
    Applying s target c ⟨row, deletePlanningEvent target.remoteId s.remote⟩
  | deleted (hstatus : target.status = .pendingDelete) :
    Applying s target c ⟨deletedRow target, deletePlanningEvent target.remoteId s.remote⟩
  /-- The event is at the provider as it was intended. -/
  | found (hstatus : target.status ≠ .pendingDelete) :
    Applying s target c ⟨convergedRow target.remoteId target, s.remote⟩
  /-- The row, or the row under its next generation, was written or was about to be. -/
  | written {base row : PlannedEvent} {remote : List RemotePlanningEvent}
      (hstatus : target.status ≠ .pendingDelete)
      (hbase : base = target ∨ (base = nextGeneration target ∧
        target.destinationEventId.isSome ∧ getPlanningEvent s target.remoteId = none))
      (hrow : Marked base row ∨ row = convergedRow base.remoteId base)
      (hremote : remote = s.remote ∨ (c.write.effective = true ∧
        ∃ desired, base.desiredState = some desired ∧
          remote = putPlanningEvent base.remoteId desired s.remote)) :
    Applying s target c ⟨row, remote⟩

theorem deletePlanningEvent_of_none {target : PlannedEvent}
    (h : getPlanningEvent s target.remoteId = none) :
    deletePlanningEvent target.remoteId s.remote = s.remote := by
  unfold getPlanningEvent at h
  unfold deletePlanningEvent
  rw [List.filter_eq_self]
  intro event hevent
  have := List.find?_eq_none.1 h event hevent
  simpa using this

theorem applyDelete_cases {rule : PlanningRule} {target : PlannedEvent} {c : Conversation}
    (hstatus : target.status = .pendingDelete) : Applying s target c (applyDelete s rule target c) := by
  unfold applyDelete
  split
  · exact .stopped (marked_failWith _)
  · split
    · rename_i hnone
      have := Applying.deleted (s := s) (c := c) hstatus
      rwa [deletePlanningEvent_of_none hnone] at this
    · rename_i found hfound
      have hid : found.eventId = target.remoteId := (find?_key hfound).2
      split
      · have hmark := marked_hold target "ownership_mismatch"
        rw [decide_eq_true hstatus] at hmark
        exact .stopped hmark
      · simp only [hid]
        split
        · split
          · exact .unconfirmed hstatus (marked_failWith _)
          · exact .stopped (marked_failWith _)
        · rename_i hnone
          have heffect : c.write.effective = true := by
            cases hwrite : c.write <;> simp_all [Delivery.failure, Delivery.effective]
          rw [if_pos heffect]
          exact .deleted hstatus

theorem writeEvent_cases {rule : PlanningRule} {target base : PlannedEvent} {c : Conversation}
    (hstatus : target.status ≠ .pendingDelete)
    (hbase : base = target ∨ (base = nextGeneration target ∧
      target.destinationEventId.isSome ∧ getPlanningEvent s target.remoteId = none)) :
    Applying s target c (writeEvent s rule base base.remoteId c) := by
  have hopen : base.status ≠ .pendingDelete := by
    rcases hbase with rfl | ⟨rfl, -⟩ <;> exact hstatus
  unfold writeEvent
  split
  · exact .written hstatus hbase (Or.inl (marked_failWith _)) (Or.inl rfl)
  · rename_i desired hdesired
    split
    · have hmark := marked_hold base "meeting_start_too_close"
      rw [decide_eq_false hopen] at hmark
      exact .written hstatus hbase (Or.inl hmark) (Or.inl rfl)
    · have hremote :
          (if c.write.effective = true then putPlanningEvent base.remoteId desired s.remote
            else s.remote) = s.remote ∨ (c.write.effective = true ∧
          ∃ desired', base.desiredState = some desired' ∧
            (if c.write.effective = true then putPlanningEvent base.remoteId desired s.remote
              else s.remote) = putPlanningEvent base.remoteId desired' s.remote) := by
        by_cases heffect : c.write.effective = true
        · rw [if_pos heffect]
          exact Or.inr ⟨heffect, desired, hdesired, rfl⟩
        · rw [if_neg heffect]
          exact Or.inl rfl
      simp only
      split
      · exact .written hstatus hbase (Or.inl (marked_failWith _)) hremote
      · exact .written hstatus hbase (Or.inr rfl) hremote

theorem applyWrite_cases {rule : PlanningRule} {target : PlannedEvent} {c : Conversation}
    (hstatus : target.status ≠ .pendingDelete) :
    Applying s target c (applyWrite s rule target c) := by
  have hheld : ∀ code, Marked target (hold code false target) := by
    intro code
    have hmark := marked_hold target code
    rwa [decide_eq_false hstatus] at hmark
  unfold applyWrite
  split
  · exact .stopped (marked_failWith _)
  · split
    · exact .stopped (marked_failWith _)
    · split
      · rename_i found hfound
        have hid : found.eventId = target.remoteId := (find?_key hfound).2
        rw [hid]
        split
        · exact .stopped (hheld _)
        · split
          · exact .found hstatus
          · split
            · exact .stopped (hheld _)
            · exact writeEvent_cases hstatus (Or.inl rfl)
      · rename_i hnone
        by_cases hdest : target.destinationEventId.isSome = true
        · simp only [if_pos hdest]
          exact writeEvent_cases hstatus (Or.inr ⟨rfl, hdest, hnone⟩)
        · have hremote : planningEventId target.id target.generation = target.remoteId := by
            rw [Bool.not_eq_true, Option.isSome_eq_false_iff, Option.isNone_iff_eq_none] at hdest
            simp [PlannedEvent.remoteId, hdest]
          simp only [if_neg hdest, hremote]
          exact writeEvent_cases hstatus (Or.inl rfl)

theorem converse_cases {rule : PlanningRule} {target : PlannedEvent} {c : Conversation}
    {applied : Applied} (h : converse s rule target c = some applied) :
    Applying s target c applied := by
  unfold converse at h
  split at h
  · cases h
    exact .stopped (marked_hold _ _)
  · split at h
    · cases h
    · split at h
      · rename_i hstatus
        cases h
        exact applyDelete_cases hstatus
      · rename_i hstatus
        cases h
        exact applyWrite_cases hstatus

/-! ## Outcomes of an update -/

/-- The tests that lead an update to its outcome: a row that is not skipped and whose desired state
differs is held or suggested only if it is a meeting at the provider. -/
inductive Decided (draft : PlanningDraft) (row : PlannedEvent)
    (occurrence : PlannedOccurrenceTemplate) (now : Instant) : Outcome → Prop
  | skipped (hskipped : row.status = .skipped) : Decided draft row occurrence now .unchanged
  | same (hsame : (desiredFor draft row occurrence).map sha256Canonical = row.desiredHash)
      (hmet : row.status ≠ .unmet) : Decided draft row occurrence now .unchanged
  | retry (hsame : (desiredFor draft row occurrence).map sha256Canonical = row.desiredHash)
      (hheld : row.status = .held) (hcode : row.safeErrorCode = some "target_unavailable") :
    Decided draft row occurrence now .retry
  | lock (hlock : insideNoMoveWindow row.desiredState now (lockBeforeMinutes draft) = true) :
    Decided draft row occurrence now .lock
  | suggestion (hpolicy : conflictPolicy? draft = some .suggest) (hstatus : row.status = .converged) :
    Decided draft row occurrence now .suggestion
  | keep (hskipped : row.status ≠ .skipped)
      (hdiffers : ¬((desiredFor draft row occurrence).map sha256Canonical = row.desiredHash ∧
        row.status ≠ .unmet))
      (hdest : row.destinationEventId.isSome)
      (hpolicy : conflictPolicy? draft = some .keepWithWarning) :
    Decided draft row occurrence now .keep
  | noTime
      (hdiffers : ¬((desiredFor draft row occurrence).map sha256Canonical = row.desiredHash ∧
        row.status ≠ .unmet))
      (hdest : row.destinationEventId.isSome) (hnone : desiredFor draft row occurrence = none) :
    Decided draft row occurrence now .noTime
  | write (hskipped : row.status ≠ .skipped)
      (hdiffers : ¬((desiredFor draft row occurrence).map sha256Canonical = row.desiredHash ∧
        row.status ≠ .unmet))
      (hmoving : draft.kind = .smartMeeting → row.destinationEventId.isSome →
        insideNoMoveWindow row.desiredState now (lockBeforeMinutes draft) = false ∧
          ¬(conflictPolicy? draft = some .suggest ∧ row.status = .converged) ∧
          conflictPolicy? draft ≠ some .keepWithWarning ∧ desiredFor draft row occurrence ≠ none) :
    Decided draft row occurrence now .write

theorem updateOutcome_decided (draft : PlanningDraft) (row : PlannedEvent)
    (occurrence : PlannedOccurrenceTemplate) (now : Instant) :
    Decided draft row occurrence now (updateOutcome draft row occurrence now) := by
  unfold updateOutcome
  dsimp only
  split
  · rename_i hskipped
    exact .skipped hskipped
  rename_i hskipped
  split
  · rename_i hsame
    split
    · rename_i hheld
      exact .retry hsame.1 hheld.1 hheld.2
    · exact .same hsame.1 hsame.2
  rename_i hdiffers
  split
  · rename_i hlock
    exact .lock hlock.2
  rename_i hlock
  split
  · rename_i hsuggest
    exact .suggestion hsuggest.2.1 hsuggest.2.2
  rename_i hsuggest
  split
  · rename_i hkeep
    exact .keep hskipped hdiffers hkeep.1.2 hkeep.2
  rename_i hkeep
  split
  · rename_i hnotime
    exact .noTime hdiffers hnotime.1.2 hnotime.2
  · rename_i htime
    refine .write hskipped hdiffers fun hkind hdest => ⟨?_, ?_, ?_, ?_⟩
    · rw [← Bool.not_eq_true]
      exact fun hinside => hlock ⟨⟨hkind, hdest⟩, hinside⟩
    · exact fun hpolicy => hsuggest ⟨⟨hkind, hdest⟩, hpolicy⟩
    · exact fun hpolicy => hkeep ⟨⟨hkind, hdest⟩, hpolicy⟩
    · exact fun hnone => htime ⟨⟨hkind, hdest⟩, hnone⟩

/-- What led to an outcome that has come out. -/
theorem Decided.of_eq {draft : PlanningDraft} {row : PlannedEvent}
    {occurrence : PlannedOccurrenceTemplate} {now : Instant} {outcome : Outcome}
    (h : updateOutcome draft row occurrence now = outcome) :
    Decided draft row occurrence now outcome :=
  h ▸ updateOutcome_decided draft row occurrence now

/-- Where there is no time to write, no event of a meeting is at the provider. -/
theorem updateOutcome_unwritten {draft : PlanningDraft} {row : PlannedEvent}
    {occurrence : PlannedOccurrenceTemplate} {now : Instant}
    (h : updateOutcome draft row occurrence now = .write) (hevent : occurrence.event = none)
    (hkind : draft.kind = .smartMeeting) : row.destinationEventId = none := by
  by_contra hdest
  have hsome := Option.isSome_iff_ne_none.2 hdest
  have hnone : desiredFor draft row occurrence = none := by rw [desiredFor, hevent]; rfl
  cases Decided.of_eq h with
  | write hskipped hdiffers hmoving => exact (hmoving hkind hsome).2.2.2 hnone

/-! ## Rows -/

/-- What an event can make of one planned event. -/
inductive RowChange (zones : String → Option Zone) (s : State) :
    Event → PlannedEvent → PlannedEvent → Prop
  | same {e : Event} {row : PlannedEvent} : RowChange zones s e row row
  | reconciled {ruleId : String} {read : Tables} {newId : String → String} {rule : PlanningRule}
      {draft : PlanningDraft} {result : PlanningResult} {row : PlannedEvent}
      (hrule : s.rules.find? (·.id = ruleId) = some rule) (hactive : rule.status = .active)
      (hplan : planForReconcile zones read rule.draft s.clock ruleId = .ok (draft, result))
      (hrow : row.ruleId = ruleId) :
    RowChange zones s (.reconcile ruleId read newId) row (reconcileRow draft result s.clock row)
  | applied {plannedEventId : String} {expectedIntent : Nat} {c : Conversation}
      {rule : PlanningRule} {row : PlannedEvent} {applied : Applied}
      (h : Applies s plannedEventId expectedIntent rule row) (happlying : Applying s row c applied) :
    RowChange zones s (.apply plannedEventId expectedIntent c) row applied.row
  | accepted {suggestionId : String} {read : Tables} {suggestion : Suggestion}
      {rule : PlanningRule} {row : PlannedEvent}
      (h : Accepts zones s suggestionId read suggestion rule row) :
    RowChange zones s (.resolveSuggestion suggestionId .accept read) row
      (acceptProposal suggestion.proposedState row)
  | removed {ruleId : String} {row : PlannedEvent} (hrow : row.ruleId = ruleId) :
    RowChange zones s (.remove ruleId) row (removeRow s.clock row)

/-- A row of an active rule for an occurrence that is planned for the first time. -/
def NewRow (s : State) (row : PlannedEvent) : Prop :=
  ∃ rule ∈ s.rules, rule.status = .active ∧
    ∃ newId draft occurrence, row = insertOccurrence rule.id newId draft occurrence

/-- An update by key changes one row, where keys are unique. -/
theorem updateRow_rows {f : PlannedEvent → PlannedEvent} {target : PlannedEvent}
    (hs : s.Constraints) (htarget : target ∈ s.plannedEvents)
    (hchange : RowChange zones s e target (f target)) :
    ∀ row ∈ s.plannedEvents,
      RowChange zones s e row (if row.id = target.id then f row else row) := by
  intro row hrow
  by_cases hid : row.id = target.id
  · have : row = target := List.inj_on_of_nodup_map hs.plannedIds hrow htarget hid
    subst this
    rw [if_pos rfl]
    exact hchange
  · rw [if_neg hid]
    exact .same

theorem applied_plannedEvents (rule : PlanningRule) (target : PlannedEvent) (applied : Applied) :
    (s.applied rule target applied true).plannedEvents =
      updateRow (·.id) target.id (fun _ => applied.row) s.plannedEvents := by
  unfold State.applied finishRemoval State.updateRule
  simp only [if_true]
  split
  · split <;> rfl
  · rfl

/-- The rows of the new state, one by one. -/
theorem Effect.rows (hs : s.Constraints) (h : Effect zones emailText s e s') :
    ∃ f fresh, s'.plannedEvents = s.plannedEvents.map f ++ fresh ∧
      (∀ row ∈ s.plannedEvents, RowChange zones s e row (f row)) ∧
      ∀ row ∈ fresh, NewRow s' row := by
  have hsame : ∀ {e : Event} {s' : State}, ∃ f fresh,
      s.plannedEvents = s.plannedEvents.map f ++ fresh ∧
      (∀ row ∈ s.plannedEvents, RowChange zones s e row (f row)) ∧ ∀ row ∈ fresh, NewRow s' row :=
    ⟨id, [], by simp, fun _ _ => .same, by simp⟩
  cases h with
  | idle | tick | previewed | dismissed | expired | paused => exact hsame
  | @activated principalId previewId read newId preview result h hc =>
    refine ⟨id, _, by rw [List.map_id]; rfl, fun _ _ => .same, ?_⟩
    intro row hrow
    obtain ⟨⟨occurrence, n⟩, -, rfl⟩ := List.mem_map.1 hrow
    refine ⟨_, List.mem_append_right _ (List.mem_singleton.2 rfl), rfl, ?_⟩
    exact ⟨_, _, occurrence, rfl⟩
  | @reconciled ruleId read newId rule draft result hrule hactive hplan hc =>
    have hid : rule.id = ruleId := (find?_key hrule).2
    refine ⟨_, _, rfl, ?_, ?_⟩
    · intro row _
      by_cases hrow : row.ruleId = rule.id
      · simp only [if_pos hrow]
        exact .reconciled hrule hactive hplan (hrow.trans hid)
      · simp only [if_neg hrow]
        exact .same
    · intro row hrow
      obtain ⟨occurrence, -, rfl⟩ := List.mem_map.1 hrow
      exact ⟨rule, (find?_key hrule).1, hactive, _, _, occurrence, rfl⟩
  | @applied plannedEventId expectedIntent c target rule applied h hconverse =>
    cases hcommitted : c.committed with
    | false => exact hsame
    | true =>
      have hmem := (find?_key h.findRow).1
      refine ⟨fun row => if row.id = target.id then applied.row else row, [], ?_, ?_, by simp⟩
      · rw [List.append_nil, applied_plannedEvents]
        rfl
      · exact updateRow_rows (f := fun _ => applied.row) hs hmem
          (.applied h (converse_cases hconverse))
  | @accepted suggestionId read suggestion rule row h hc =>
    obtain ⟨hmem, hid⟩ := find?_key h.findRow
    refine ⟨fun row => if row.id = suggestion.plannedEventId then
      acceptProposal suggestion.proposedState row else row, [], ?_, ?_, by simp⟩
    · rw [List.append_nil]
      rfl
    · rw [← hid]
      exact updateRow_rows hs hmem (.accepted h)
  | @removed ruleId hc =>
    refine ⟨fun row => if row.ruleId = ruleId then removeRow s.clock row else row, [], ?_, ?_,
      by simp⟩
    · rw [List.append_nil]
      rfl
    · intro row _
      by_cases hrow : row.ruleId = ruleId
      · simp only [if_pos hrow]
        exact .removed hrow
      · simp only [if_neg hrow]
        exact .same

/-! ## Conditions on passes -/

/-- Every row that a reconciliation looks at meets the condition, which may use the state, the rule,
and the draft and result of the plan. -/
def EachRow (zones : String → Option Zone)
    (p : State → PlanningRule → PlanningDraft → PlanningResult → PlannedEvent → Bool)
    (s : State) : Event → Bool
  | .reconcile ruleId read _ =>
    match s.rules.find? (·.id = ruleId) with
    | none => true
    | some rule => rule.status ≠ .active ||
      match planForReconcile zones read rule.draft s.clock ruleId with
      | .error _ => true
      | .ok (draft, result) => (s.eventsOf ruleId).all (p s rule draft result)
  | _ => true

theorem EachRow.row
    {p : State → PlanningRule → PlanningDraft → PlanningResult → PlannedEvent → Bool}
    {ruleId : String} {read : Tables} {newId : String → String} {rule : PlanningRule}
    {draft : PlanningDraft} {result : PlanningResult} {row : PlannedEvent}
    (h : EachRow zones p s (.reconcile ruleId read newId) = true)
    (hrule : s.rules.find? (·.id = ruleId) = some rule) (hactive : rule.status = .active)
    (hplan : planForReconcile zones read rule.draft s.clock ruleId = .ok (draft, result))
    (hmem : row ∈ s.plannedEvents) (hrow : row.ruleId = ruleId) :
    p s rule draft result row = true := by
  have hall : (s.eventsOf ruleId).all (p s rule draft result) = true := by
    simpa [EachRow, hrule, hactive, hplan] using h
  exact List.all_eq_true.1 hall row (List.mem_filter.2 ⟨hmem, decide_eq_true hrow⟩)

/-! ## What no event changes -/

/-- The columns that a row keeps for good. -/
structure SameRow (row row' : PlannedEvent) : Prop where
  id : row'.id = row.id
  ruleId : row'.ruleId = row.ruleId
  occurrenceKey : row'.occurrenceKey = row.occurrenceKey

theorem SameRow.refl (row : PlannedEvent) : SameRow row row := ⟨rfl, rfl, rfl⟩

/-- A reconciliation also keeps the event at the provider and the generation. -/
theorem reconcileRow_same (draft : PlanningDraft) (result : PlanningResult) (now : Instant)
    (row : PlannedEvent) :
    SameRow row (reconcileRow draft result now row) ∧
      (reconcileRow draft result now row).destinationEventId = row.destinationEventId ∧
      (reconcileRow draft result now row).generation = row.generation := by
  unfold reconcileRow
  split
  · unfold updateOccurrence
    split <;> exact ⟨⟨rfl, rfl, rfl⟩, rfl, rfl⟩
  · unfold closeStale
    repeat' split
    all_goals exact ⟨⟨rfl, rfl, rfl⟩, rfl, rfl⟩

theorem acceptProposal_same (proposed : Option ManagedPlanningEvent) (row : PlannedEvent) :
    SameRow row (acceptProposal proposed row) ∧
      (acceptProposal proposed row).destinationEventId = row.destinationEventId ∧
      (acceptProposal proposed row).generation = row.generation := by
  unfold acceptProposal
  split <;> exact ⟨⟨rfl, rfl, rfl⟩, rfl, rfl⟩

theorem removeRow_same (now : Instant) (row : PlannedEvent) :
    SameRow row (removeRow now row) ∧
      (removeRow now row).destinationEventId = row.destinationEventId ∧
      (removeRow now row).generation = row.generation := by
  unfold removeRow
  split <;> exact ⟨⟨rfl, rfl, rfl⟩, rfl, rfl⟩

theorem Marked.same {target row : PlannedEvent} (h : Marked target row) : SameRow target row := by
  obtain ⟨status, code, rfl, -⟩ := h
  exact ⟨rfl, rfl, rfl⟩

theorem Applying.same {target : PlannedEvent} {c : Conversation} {applied : Applied} (h : Applying s target c applied) :
    SameRow target applied.row := by
  cases h with
  | stopped h | unconfirmed _ h => exact h.same
  | deleted | found => exact ⟨rfl, rfl, rfl⟩
  | written hstatus hbase hrow hremote =>
    rcases hbase with rfl | ⟨rfl, -⟩
    · rcases hrow with hmark | rfl
      · exact hmark.same
      · exact ⟨rfl, rfl, rfl⟩
    · rcases hrow with hmark | rfl
      · exact ⟨hmark.same.id, hmark.same.ruleId, hmark.same.occurrenceKey⟩
      · exact ⟨rfl, rfl, rfl⟩

theorem RowChange.same_row {row row' : PlannedEvent} (h : RowChange zones s e row row') :
    SameRow row row' := by
  cases h with
  | same => exact .refl _
  | reconciled => exact (reconcileRow_same _ _ _ _).1
  | applied _ happlying => exact happlying.same
  | accepted => exact (acceptProposal_same _ _).1
  | removed => exact (removeRow_same _ _).1

/-- A row of the old state is found again. -/
theorem Effect.row (hs : s.Constraints) (h : Effect zones emailText s e s') {row : PlannedEvent}
    (hrow : row ∈ s.plannedEvents) :
    ∃ row' ∈ s'.plannedEvents, RowChange zones s e row row' := by
  obtain ⟨f, fresh, heq, hf, -⟩ := h.rows hs
  refine ⟨f row, ?_, hf row hrow⟩
  rw [heq]
  exact List.mem_append_left _ (List.mem_map_of_mem hrow)

/-- The rows with one ID are one row before and after. -/
theorem Effect.row_change (hs : s.Constraints) (hs' : s'.Constraints)
    (h : Effect zones emailText s e s') {row row' : PlannedEvent} (hrow : row ∈ s.plannedEvents)
    (hrow' : row' ∈ s'.plannedEvents) (hid : row'.id = row.id) : RowChange zones s e row row' := by
  obtain ⟨row'', hmem, hchange⟩ := h.row hs hrow
  have : row'' = row' :=
    List.inj_on_of_nodup_map hs'.plannedIds hmem hrow' (hchange.same_row.id.trans hid.symm)
  exact this ▸ hchange

/-- A row of the new state comes from the old one, or is new. -/
theorem Effect.row_of_mem (hs : s.Constraints) (h : Effect zones emailText s e s')
    {row' : PlannedEvent} (hrow : row' ∈ s'.plannedEvents) :
    (∃ row ∈ s.plannedEvents, RowChange zones s e row row') ∨ NewRow s' row' := by
  obtain ⟨f, fresh, heq, hf, hfresh⟩ := h.rows hs
  rw [heq] at hrow
  rcases List.mem_append.1 hrow with hmem | hmem
  · obtain ⟨row, hbefore, rfl⟩ := List.mem_map.1 hmem
    exact Or.inl ⟨row, hbefore, hf row hbefore⟩
  · exact Or.inr (hfresh row' hmem)

/-! ## Constraints -/

theorem Marked.checked {target row : PlannedEvent} (h : Marked target row)
    (ht : target.Checked) (hpending : target.status.pending = true) : row.Checked := by
  obtain ⟨status, code, rfl, hstatus⟩ := h
  rcases hstatus with rfl | ⟨rfl, hopen⟩
  · exact ht
  · unfold PlannedEvent.Checked at *
    cases hs : target.status <;> simp_all [PlannedStatus.closed, PlannedStatus.pending]

/-- An application leaves a row with a desired state if and only if its status wants one. -/
theorem Applying.checked {target : PlannedEvent} {c : Conversation} {applied : Applied} (h : Applying s target c applied)
    (ht : target.Checked) (hpending : target.status.pending = true) : applied.row.Checked := by
  have hopen : target.status ≠ .pendingDelete → target.desiredState.isSome ∧
      target.desiredHash.isSome := by
    intro hne
    unfold PlannedEvent.Checked at ht
    cases hs : target.status <;> simp_all [PlannedStatus.closed, PlannedStatus.pending]
  cases h with
  | stopped h | unconfirmed _ h => exact h.checked ht hpending
  | deleted hstatus =>
    have hnone : target.desiredState = none := by
      simpa [PlannedEvent.Checked, hstatus, PlannedStatus.closed] using ht
    unfold PlannedEvent.Checked deletedRow
    split <;> simp [PlannedStatus.closed, hnone]
  | found hstatus => exact hopen hstatus
  | written hstatus hbase hrow hremote =>
    rcases hbase with rfl | ⟨rfl, -⟩
    · rcases hrow with hmark | rfl
      · exact hmark.checked ht hpending
      · exact hopen hstatus
    · have hnext : (nextGeneration target).Checked := by
        unfold PlannedEvent.Checked at ht ⊢
        cases hs : target.status <;>
          simp_all [PlannedStatus.closed, PlannedStatus.pending, nextGeneration]
      rcases hrow with hmark | rfl
      · exact hmark.checked hnext hpending
      · have := hopen hstatus
        simp [PlannedEvent.Checked, convergedRow, PlannedStatus.closed, nextGeneration, this]

/-- An application writes the rules, the rows and the events at the provider, and no more. -/
theorem applied_eq (rule : PlanningRule) (target : PlannedEvent) (applied : Applied)
    (committed : Bool) :
    ∃ rules plannedEvents, s.applied rule target applied committed =
      { s with rules, plannedEvents, remote := applied.remote } ∧
      rules.map (·.id) = s.rules.map (·.id) := by
  cases committed with
  | false => exact ⟨s.rules, s.plannedEvents, rfl, rfl⟩
  | true =>
    unfold State.applied finishRemoval State.updateRule
    simp only [if_true]
    split
    · split
      · exact ⟨_, _, rfl, rfl⟩
      · exact ⟨_, _, rfl, map_updateRow fun _ => rfl⟩
    · exact ⟨_, _, rfl, rfl⟩

section Applied

variable (rule : PlanningRule) (target : PlannedEvent) (applied : Applied) (committed : Bool)

theorem applied_previews : (s.applied rule target applied committed).previews = s.previews := by
  obtain ⟨rules, plannedEvents, heq, -⟩ := applied_eq rule target applied committed
  rw [heq]

theorem applied_ruleIds :
    (s.applied rule target applied committed).rules.map (·.id) = s.rules.map (·.id) := by
  obtain ⟨rules, plannedEvents, heq, hids⟩ := applied_eq rule target applied committed
  rw [heq, hids]

theorem applied_suggestions :
    (s.applied rule target applied committed).suggestions = s.suggestions := by
  obtain ⟨rules, plannedEvents, heq, -⟩ := applied_eq rule target applied committed
  rw [heq]

theorem applied_remote : (s.applied rule target applied committed).remote = applied.remote := by
  obtain ⟨rules, plannedEvents, heq, -⟩ := applied_eq rule target applied committed
  rw [heq]

theorem applied_skips : (s.applied rule target applied committed).skips = s.skips := by
  obtain ⟨rules, plannedEvents, heq, -⟩ := applied_eq rule target applied committed
  rw [heq]

theorem applied_history : (s.applied rule target applied committed).history = s.history := by
  obtain ⟨rules, plannedEvents, heq, -⟩ := applied_eq rule target applied committed
  rw [heq]

end Applied

theorem Effect.constraints (hs : s.Constraints) (h : Effect zones emailText s e s') :
    s'.Constraints := by
  cases h with
  | idle | tick => exact ⟨hs.1, hs.2, hs.3, hs.4, hs.5, hs.6⟩
  | previewed _ hc | activated _ hc | reconciled _ _ _ hc | accepted _ hc | removed hc => exact hc
  | dismissed =>
    refine ⟨hs.1, hs.2, hs.3, hs.4, hs.5, ?_⟩
    rw [map_updateRow]
    · exact hs.6
    · exact fun _ => rfl
  | expired =>
    have hids : (expireSuggestions s).suggestions.map (·.id) = s.suggestions.map (·.id) := by
      unfold expireSuggestions
      rw [List.map_map]
      apply List.map_congr_left
      intro suggestion _
      simp only [Function.comp]
      split <;> rfl
    exact ⟨hs.1, hs.2, hs.3, hs.4, hs.5, hids ▸ hs.6⟩
  | paused =>
    refine ⟨hs.1, ?_, hs.3, hs.4, hs.5, hs.6⟩
    unfold State.updateRule
    rw [map_updateRow]
    · exact hs.2
    · exact fun _ => rfl
  | @applied plannedEventId expectedIntent c target rule applied h hconverse =>
    cases hcommitted : c.committed with
    | false => exact ⟨hs.1, hs.2, hs.3, hs.4, hs.5, hs.6⟩
    | true =>
      have happlying := converse_cases hconverse
      have hmem := (find?_key h.findRow).1
      have hsame := happlying.same
      have hunique : ∀ row ∈ s.plannedEvents, row.id = target.id → row = target :=
        fun row hrow hid => List.inj_on_of_nodup_map hs.plannedIds hrow hmem hid
      refine ⟨?_, ?_, ?_, ?_, ?_, ?_⟩
      · rw [applied_previews]
        exact hs.1
      · rw [applied_ruleIds]
        exact hs.2
      · rw [applied_plannedEvents, map_updateRow_of_mem fun row _ hid => hsame.id.trans hid.symm]
        exact hs.3
      · rw [applied_plannedEvents, map_updateRow_of_mem]
        · exact hs.4
        · intro row hrow hid
          rw [hunique row hrow hid, hsame.ruleId, hsame.occurrenceKey]
      · rw [applied_plannedEvents]
        apply forall_updateRow
        · exact fun row hrow _ => hs.5 row hrow
        · exact fun _ _ _ => happlying.checked (hs.5 target hmem) h.pending
      · rw [applied_suggestions]
        exact hs.6

theorem constraints_of_reachable {ok : State → Event → Prop}
    (h : (planning zones emailText).Reachable ok s) : s.Constraints := by
  refine h.invariant ?_ fun t e ht _ => (step_effect zones emailText t e).constraints ht
  rintro s ⟨hpreviews, hrules, hrows, hsuggestions, -⟩
  constructor <;> simp [hpreviews, hrules, hrows, hsuggestions]

/-! ## Coherent rows -/

/-- The hash is that of the desired state, the desired state carries the markers of the row, and the
event at the provider has the ID of the row's generation. -/
structure Coherent (row : PlannedEvent) : Prop where
  hash : row.desiredHash = row.desiredState.map sha256Canonical
  markers : ∀ event, row.desiredState = some event →
    event.provenance.plannedEventRef = row.id ∧ event.provenance.generation = row.generation
  remoteId : row.remoteId = planningEventId row.id row.generation

/-- A row without a desired state, or with one that carries its markers. -/
theorem Coherent.of_desired {row row' : PlannedEvent} (h : Coherent row)
    (desired : Option ManagedPlanningEvent) (hid : row'.id = row.id) (hgeneration : row'.generation = row.generation)
    (hdest : row'.destinationEventId = row.destinationEventId) (hstate : row'.desiredState = desired)
    (hhash : row'.desiredHash = desired.map sha256Canonical)
    (hmarkers : ∀ event, desired = some event →
      event.provenance.plannedEventRef = row.id ∧ event.provenance.generation = row.generation) :
    Coherent row' := by
  refine ⟨by rw [hhash, hstate], ?_, ?_⟩
  · intro event hevent
    rw [hid, hgeneration]
    exact hmarkers event (hstate ▸ hevent)
  · rw [hid, hgeneration, ← h.remoteId]
    simp only [PlannedEvent.remoteId, hdest, hid, hgeneration]

theorem Coherent.reconcileRow {row : PlannedEvent} (h : Coherent row) (draft : PlanningDraft)
    (result : PlanningResult) (now : Instant) : Coherent (reconcileRow draft result now row) := by
  have hkeep : ∀ {row' : PlannedEvent}, row'.id = row.id → row'.generation = row.generation →
      row'.destinationEventId = row.destinationEventId → row'.desiredState = row.desiredState →
      row'.desiredHash = row.desiredHash → Coherent row' := by
    intro row' hid hgeneration hdest hstate hhash
    exact h.of_desired _ hid hgeneration hdest hstate (hhash.trans h.hash) h.markers
  have hclose : ∀ {row' : PlannedEvent}, row'.id = row.id → row'.generation = row.generation →
      row'.destinationEventId = row.destinationEventId → row'.desiredState = none →
      row'.desiredHash = none → Coherent row' := by
    intro row' hid hgeneration hdest hstate hhash
    exact h.of_desired none hid hgeneration hdest hstate hhash (by simp)
  unfold Planning.reconcileRow
  split
  · unfold updateOccurrence
    split
    · exact h
    · exact h
    · exact hkeep rfl rfl rfl rfl rfl
    · exact hkeep rfl rfl rfl rfl rfl
    · exact hkeep rfl rfl rfl rfl rfl
    · exact hkeep rfl rfl rfl rfl rfl
    · rename_i occurrence _ _ _
      refine h.of_desired ((desiredFor draft row occurrence).map
        (withIntent · (row.intentSequence + 1))) rfl rfl rfl rfl rfl ?_
      intro event hevent
      simp only [desiredFor, Option.map_map, Option.map_eq_some_iff] at hevent
      obtain ⟨template, -, rfl⟩ := hevent
      exact ⟨rfl, rfl⟩
  · unfold closeStale
    split
    · exact h
    · split
      · exact hclose rfl rfl rfl rfl rfl
      · split
        · split
          · exact h
          · exact hclose rfl rfl rfl rfl rfl
        · exact hclose rfl rfl rfl rfl rfl

theorem Coherent.acceptProposal {row : PlannedEvent} (h : Coherent row) {result : PlanningResult}
    {rule : PlanningRule} {proposed : Option ManagedPlanningEvent}
    (hlatest : latestProposal result rule row = proposed) :
    Coherent (acceptProposal proposed row) := by
  subst hlatest
  cases hproposed : latestProposal result rule row with
  | none => exact h.of_desired none rfl rfl rfl rfl rfl (by simp)
  | some event =>
    refine h.of_desired (some (withIntent event (row.intentSequence + 1))) rfl rfl rfl rfl rfl ?_
    intro event' hevent'
    cases hevent'
    simp only [latestProposal, Option.bind_eq_some_iff, Option.map_eq_some_iff] at hproposed
    obtain ⟨occurrence, -, template, -, rfl⟩ := hproposed
    exact ⟨rfl, rfl⟩

theorem Coherent.removeRow {row : PlannedEvent} (h : Coherent row) (now : Instant) :
    Coherent (removeRow now row) := by
  unfold Planning.removeRow
  split
  · exact h.of_desired none rfl rfl rfl rfl rfl (by simp)
  · exact h.of_desired none rfl rfl rfl rfl rfl (by simp)

theorem Coherent.nextGeneration {row : PlannedEvent} (h : Coherent row) :
    Coherent (nextGeneration row) := by
  refine ⟨rfl, ?_, rfl⟩
  intro event hevent
  simp only [Planning.nextGeneration, Option.map_eq_some_iff] at hevent
  obtain ⟨before, hbefore, rfl⟩ := hevent
  exact ⟨(h.markers before hbefore).1, rfl⟩

theorem Coherent.marked {target row : PlannedEvent} (h : Coherent target) (hrow : Marked target row) :
    Coherent row := by
  obtain ⟨status, code, rfl, -⟩ := hrow
  exact ⟨h.hash, h.markers, h.remoteId⟩

theorem Coherent.applying {target : PlannedEvent} {c : Conversation} (h : Coherent target) {applied : Applied}
    (happlying : Applying s target c applied) : Coherent applied.row := by
  have hconverged : ∀ {base : PlannedEvent}, Coherent base →
      Coherent (convergedRow base.remoteId base) :=
    fun hbase => ⟨hbase.hash, hbase.markers, hbase.remoteId⟩
  cases happlying with
  | stopped hmark | unconfirmed _ hmark => exact h.marked hmark
  | deleted => exact ⟨h.hash, h.markers, rfl⟩
  | found => exact hconverged h
  | @written base row remote hstatus hbase hrow hremote =>
    have hcoherent : Coherent base := by
      rcases hbase with rfl | ⟨rfl, -⟩
      · exact h
      · exact h.nextGeneration
    rcases hrow with hmark | rfl
    · exact hcoherent.marked hmark
    · exact hconverged hcoherent

theorem RowChange.coherent {row row' : PlannedEvent} (h : RowChange zones s e row row')
    (hrow : Coherent row) : Coherent row' := by
  cases h with
  | same => exact hrow
  | reconciled => exact hrow.reconcileRow _ _ _
  | applied _ happlying => exact hrow.applying happlying
  | accepted h =>
    obtain ⟨plan, -, hlatest⟩ := h.latest
    exact hrow.acceptProposal hlatest
  | removed => exact hrow.removeRow _

theorem NewRow.coherent {row : PlannedEvent} (h : NewRow s row) : Coherent row := by
  obtain ⟨rule, -, -, newId, draft, occurrence, rfl⟩ := h
  refine ⟨rfl, ?_, rfl⟩
  intro event hevent
  simp only [insertOccurrence, Option.map_eq_some_iff] at hevent
  obtain ⟨template, -, rfl⟩ := hevent
  exact ⟨rfl, rfl⟩

theorem coherent_of_reachable {ok : State → Event → Prop}
    (h : (planning zones emailText).Reachable ok s) : ∀ row ∈ s.plannedEvents, Coherent row := by
  refine h.invariant_reachable (I := fun s => ∀ row ∈ s.plannedEvents, Coherent row) ?_ ?_
  · rintro s ⟨-, -, hrows, -⟩ row hrow
    rw [hrows] at hrow
    cases hrow
  · intro t e ht ih _ row' hrow'
    rcases (step_effect zones emailText t e).row_of_mem (constraints_of_reachable ht) hrow' with
      ⟨row, hrow, hchange⟩ | hnew
    · exact hchange.coherent (ih row hrow)
    · exact hnew.coherent

end Steps

/-! ## A small rule

A weekly meeting of an hour on Mondays between ten and two, best at ten, and what the coordinator
reads of one calendar with some busy time. -/

namespace Sample

def zones (name : String) : Option Zone :=
  if name = "UTC" then some ⟨fun _ => 0, [0], by simp⟩ else none

/-- Monday, 5 January 1970, at midnight. -/
def monday : Instant := 345600000

def hour : Instant := 3600000

def meeting (conflictPolicy : ConflictPolicy) (lockBeforeMinutes : Nat) : PlanningDraft :=
  .smartMeeting
    { name := "Weekly"
      targetCalendarId := "calendar"
      timezone := "UTC"
      startDate := "1970-01-05"
      weekdays := [1]
      windowStart := "10:00:00"
      windowEnd := "14:00:00"
      preferredTime := "10:00:00"
      cadenceWeeks := 1
      occurrenceCount := 1
      minimumDurationMinutes := 60
      maximumDurationMinutes := 60
      startStepMinutes := 60
      attendees := []
      availabilityCalendarIds := ["calendar"]
      conflictPolicy
      lockBeforeMinutes
      description := none
      location := none
      visibility := .default_ }

/-- A busy hour. -/
def busyAt (start : Instant) : ObservedEvent where
  calendarEndpointId := "calendar"
  observation := .ofEvent
    { sourceEventRef := "source"
      sourceOccurrenceRef := ""
      remoteRevision := "1"
      lifecycle := .confirmed
      origin := .providerOriginal
      timing := some (.timed start (start + hour) "UTC" "UTC")
      availability := some .busy
      relationship := ⟨.none, .notApplicable, none⟩
      destinationIdentityInvited := false
      content := {}
      providerMetadata := some [("planipus_rule_ref", none)] }

def read (now : Instant) (busy : List Instant) : Tables where
  calendars :=
    [{ id := "calendar"
       connectionId := "connection"
       remoteId := "remote"
       readable := true
       writable := true
       capabilities := {}
       provider := .fake
       intendedRole := .both
       connectionStatus := .active
       accountLabel := "account" }]
  cursors := [⟨"calendar", .ready, some now⟩]
  observations := busy.map busyAt
  rules := []
  plannedEvents := []

def start : State := ⟨monday, [], [], [], [], [], [], []⟩

theorem start_init (zones : String → Option Zone) (emailText : String → String) :
    (planning zones emailText).Init start := by
  simp [planning, Initial, start]

def firstIds (n : Nat) : String := if n = 0 then "rule" else "event"

/-- The rule is shown and activated while the hours are busy. -/
def opening (draft : PlanningDraft) (busy : List Instant) : List Event :=
  [.preview "user" "preview" draft (read monday busy),
    .activate "user" "preview" (read monday busy.reverse) firstIds]

def answered : Conversation := ⟨true, true, .answered, .answered, true⟩

/-- The meeting is at the provider, on Monday at ten. -/
def placed (conflictPolicy : ConflictPolicy) : List Event :=
  opening (meeting conflictPolicy 60) [] ++ [.apply "event" 1 answered]

/-- A reconciliation of the rule while the hours are busy. -/
def pass (now : Instant) (busy : List Instant) : Event :=
  .reconcile "rule" (read now busy) fun _ => "suggestion"

end Sample

end Planipus.Planning

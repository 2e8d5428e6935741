import Planipus.Planning.Verify.Moves
import Planipus.Planning.Verify.Skips

/-!
# Events that no row answers for

A create may take effect although its answer is lost; the row has no `destination_event_id` then
while the event exists. The event is not lost as long as the row looks for it under the ID of its
generation (`OrphanInv.tracked`), which an application does before it writes or deletes. A row that
is closed without an application leaves it behind, and so does a pass that ends before its commit
after it has created an event under a new generation.
-/

namespace Planipus.Planning

open CalendarSync Sync Library

section Orphans

variable {zones : String → Option Zone} {emailText : String → String} {s s' : State} {e : Event}

/-- At the provider there is an event with the markers of the planned event. -/
def hasEvent (s : State) (row : PlannedEvent) : Bool :=
  s.remote.any fun event => event.event.provenance.plannedEventRef = row.id

/-- The statuses of a row that is done with. -/
def PlannedStatus.settled : PlannedStatus → Bool
  | unmet | skipped | deleted => true
  | pendingCreate | pendingUpdate | pendingDelete | converged | held => false

def ruleRemoved (s : State) (row : PlannedEvent) : Bool :=
  s.rules.any fun rule => rule.id = row.ruleId && rule.status = .deleted

/-- A row that is done with, or whose rule is, has no event at the provider, unless it was closed
after its time had passed. -/
def NoOrphans (s : State) : Prop :=
  ∀ row ∈ s.plannedEvents, row.status.settled || ruleRemoved s row → row.id ∉ s.history →
    hasEvent s row = false

instance (s : State) : Decidable (NoOrphans s) := by
  unfold NoOrphans
  infer_instance

/-! ## The condition -/

/-- An event that exists without a `destination_event_id` has a time in the plan, or is over. -/
def plansUnconfirmed (s : State) (_ : PlanningRule) (_ : PlanningDraft) (result : PlanningResult)
    (row : PlannedEvent) : Bool :=
  row.destinationEventId.isSome || row.desiredState.isNone || !hasEvent s row ||
    match occurrenceFor result row with
    | none => eventHasEnded row.desiredState s.clock
    | some occurrence => occurrence.event.isSome

/-- No row is closed without an application while its event exists without a
`destination_event_id`, and an application that creates an event in the place of a vanished one
commits. -/
def LooksFirst (zones : String → Option Zone) (s : State) : Event → Bool
  | .reconcile ruleId read newId =>
    EachRow zones plansUnconfirmed s (.reconcile ruleId read newId)
  | .remove ruleId => (s.eventsOf ruleId).all fun row =>
      row.desiredState.isNone || needsCleanup row s.clock ||
        eventHasEnded row.desiredState s.clock || !hasEvent s row
  | .resolveSuggestion suggestionId .accept _ => s.suggestions.all fun suggestion =>
      suggestion.id ≠ suggestionId || suggestion.proposedState.isSome ||
        s.plannedEvents.all fun row => row.id ≠ suggestion.plannedEventId ||
          row.destinationEventId.isSome || !hasEvent s row
  | .apply plannedEventId _ c => c.committed || !c.write.effective ||
      s.plannedEvents.all fun row => row.id ≠ plannedEventId || row.status = .pendingDelete ||
        row.destinationEventId.isNone || (getPlanningEvent s row.remoteId).isSome
  | _ => true

/-! ## Events and their rows -/

/-- Every event at the provider is where its row looks for it. -/
def Tracked (s : State) : Prop :=
  ∀ event ∈ s.remote, ∃ row ∈ s.plannedEvents,
    event.event.provenance.plannedEventRef = row.id ∧ event.eventId = row.remoteId

theorem hasEvent_eq_false {row : PlannedEvent} :
    hasEvent s row = false ↔ ∀ event ∈ s.remote, event.event.provenance.plannedEventRef ≠ row.id := by
  simp [hasEvent]

/-- An event with the markers of a row is where the row looks. -/
theorem Tracked.eventId (hs : s.Constraints) (h : Tracked s) {event : RemotePlanningEvent}
    {row : PlannedEvent} (hevent : event ∈ s.remote) (hrow : row ∈ s.plannedEvents)
    (href : event.event.provenance.plannedEventRef = row.id) : event.eventId = row.remoteId := by
  obtain ⟨other, hother, hid, heventId⟩ := h event hevent
  have : other = row :=
    List.inj_on_of_nodup_map hs.plannedIds hother hrow (hid.symm.trans href)
  exact this ▸ heventId

/-- The row finds nothing only where there is nothing. -/
theorem Tracked.none_of_lookup (hs : s.Constraints) (h : Tracked s) {row : PlannedEvent}
    (hrow : row ∈ s.plannedEvents) (hnone : getPlanningEvent s row.remoteId = none) :
    hasEvent s row = false := by
  rw [hasEvent_eq_false]
  intro event hevent href
  have heventId := h.eventId hs hevent hrow href
  have := List.find?_eq_none.1 hnone event hevent
  simp [heventId] at this

/-- Rows that keep the ID of their event. -/
theorem RowChange.remoteId {row row' : PlannedEvent} (h : RowChange zones s e row row')
    (he : ∀ plannedEventId expectedIntent c, e ≠ .apply plannedEventId expectedIntent c) :
    row'.remoteId = row.remoteId := by
  have hkeep : ∀ {row' : PlannedEvent}, SameRow row row' ∧
      row'.destinationEventId = row.destinationEventId ∧ row'.generation = row.generation →
      row'.remoteId = row.remoteId := by
    rintro row' ⟨hsame, hdest, hgeneration⟩
    simp only [PlannedEvent.remoteId, hsame.id, hdest, hgeneration]
  cases h with
  | same => rfl
  | reconciled => exact hkeep (reconcileRow_same _ _ _ _)
  | applied => exact absurd rfl (he _ _ _)
  | accepted => exact hkeep (acceptProposal_same _ _)
  | removed => exact hkeep (removeRow_same _ _)

theorem Marked.remoteId {target row : PlannedEvent} (h : Marked target row) :
    row.remoteId = target.remoteId := by
  obtain ⟨status, code, rfl, -⟩ := h
  rfl

theorem Applying.tracked (hs : s.Constraints) (htracked : Tracked s) {target : PlannedEvent}
    (htarget : target ∈ s.plannedEvents) {c : Conversation} {applied : Applied}
    (h : Applying s target c applied) {event : RemotePlanningEvent} (hevent : event ∈ applied.remote)
    (href : event.event.provenance.plannedEventRef = target.id) :
    event.eventId = applied.row.remoteId := by
  have hbefore : event ∈ s.remote → event.eventId = target.remoteId :=
    fun hmem => htracked.eventId hs hmem htarget href
  have hgone : ¬ event ∈ deletePlanningEvent target.remoteId s.remote := by
    intro hmem
    obtain ⟨hmem, hne⟩ := mem_deletePlanningEvent hmem
    exact hne (hbefore hmem)
  cases h with
  | stopped hmark =>
    rw [hmark.remoteId]
    exact hbefore hevent
  | unconfirmed | deleted => exact absurd hevent hgone
  | found => exact hbefore hevent
  | @written base row remote hstatus hbase hrow hremote =>
    have hrowId : row.remoteId = base.remoteId := by
      rcases hrow with hmark | rfl
      · exact hmark.remoteId
      · rfl
    rw [hrowId]
    have hold : event ∈ s.remote → event.eventId = base.remoteId := by
      intro hmem
      rcases hbase with rfl | ⟨-, -, hnone⟩
      · exact hbefore hmem
      · -- The row has found no event under its old generation.
        have := hasEvent_eq_false.1 (htracked.none_of_lookup hs htarget hnone) event hmem
        exact absurd href this
    rcases hremote with rfl | ⟨-, desired, hdesired, rfl⟩
    · exact hold hevent
    · rcases List.mem_append.1 hevent with hmem | hmem
      · exact hold (mem_deletePlanningEvent hmem).1
      · rw [List.mem_singleton.1 hmem]

/-- A row is done with by an application only when its event is gone. -/
theorem Applying.settled (hs : s.Constraints) (htracked : Tracked s) {target : PlannedEvent}
    (htarget : target ∈ s.plannedEvents) (hopen : target.status.settled = false) {c : Conversation}
    {applied : Applied} (h : Applying s target c applied)
    (hsettled : applied.row.status.settled = true) {event : RemotePlanningEvent}
    (hevent : event ∈ applied.remote) : event.event.provenance.plannedEventRef ≠ target.id := by
  have hmarked : ∀ {base row : PlannedEvent}, base.status = target.status → Marked base row →
      row.status.settled = false := by
    rintro base row hstatus ⟨status, code, rfl, rfl | ⟨rfl, -⟩⟩
    · simp only [hstatus, hopen]
    · rfl
  intro href
  cases h with
  | stopped hmark | unconfirmed _ hmark =>
    rw [hmarked rfl hmark] at hsettled
    cases hsettled
  | deleted =>
    obtain ⟨hmem, hne⟩ := mem_deletePlanningEvent hevent
    exact hne (htracked.eventId hs hmem htarget href)
  | found => cases hsettled
  | @written base row remote hstatus hbase hrow hremote =>
    have hbaseStatus : base.status = target.status := by
      rcases hbase with rfl | ⟨rfl, -⟩ <;> rfl
    rcases hrow with hmark | rfl
    · rw [hmarked hbaseStatus hmark] at hsettled
      cases hsettled
    · cases hsettled

/-- A pass that does not commit leaves the events where the old row looks, unless it has created one
under a new generation. -/
theorem Applying.tracked_rollback (hs : s.Constraints) (htracked : Tracked s) {target : PlannedEvent}
    (htarget : target ∈ s.plannedEvents) {c : Conversation} {applied : Applied}
    (h : Applying s target c applied)
    (hguard : c.write.effective = false ∨ target.status = .pendingDelete ∨
      target.destinationEventId = none ∨ (getPlanningEvent s target.remoteId).isSome)
    {event : RemotePlanningEvent} (hevent : event ∈ applied.remote)
    (href : event.event.provenance.plannedEventRef = target.id) :
    event.eventId = target.remoteId := by
  have hbefore : event ∈ s.remote → event.eventId = target.remoteId :=
    fun hmem => htracked.eventId hs hmem htarget href
  cases h with
  | stopped | found => exact hbefore hevent
  | unconfirmed | deleted => exact hbefore (mem_deletePlanningEvent hevent).1
  | @written base row remote hstatus hbase hrow hremote =>
    rcases hremote with rfl | ⟨heffect, desired, hdesired, rfl⟩
    · exact hbefore hevent
    · rcases List.mem_append.1 hevent with hmem | hmem
      · exact hbefore (mem_deletePlanningEvent hmem).1
      · rw [List.mem_singleton.1 hmem]
        rcases hbase with rfl | ⟨-, hdest, hnone⟩
        · rfl
        · simp [heffect, hstatus, hnone, Option.isSome_iff_ne_none.1 hdest] at hguard

theorem Effect.tracked (hs : s.Constraints) (hcoherent : ∀ row ∈ s.plannedEvents, Coherent row)
    (htracked : Tracked s) (he : LooksFirst zones s e = true)
    (h : Effect zones emailText s e s') : Tracked s' := by
  have hkept : s'.remote = s.remote →
      (∀ plannedEventId expectedIntent c, e ≠ .apply plannedEventId expectedIntent c) →
      Tracked s' := by
    intro hremote hother event hevent
    rw [hremote] at hevent
    obtain ⟨row, hrow, href, hid⟩ := htracked event hevent
    obtain ⟨row', hrow', hchange⟩ := h.row hs hrow
    exact ⟨row', hrow', href.trans hchange.same_row.id.symm, hid.trans (hchange.remoteId hother).symm⟩
  cases h with
  | @applied plannedEventId expectedIntent c target rule applied happlies hconverse =>
    obtain ⟨htarget, htargetId⟩ := find?_key happlies.findRow
    have happlying := converse_cases hconverse
    intro event hevent
    rw [applied_remote] at hevent
    by_cases href : event.event.provenance.plannedEventRef = target.id
    · cases hcommitted : c.committed with
      | true =>
        refine ⟨applied.row, ?_, href.trans happlying.same.id.symm,
          happlying.tracked hs htracked htarget hevent href⟩
        rw [applied_plannedEvents]
        exact mem_updateRow_of_mem htarget rfl
      | false =>
        refine ⟨target, htarget, href,
          happlying.tracked_rollback hs htracked htarget ?_ hevent href⟩
        simp only [LooksFirst, hcommitted, Bool.false_or, Bool.or_eq_true, Bool.not_eq_true',
          List.all_eq_true, decide_eq_true_eq, ne_eq, Option.isNone_iff_eq_none] at he
        rcases he with heffect | hrow
        · exact Or.inl heffect
        · rcases hrow target htarget with ((hne | hdelete) | hnone) | hfound
          · exact absurd htargetId hne
          · exact Or.inr (Or.inl hdelete)
          · exact Or.inr (Or.inr (Or.inl hnone))
          · exact Or.inr (Or.inr (Or.inr hfound))
    · have hbefore : event ∈ s.remote := by
        rcases happlying.remote (hcoherent target htarget) hevent with hmem | ⟨-, hid⟩
        · exact hmem
        · exact absurd hid href
      obtain ⟨row, hrow, hrowRef, hid⟩ := htracked event hbefore
      refine ⟨row, ?_, hrowRef, hid⟩
      have hne : row.id ≠ target.id := fun heq => href (hrowRef.trans heq)
      cases hcommitted : c.committed with
      | true =>
        rw [applied_plannedEvents]
        exact mem_updateRow_of_ne hrow hne
      | false => exact hrow
  | idle => exact htracked
  | tick | previewed | activated | reconciled | accepted | dismissed | expired | paused | removed =>
    exact hkept rfl (by simp)

/-! ## Rows that are done with -/

structure OrphanInv (s : State) : Prop where
  tracked : Tracked s
  settled : ∀ row ∈ s.plannedEvents, row.status.settled = true → row.id ∉ s.history →
    hasEvent s row = false
  bases : BasesPresent s.suggestions
  /-- The rows of a rule that is being removed want no event, and none is left to be deleted once
  it is removed. -/
  removal : ∀ rule ∈ s.rules, rule.status = .deleting ∨ rule.status = .deleted →
    ∀ row ∈ s.plannedEvents, row.ruleId = rule.id →
      Unwanted row ∧ (rule.status = .deleted → row.status ≠ .pendingDelete)

theorem settled_of_closed {status : PlannedStatus} (h : status.closed = true)
    (hne : status ≠ .pendingDelete) : status.settled = true := by
  cases status <;> simp_all [PlannedStatus.closed, PlannedStatus.settled]

theorem closed_of_settled {status : PlannedStatus} (h : status.settled = true) :
    status.closed = true := by
  cases status <;> simp_all [PlannedStatus.closed, PlannedStatus.settled]

/-- A row without a desired state is closed. -/
theorem closed_of_none {row : PlannedEvent} (hchecked : row.Checked)
    (h : row.desiredState = none) : row.status.closed = true := by
  by_contra hopen
  unfold PlannedEvent.Checked at hchecked
  rw [if_neg hopen, h] at hchecked
  exact absurd hchecked.1 (by simp)

theorem none_of_settled {row : PlannedEvent} (hchecked : row.Checked)
    (h : row.status.settled = true) : row.desiredState = none := by
  unfold PlannedEvent.Checked at hchecked
  rwa [if_pos (closed_of_settled h)] at hchecked

/-- What a row that is not recorded as history was not. -/
theorem not_mem_reconcileHistory (hs : s.Constraints) {ruleId : String} {draft : PlanningDraft}
    {result : PlanningResult} {row : PlannedEvent} (hrow : row ∈ s.plannedEvents)
    (hnone : row.ruleId = ruleId → (reconcileRow draft result s.clock row).desiredState = none)
    (h : row.id ∉ reconcileHistory s ruleId draft result) :
    row.id ∉ s.history ∧ (row.ruleId = ruleId → occurrenceFor result row = none →
      row.status ≠ .pendingDelete → eventHasEnded row.desiredState s.clock = false) := by
  have hrevived : row.id ∉ ((s.eventsOf ruleId).filter fun row =>
      (reconcileRow draft result s.clock row).desiredState.isSome).map (·.id) := by
    intro hmem
    obtain ⟨other, hother, hid⟩ := List.mem_map.1 hmem
    obtain ⟨hof, hsome⟩ := List.mem_filter.1 hother
    obtain ⟨hin, hrule⟩ := List.mem_filter.1 hof
    have : other = row := List.inj_on_of_nodup_map hs.plannedIds hin hrow hid
    subst this
    rw [hnone (of_decide_eq_true hrule)] at hsome
    cases hsome
  have hnot : row.id ∉ s.history ++ ((s.eventsOf ruleId).filter fun row =>
      (occurrenceFor result row).isNone && row.status ≠ .pendingDelete &&
        eventHasEnded row.desiredState s.clock).map (·.id) := by
    intro hmem
    exact h (List.mem_filter.2 ⟨hmem, decide_eq_true hrevived⟩)
  rw [List.mem_append, not_or] at hnot
  refine ⟨hnot.1, ?_⟩
  intro hrule hocc hstatus
  by_contra hended
  rw [Bool.not_eq_false] at hended
  refine hnot.2 (List.mem_map.2 ⟨row, List.mem_filter.2 ⟨?_, ?_⟩, rfl⟩)
  · exact List.mem_filter.2 ⟨hrow, decide_eq_true hrule⟩
  · simp [hocc, hstatus, hended]

/-- A write without a desired state is for a row that has no event, or had none before. -/
theorem updateOutcome_unmet {draft : PlanningDraft} {occurrence : PlannedOccurrenceTemplate}
    {now : Instant} {row : PlannedEvent} (hcoherent : Coherent row)
    (h : updateOutcome draft row occurrence now = .write) (hevent : occurrence.event = none) :
    (row.desiredState = none → row.status = .unmet) ∧
      (draft.kind = .smartMeeting → row.destinationEventId = none) := by
  have hdesired : desiredFor draft row occurrence = none := by simp [desiredFor, hevent]
  constructor
  · intro hnone
    by_contra hne
    have hsame : (desiredFor draft row occurrence).map sha256Canonical = row.desiredHash := by
      rw [hcoherent.hash, hnone, hdesired]
    cases Decided.of_eq h with
    | write hskipped hdiffers hmoving => exact hdiffers ⟨hsame, hne⟩
  · exact updateOutcome_unwritten h hevent

theorem OrphanInv.reconcileRow (hs : s.Constraints) (h : OrphanInv s) {row : PlannedEvent}
    (hrow : row ∈ s.plannedEvents) (hcoherent : Coherent row) {rule : PlanningRule}
    {draft : PlanningDraft} {result : PlanningResult}
    (hboundary : draft.kind ≠ .smartMeeting → ∀ occurrence ∈ result.occurrences,
      occurrence.event.isSome)
    (hplans : plansUnconfirmed s rule draft result row = true)
    (hsettled : (reconcileRow draft result s.clock row).status.settled = true)
    (hhistory : row.id ∉ s.history)
    (hended : occurrenceFor result row = none → row.status ≠ .pendingDelete →
      eventHasEnded row.desiredState s.clock = false) :
    hasEvent s row = false := by
  have hchecked := hs.checked row hrow
  have hbefore : row.status.settled = true → hasEvent s row = false :=
    fun hsettled => h.settled row hrow hsettled hhistory
  simp only [plansUnconfirmed, Bool.or_eq_true, Bool.not_eq_true'] at hplans
  unfold Planning.reconcileRow at hsettled
  cases hocc : occurrenceFor result row with
  | none =>
    rw [hocc] at hplans hsettled
    simp only at hplans hsettled
    unfold closeStale at hsettled
    split at hsettled
    · exact hbefore hsettled
    · rename_i hstatus
      have hopen := hended hocc hstatus
      simp only [hopen, Bool.false_eq_true, if_false] at hsettled
      split at hsettled
      · split at hsettled
        · exact hbefore hsettled
        · cases hsettled
      · rename_i hdest
        rcases hplans with ((hsome | hnone) | hgone) | hover
        · exact absurd hsome hdest
        · rw [Option.isNone_iff_eq_none] at hnone
          exact hbefore (settled_of_closed (closed_of_none hchecked hnone) hstatus)
        · exact hgone
        · rw [hopen] at hover
          cases hover
  | some occurrence =>
    rw [hocc] at hplans hsettled
    simp only at hplans hsettled
    unfold updateOccurrence at hsettled
    cases hout : updateOutcome draft row occurrence s.clock with
    | unchanged | suggestion =>
      rw [hout] at hsettled
      exact hbefore hsettled
    | retry =>
      rw [hout] at hsettled
      simp only [pendingWrite] at hsettled
      split at hsettled <;> cases hsettled
    | lock | keep | noTime =>
      rw [hout] at hsettled
      cases hsettled
    | write =>
      rw [hout] at hsettled
      cases hevent : occurrence.event with
      | some event =>
        simp only [writeRow, desiredFor, hevent, Option.map_some, Option.isSome_some, if_true,
          pendingWrite] at hsettled
        split at hsettled <;> cases hsettled
      | none =>
        obtain ⟨hunmet, hdest⟩ := updateOutcome_unmet hcoherent hout hevent
        have hkind : draft.kind = .smartMeeting := by
          by_contra hne
          have := hboundary hne occurrence (List.mem_of_find?_eq_some hocc)
          rw [hevent] at this
          cases this
        rw [hdest hkind, hevent] at hplans
        rcases hplans with ((hsome | hnone) | hgone) | hsome
        · cases hsome
        · rw [Option.isNone_iff_eq_none] at hnone
          refine hbefore ?_
          rw [hunmet hnone]
          rfl
        · exact hgone
        · cases hsome

theorem OrphanInv.removeRow (hs : s.Constraints) (h : OrphanInv s) {row : PlannedEvent}
    (hrow : row ∈ s.plannedEvents)
    (hlooks : (row.desiredState.isNone || needsCleanup row s.clock ||
      eventHasEnded row.desiredState s.clock || !hasEvent s row) = true)
    (hsettled : (removeRow s.clock row).status.settled = true) (hhistory : row.id ∉ s.history)
    (hended : needsCleanup row s.clock = false → eventHasEnded row.desiredState s.clock = false) :
    hasEvent s row = false := by
  unfold Planning.removeRow at hsettled
  split at hsettled
  · cases hsettled
  · rename_i hclean
    rw [Bool.not_eq_true] at hclean
    rw [hclean, hended hclean, Bool.or_false, Bool.or_false] at hlooks
    rcases (Bool.or_eq_true _ _).mp hlooks with hnone | hgone
    · rw [Option.isNone_iff_eq_none] at hnone
      have hstatus : row.status ≠ .pendingDelete := by
        intro hdelete
        simp [needsCleanup, hdelete] at hclean
      exact h.settled row hrow
        (settled_of_closed (closed_of_none (hs.checked row hrow) hnone) hstatus) hhistory
    · simpa using hgone

theorem removed_history {ruleId : String} {row : PlannedEvent} (hrow : row ∈ s.plannedEvents)
    (h : row.id ∉ (s.removed ruleId).history) :
    row.id ∉ s.history ∧ (row.ruleId = ruleId → needsCleanup row s.clock = false →
      eventHasEnded row.desiredState s.clock = false) := by
  have hnot : row.id ∉ s.history ++ ((s.eventsOf ruleId).filter fun row =>
      eventHasEnded row.desiredState s.clock && !needsCleanup row s.clock).map (·.id) := h
  rw [List.mem_append, not_or] at hnot
  refine ⟨hnot.1, ?_⟩
  intro hrule hclean
  by_contra hended
  rw [Bool.not_eq_false] at hended
  refine hnot.2 (List.mem_map.2 ⟨row, List.mem_filter.2 ⟨?_, ?_⟩, rfl⟩)
  · exact List.mem_filter.2 ⟨hrow, decide_eq_true hrule⟩
  · simp [hended, hclean]

/-- A row of the state before that is done with after an event which sends nothing. -/
theorem OrphanInv.row_settled (hs : s.Constraints) (hcoherent : ∀ row ∈ s.plannedEvents, Coherent row)
    (h : OrphanInv s) (he : LooksFirst zones s e = true) (heffect : Effect zones emailText s e s')
    (hs' : s'.Constraints)
    (hother : ∀ plannedEventId expectedIntent c, e ≠ .apply plannedEventId expectedIntent c)
    {row row' : PlannedEvent} (hrow : row ∈ s.plannedEvents) (hrow' : row' ∈ s'.plannedEvents)
    (hid : row'.id = row.id) (hsettled : row'.status.settled = true)
    (hhistory : row.id ∉ s'.history) : hasEvent s row = false := by
  have hnone := none_of_settled (hs'.checked row' hrow') hsettled
  have hunique : ∀ {row'' : PlannedEvent}, row'' ∈ s'.plannedEvents → row''.id = row.id →
      row' = row'' := by
    intro row'' hmem hid''
    exact List.inj_on_of_nodup_map hs'.plannedIds hrow' hmem (hid.trans hid''.symm)
  cases heffect with
  | idle | tick | previewed | dismissed | expired | paused =>
    rw [hunique hrow rfl] at hsettled
    exact h.settled row hrow hsettled hhistory
  | activated =>
    rw [hunique (List.mem_append_left _ hrow) rfl] at hsettled
    exact h.settled row hrow hsettled hhistory
  | @reconciled ruleId read newId rule draft result hrule hactive hplan hc =>
    have hruleId : rule.id = ruleId := (find?_key hrule).2
    have hmem : (if row.ruleId = rule.id then Planning.reconcileRow draft result s.clock row else row) ∈
        (s.reconciled rule draft result newId).plannedEvents :=
      List.mem_append_left _ (List.mem_map_of_mem hrow)
    by_cases hof : row.ruleId = rule.id
    · rw [if_pos hof] at hmem
      have heq := hunique hmem (reconcileRow_same _ _ _ _).1.id
      rw [heq] at hsettled hnone
      obtain ⟨hbefore, hended⟩ := not_mem_reconcileHistory hs hrow (fun _ => hnone) hhistory
      have heach : EachRow zones plansUnconfirmed s (.reconcile ruleId read newId) = true := he
      have hplans := EachRow.row heach hrule hactive hplan hrow (hof.trans hruleId)
      exact h.reconcileRow hs hrow (hcoherent row hrow)
        (fun hkind => planForReconcile_boundary hplan hkind) hplans hsettled hbefore (hended hof)
    · rw [if_neg hof] at hmem
      rw [hunique hmem rfl] at hsettled
      obtain ⟨hbefore, -⟩ :=
        not_mem_reconcileHistory hs hrow (fun hrule => absurd hrule hof) hhistory
      exact h.settled row hrow hsettled hbefore
  | applied => exact absurd rfl (hother _ _ _)
  | @accepted suggestionId read suggestion rule target haccepts hc =>
    by_cases hof : row.id = suggestion.plannedEventId
    · have hmem : acceptProposal suggestion.proposedState row ∈
          (s.accepted suggestion).plannedEvents := mem_updateRow_of_mem hrow hof
      rw [hunique hmem (acceptProposal_same _ _).1.id] at hsettled
      cases hproposed : suggestion.proposedState with
      | some event =>
        simp only [acceptProposal, hproposed] at hsettled
        split at hsettled <;> cases hsettled
      | none =>
        simp only [acceptProposal, hproposed] at hsettled
        split at hsettled
        · cases hsettled
        · rename_i hdest
          obtain ⟨hsmem, hsid⟩ := find?_key haccepts.findSuggestion
          simp only [LooksFirst, List.all_eq_true, Bool.or_eq_true, decide_eq_true_eq] at he
          rcases he suggestion hsmem with (hne | hsome) | hrows
          · exact absurd hsid hne
          · rw [hproposed] at hsome
            cases hsome
          · rcases hrows row hrow with (hne | hdest') | hgone
            · exact absurd hof hne
            · exact absurd hdest' hdest
            · simpa using hgone
    · have hmem : row ∈ (s.accepted suggestion).plannedEvents := mem_updateRow_of_ne hrow hof
      rw [hunique hmem rfl] at hsettled
      exact h.settled row hrow hsettled hhistory
  | @removed ruleId hc =>
    obtain ⟨hbefore, hended⟩ := removed_history hrow hhistory
    have hmem : (if row.ruleId = ruleId then Planning.removeRow s.clock row else row) ∈
        (s.removed ruleId).plannedEvents := List.mem_map_of_mem hrow
    by_cases hof : row.ruleId = ruleId
    · rw [if_pos hof] at hmem
      rw [hunique hmem (removeRow_same _ _).1.id] at hsettled
      have hlooks := List.all_eq_true.1 he row (List.mem_filter.2 ⟨hrow, decide_eq_true hof⟩)
      exact h.removeRow hs hrow hlooks hsettled hbefore (hended hof)
    · rw [if_neg hof] at hmem
      rw [hunique hmem rfl] at hsettled
      exact h.settled row hrow hsettled hbefore

theorem OrphanInv.step_settled (hs : s.Constraints)
    (hcoherent : ∀ row ∈ s.plannedEvents, Coherent row) (h : OrphanInv s)
    (he : LooksFirst zones s e = true) (heffect : Effect zones emailText s e s')
    (hs' : s'.Constraints) {row' : PlannedEvent} (hrow' : row' ∈ s'.plannedEvents)
    (hsettled : row'.status.settled = true) (hhistory : row'.id ∉ s'.history) :
    hasEvent s' row' = false := by
  have hquiet : s'.remote = s.remote →
      (∀ plannedEventId expectedIntent c, e ≠ .apply plannedEventId expectedIntent c) →
      hasEvent s' row' = false := by
    intro hremote hother
    rw [hasEvent_eq_false, hremote]
    intro event hevent href
    obtain ⟨row, hrow, hrowRef, -⟩ := h.tracked event hevent
    have hid : row'.id = row.id := href.symm.trans hrowRef
    have hnone := h.row_settled hs hcoherent he heffect hs' hother hrow hrow' hid hsettled
      (hid ▸ hhistory)
    exact hasEvent_eq_false.1 hnone event hevent hrowRef
  cases heffect with
  | @applied plannedEventId expectedIntent c target rule applied happlies hconverse =>
    obtain ⟨htarget, htargetId⟩ := find?_key happlies.findRow
    have happlying := converse_cases hconverse
    have hopen : target.status.settled = false := by
      have := happlies.pending
      cases hstatus : target.status <;> simp_all [PlannedStatus.pending, PlannedStatus.settled]
    rw [applied_history] at hhistory
    rw [hasEvent_eq_false, applied_remote]
    intro event hevent href
    cases hcommitted : c.committed with
    | true =>
      rw [hcommitted, applied_plannedEvents] at hrow'
      rcases mem_updateRow hrow' with ⟨_, -, -, rfl⟩ | ⟨hrow, hne⟩
      · exact happlying.settled hs h.tracked htarget hopen hsettled hevent
          (href.trans happlying.same.id)
      · rcases happlying.remote (hcoherent target htarget) hevent with hmem | ⟨-, hid⟩
        · exact hasEvent_eq_false.1 (h.settled row' hrow hsettled hhistory) event hmem href
        · exact hne (href.symm.trans hid)
    | false =>
      rw [hcommitted] at hrow'
      have hne : row'.id ≠ target.id := by
        intro hid
        rw [List.inj_on_of_nodup_map hs.plannedIds hrow' htarget hid, hopen] at hsettled
        cases hsettled
      rcases happlying.remote (hcoherent target htarget) hevent with hmem | ⟨-, hid⟩
      · exact hasEvent_eq_false.1 (h.settled row' hrow' hsettled hhistory) event hmem href
      · exact hne (href.symm.trans hid)
  | idle => exact h.settled row' hrow' hsettled hhistory
  | tick | previewed | activated | reconciled | accepted | dismissed | expired | paused | removed =>
    exact hquiet rfl (by simp)

/-! ## Rules that are removed -/

/-- The rules after an application: one of them may be deleted, once no row of it is left to be
deleted. -/
theorem mem_applied_rules {rule rule' : PlanningRule} {target : PlannedEvent} {applied : Applied}
    {committed : Bool} (h : rule' ∈ (s.applied rule target applied committed).rules) :
    rule' ∈ s.rules ∨ (rule.status = .deleting ∧ rule'.id = rule.id ∧
      ∀ row ∈ (s.applied rule target applied committed).plannedEvents, row.ruleId = rule'.id →
        row.status ≠ .pendingDelete) := by
  cases committed with
  | false => exact Or.inl h
  | true =>
    unfold State.applied at h ⊢
    simp only [if_true] at h ⊢
    split at h
    · rename_i hdone
      rw [if_pos hdone]
      unfold finishRemoval at h ⊢
      split at h
      · exact Or.inl h
      · rename_i hnone
        rw [if_neg hnone]
        rcases mem_updateRow h with ⟨before, hbefore, hid, rfl⟩ | ⟨hmem, -⟩
        · refine Or.inr ⟨hdone.2.2, hid, ?_⟩
          intro row hrow hof hstatus
          refine hnone (List.any_eq_true.2 ⟨row, List.mem_filter.2 ⟨hrow, ?_⟩, ?_⟩)
          · exact decide_eq_true (hof.trans hid)
          · exact decide_eq_true hstatus
        · exact Or.inl hmem
    · exact Or.inl h

/-- A rule is under removal since before, or it is removed by this event. -/
theorem Effect.removal (h : Effect zones emailText s e s') {rule' : PlanningRule}
    (hrule' : rule' ∈ s'.rules)
    (hremoval : rule'.status = .deleting ∨ rule'.status = .deleted) :
    s' = s.removed rule'.id ∨ ∃ rule ∈ s.rules, rule.id = rule'.id ∧
      (rule.status = .deleting ∨ rule.status = .deleted) ∧
      (rule'.status = .deleted → rule.status = .deleted ∨
        ∀ row ∈ s'.plannedEvents, row.ruleId = rule'.id → row.status ≠ .pendingDelete) := by
  have hkept : rule' ∈ s.rules → s' = s.removed rule'.id ∨ ∃ rule ∈ s.rules, rule.id = rule'.id ∧
      (rule.status = .deleting ∨ rule.status = .deleted) ∧
      (rule'.status = .deleted → rule.status = .deleted ∨
        ∀ row ∈ s'.plannedEvents, row.ruleId = rule'.id → row.status ≠ .pendingDelete) :=
    fun hmem => Or.inr ⟨rule', hmem, rfl, hremoval, Or.inl⟩
  cases h with
  | idle | tick | previewed | reconciled | accepted | dismissed | expired => exact hkept hrule'
  | activated =>
    rcases List.mem_append.1 hrule' with hmem | hmem
    · exact hkept hmem
    · rw [List.mem_singleton.1 hmem] at hremoval
      rcases hremoval with hstatus | hstatus <;> cases hstatus
  | @applied plannedEventId expectedIntent c target rule applied happlies hconverse =>
    rcases mem_applied_rules hrule' with hmem | ⟨hdeleting, hid, hrows⟩
    · exact hkept hmem
    · exact Or.inr ⟨rule, (find?_key happlies.findRule).1, hid.symm, Or.inl hdeleting,
        fun _ => Or.inr hrows⟩
  | @paused ruleId paused hpaused =>
    rcases mem_updateRow hrule' with ⟨before, -, -, rfl⟩ | ⟨hmem, -⟩
    · cases paused <;> simp at hremoval
    · exact hkept hmem
  | @removed ruleId hc =>
    rcases mem_updateRow hrule' with ⟨before, -, hid, rfl⟩ | ⟨hmem, -⟩
    · exact Or.inl (congrArg s.removed hid.symm)
    · exact hkept hmem

/-- A row of a rule under removal stays without a desired state, and stays closed once the rule is
deleted. -/
theorem OrphanInv.row_removal (hs : s.Constraints)
    (hcoherent : ∀ row ∈ s.plannedEvents, Coherent row) (h : OrphanInv s) {rule : PlanningRule}
    (hrule : rule ∈ s.rules) (hremoval : rule.status = .deleting ∨ rule.status = .deleted)
    {row row' : PlannedEvent} (hrow : row ∈ s.plannedEvents) (hof : row.ruleId = rule.id)
    (hchange : RowChange zones s e row row') :
    Unwanted row' ∧ (rule.status = .deleted → row'.status ≠ .pendingDelete) := by
  obtain ⟨hunwanted, hclosed⟩ := h.removal rule hrule hremoval row hrow hof
  cases hchange with
  | same => exact ⟨hunwanted, hclosed⟩
  | @reconciled ruleId read newId active draft result _ hfind hactive hplan hrowRule =>
    obtain ⟨hmem, hid⟩ := find?_key hfind
    have : active = rule :=
      List.inj_on_of_nodup_map hs.ruleIds hmem hrule (hid.trans (hrowRule.symm.trans hof))
    rw [← this, hactive] at hremoval
    rcases hremoval with hstatus | hstatus <;> cases hstatus
  | applied happlies happlying =>
    refine ⟨hunwanted.applying happlies.pending happlying, fun hdeleted => ?_⟩
    exact absurd (hunwanted.pendingDelete happlies.pending) (hclosed hdeleted)
  | accepted haccepts =>
    exact absurd hunwanted.1 (haccepts.desired_ne_none h.bases (hcoherent row hrow))
  | removed =>
    refine ⟨.removeRow _ _, fun hdeleted => ?_⟩
    have hclean : needsCleanup row s.clock = false := by
      simp [needsCleanup, hclosed hdeleted, hunwanted.1]
    simp [Planning.removeRow, hclean]

theorem OrphanInv.step_removal (hs : s.Constraints)
    (hcoherent : ∀ row ∈ s.plannedEvents, Coherent row) (h : OrphanInv s)
    (heffect : Effect zones emailText s e s') (hs' : s'.Constraints) {rule' : PlanningRule}
    (hrule' : rule' ∈ s'.rules) (hremoval : rule'.status = .deleting ∨ rule'.status = .deleted)
    {row' : PlannedEvent} (hrow' : row' ∈ s'.plannedEvents) (hof : row'.ruleId = rule'.id) :
    Unwanted row' ∧ (rule'.status = .deleted → row'.status ≠ .pendingDelete) := by
  rcases heffect.removal hrule' hremoval with rfl | ⟨rule, hrule, hid, hbefore, hdone⟩
  · obtain ⟨row, hrow, heq⟩ := List.mem_map.1 hrow'
    have hrowOf : row.ruleId = rule'.id := by
      by_contra hne
      rw [if_neg hne] at heq
      exact hne (heq ▸ hof)
    rw [if_pos hrowOf] at heq
    subst heq
    refine ⟨.removeRow _ _, fun hdeleted => ?_⟩
    have hclean : needsCleanup row s.clock = false := by
      by_contra hclean
      rw [Bool.not_eq_false] at hclean
      have hcount : (s.eventsOf rule'.id).countP (needsCleanup · s.clock) ≠ 0 := by
        rw [Nat.ne_zero_iff_zero_lt, List.countP_pos_iff]
        exact ⟨row, List.mem_filter.2 ⟨hrow, decide_eq_true hrowOf⟩, hclean⟩
      rcases mem_updateRow hrule' with ⟨before, -, -, heq⟩ | ⟨-, hne⟩
      · rw [heq, if_neg hcount] at hdeleted
        cases hdeleted
      · exact hne rfl
    simp [Planning.removeRow, hclean]
  · rcases heffect.row_of_mem hs hrow' with
      ⟨row, hrow, hchange⟩ | ⟨active, hactive, hstatus, newId, draft, occurrence, rfl⟩
    · have hrowOf : row.ruleId = rule.id :=
        (hchange.same_row.ruleId.symm.trans hof).trans hid.symm
      obtain ⟨hunwanted, hclosed⟩ :=
        h.row_removal hs hcoherent hrule hbefore hrow hrowOf hchange
      refine ⟨hunwanted, fun hdeleted => ?_⟩
      rcases hdone hdeleted with hdeleted | hrows
      · exact hclosed hdeleted
      · exact hrows row' hrow' hof
    · have : active = rule' := List.inj_on_of_nodup_map hs'.ruleIds hactive hrule' hof
      rw [← this, hstatus] at hremoval
      rcases hremoval with hdeleting | hdeleted
      · cases hdeleting
      · cases hdeleted

/-! ## Runs -/

theorem OrphanInv.step (hs : s.Constraints) (hcoherent : ∀ row ∈ s.plannedEvents, Coherent row)
    (h : OrphanInv s) (he : LooksFirst zones s e = true)
    (heffect : Effect zones emailText s e s') : OrphanInv s' where
  tracked := heffect.tracked hs hcoherent h.tracked he
  settled _ hrow' hsettled hhistory :=
    h.step_settled hs hcoherent he heffect (heffect.constraints hs) hrow' hsettled hhistory
  bases := heffect.basesPresent hs h.bases
  removal _ hrule' hremoval _ hrow' hof :=
    h.step_removal hs hcoherent heffect (heffect.constraints hs) hrule' hremoval hrow' hof

theorem orphanInv_of_reachable
    (h : (planning zones emailText).Reachable (fun s e => LooksFirst zones s e) s) :
    OrphanInv s := by
  refine h.invariant_reachable ?_ ?_
  · rintro s ⟨-, hrules, hrows, hsuggestions, hremote, -⟩
    constructor
    · simp [Tracked, hremote]
    · simp [hrows]
    · simp [BasesPresent, hsuggestions]
    · simp [hrules]
  · intro t e ht hinv he
    exact hinv.step (constraints_of_reachable ht) (coherent_of_reachable ht) he
      (step_effect zones emailText t e)

/-- **No orphaned events** in a run whose events meet `LooksFirst`. -/
theorem noOrphans_of_looksFirst
    (hs : (planning zones emailText).Reachable (fun s e => LooksFirst zones s e) s) :
    NoOrphans s := by
  have hinv := orphanInv_of_reachable hs
  intro row hrow hdone hhistory
  refine hinv.settled row hrow ?_ hhistory
  rcases (Bool.or_eq_true _ _).mp hdone with hsettled | hremoved
  · exact hsettled
  · obtain ⟨rule, hrule, hmatch⟩ := List.any_eq_true.1 hremoved
    rw [Bool.and_eq_true, decide_eq_true_eq, decide_eq_true_eq] at hmatch
    obtain ⟨hunwanted, hclosed⟩ :=
      hinv.removal rule hrule (Or.inr hmatch.2) row hrow hmatch.1.symm
    rcases hunwanted.2 with hstatus | hstatus | hstatus
    · exact absurd hstatus (hclosed hmatch.2)
    · rw [hstatus]
      rfl
    · rw [hstatus]
      rfl

/-- The event is created and the answer is lost. -/
def Sample.unacknowledged : List Event :=
  Sample.opening (Sample.meeting .suggest 60) [] ++
    [.apply "event" 1 ⟨true, true, .answered, .lost true, true⟩]

/-- The rule is removed before the next attempt, which finds the event and deletes it. -/
theorem noOrphans_removed :
    ((planning Sample.zones id).run Sample.start (Sample.unacknowledged ++
      [.remove "rule", .apply "event" 2 Sample.answered])).plannedEvents.map (·.status) =
        [.deleted] ∧
    NoOrphans ((planning Sample.zones id).run Sample.start (Sample.unacknowledged ++
      [.remove "rule", .apply "event" 2 Sample.answered])) := by
  have hadmits : (planning Sample.zones id).Admits
      (fun s e => LooksFirst Sample.zones s e = true) Sample.start (Sample.unacknowledged ++
        [.remove "rule", .apply "event" 2 Sample.answered]) := by decide +kernel
  have hreachable : (planning Sample.zones id).Reachable
      (fun s e => LooksFirst Sample.zones s e) ((planning Sample.zones id).run Sample.start
        (Sample.unacknowledged ++ [.remove "rule", .apply "event" 2 Sample.answered])) :=
    ⟨Sample.start, Sample.start_init _ _, Machine.leads_run _ _ hadmits⟩
  exact ⟨by decide +kernel, noOrphans_of_looksFirst hreachable⟩

/-- The hours are taken before the next attempt, and the row is closed although its event exists. -/
theorem not_noOrphans_unmet :
    (planning Sample.zones id).Reachable (fun _ _ => True)
      ((planning Sample.zones id).run Sample.start
        (Sample.unacknowledged ++ [Sample.pass Sample.monday Sample.full])) ∧
    ¬ NoOrphans ((planning Sample.zones id).run Sample.start
      (Sample.unacknowledged ++ [Sample.pass Sample.monday Sample.full])) :=
  ⟨⟨Sample.start, Sample.start_init _ _, Machine.leads_run_free _ _⟩, by decide +kernel⟩

end Orphans

end Planipus.Planning

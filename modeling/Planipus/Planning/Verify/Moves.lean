import Planipus.Planning.Verify.Steps

/-!
# Moves of existing events

A planned event that is at the provider is moved by the last case of `updateOccurrence`
(`Outcome.write`). Two laws say when that must not happen: a rule with the policy `suggest` moves an
event only when its suggestion is accepted, and a meeting that has started stays where it is.

The code keeps them in part. A suggestion is made for a converged row only, so a row that was held
near its start, or whose accepted change is still pending, is moved without one. The no-move window
ends with the start, so a meeting that has started is moved like any other.
-/

namespace Planipus.Planning

open CalendarSync Sync Library

section Moves

variable {zones : String → Option Zone} {emailText : String → String} {s : State} {e : Event}

/-! ## Times -/

@[simp] theorem heldAs_timing (row : PlannedEvent) (reasonCode safeErrorCode : String) :
    (heldAs row reasonCode safeErrorCode).timing = row.timing := rfl

theorem writeRow_timing (desired : Option ManagedPlanningEvent) (reasonCode : String)
    (row : PlannedEvent) :
    (writeRow desired reasonCode row).timing = desired.map fun event => event.timing := by
  simp only [writeRow, PlannedEvent.timing, Option.map_map]
  rfl

theorem desiredFor_timing (draft : PlanningDraft) (row : PlannedEvent)
    (occurrence : PlannedOccurrenceTemplate) :
    ((desiredFor draft row occurrence).map fun event => event.timing) =
      occurrence.event.map fun event => event.timing := by
  simp only [desiredFor, Option.map_map]
  rfl

/-- Only a write gives a row another time. -/
theorem updateOccurrence_timing (draft : PlanningDraft) (occurrence : PlannedOccurrenceTemplate)
    (now : Instant) (row : PlannedEvent) :
    (updateOccurrence draft occurrence now row).timing = row.timing ∨
      (updateOutcome draft row occurrence now = .write ∧
        (updateOccurrence draft occurrence now row).timing =
          occurrence.event.map fun event => event.timing) := by
  unfold updateOccurrence
  cases hout : updateOutcome draft row occurrence now with
  | unchanged | retry | lock | suggestion | keep | noTime => exact Or.inl rfl
  | write => exact Or.inr ⟨rfl, by rw [writeRow_timing, desiredFor_timing]⟩

/-- What has been ruled out where an existing smart meeting is written. -/
theorem updateOutcome_write {draft : PlanningDraft} {occurrence : PlannedOccurrenceTemplate}
    {now : Instant} {row : PlannedEvent} (h : updateOutcome draft row occurrence now = .write)
    (hkind : draft.kind = .smartMeeting) (hdest : row.destinationEventId.isSome) :
    row.status ≠ .skipped ∧
      ¬((desiredFor draft row occurrence).map sha256Canonical = row.desiredHash ∧
        row.status ≠ .unmet) ∧
      insideNoMoveWindow row.desiredState now (lockBeforeMinutes draft) = false ∧
      ¬(conflictPolicy? draft = some .suggest ∧ row.status = .converged) ∧
      conflictPolicy? draft ≠ some .keepWithWarning ∧ occurrence.event.isSome := by
  cases Decided.of_eq h with
  | write hskipped hdiffers hmoving =>
    obtain ⟨hlock, hsuggest, hkeep, htime⟩ := hmoving hkind hdest
    refine ⟨hskipped, hdiffers, hlock, hsuggest, hkeep, ?_⟩
    cases hevent : occurrence.event with
    | none => simp [desiredFor, hevent] at htime
    | some event => rfl

/-- A row that leaves the plan keeps its time or is closed. -/
theorem closeStale_timing (now : Instant) (row : PlannedEvent) :
    closeStale now row = row ∨ ((closeStale now row).timing = none ∧
      ((closeStale now row).status = .pendingDelete ∨ (closeStale now row).status = .deleted)) := by
  unfold closeStale
  split
  · exact Or.inl rfl
  · split
    · exact Or.inr ⟨rfl, Or.inr rfl⟩
    · split
      · split
        · exact Or.inl rfl
        · exact Or.inr ⟨rfl, Or.inl rfl⟩
      · exact Or.inr ⟨rfl, Or.inr rfl⟩

theorem Applying.timing {target : PlannedEvent} {c : Conversation} {applied : Applied}
    (h : Applying s target c applied) : applied.row.timing = target.timing := by
  cases h with
  | stopped h | unconfirmed _ h =>
    obtain ⟨status, code, rfl, -⟩ := h
    rfl
  | deleted | found => rfl
  | written hstatus hbase hrow hremote =>
    rename_i base _ _
    have hbasetime : base.timing = target.timing := by
      rcases hbase with rfl | ⟨rfl, -⟩
      · rfl
      · simp only [nextGeneration, PlannedEvent.timing, Option.map_map]
        rfl
    rcases hrow with ⟨status, code, rfl, -⟩ | rfl
    · exact hbasetime
    · exact hbasetime

/-! ## Moves with approval -/

/-- The rule of the event asks before it moves an event. -/
def suggests (s : State) (row : PlannedEvent) : Bool :=
  s.rules.any fun rule => rule.id = row.ruleId && conflictPolicy? rule.draft = some .suggest

/-- A suggestion for the planned event is accepted. -/
def approves (s : State) (row : PlannedEvent) : Event → Bool
  | .resolveSuggestion suggestionId .accept _ => s.suggestions.any fun suggestion =>
      suggestion.id = suggestionId && suggestion.plannedEventId = row.id
  | _ => false

/-- An existing event of a rule that suggests keeps its time, unless it is to be deleted or its
change was approved. -/
def MovesApproved (zones : String → Option Zone) (emailText : String → String) (s : State)
    (e : Event) : Prop :=
  ∀ row ∈ s.plannedEvents, row.destinationEventId.isSome → suggests s row →
    ∀ row' ∈ (step zones emailText s e).plannedEvents, row'.id = row.id →
      row'.timing = row.timing ∨
      (row'.timing = none ∧ (row'.status = .pendingDelete ∨ row'.status = .deleted)) ∨
      approves s row e

instance (zones : String → Option Zone) (emailText : String → String) (s : State) (e : Event) :
    Decidable (MovesApproved zones emailText s e) :=
  @List.decidableBAll _ _ (fun _ => @forall_prop_decidable _ _ inferInstance fun _ =>
    @forall_prop_decidable _ _ inferInstance fun _ => inferInstance) _

/-- Where the plan of a rule that suggests has another time for an existing event, the row is
converged, or was skipped, or its start is inside the no-move window. -/
def asksFirst (s : State) (rule : PlanningRule) (_ : PlanningDraft) (result : PlanningResult)
    (row : PlannedEvent) : Bool :=
  conflictPolicy? rule.draft ≠ some .suggest || row.destinationEventId.isNone ||
    row.status = .converged || row.status = .skipped ||
    insideNoMoveWindow row.desiredState s.clock (lockBeforeMinutes rule.draft) ||
    (occurrenceFor result row).all fun occurrence =>
      occurrence.event.all fun event => some event.timing = row.timing

/-- What some rule with the ID of a row's rule has, the row's rule has. -/
theorem rule_of_any {p : PlanningRule → Bool} {row : PlannedEvent} {rule : PlanningRule}
    (hs : s.Constraints) (hrule : rule ∈ s.rules) (hid : rule.id = row.ruleId)
    (h : (s.rules.any fun rule => rule.id = row.ruleId && p rule) = true) : p rule = true := by
  obtain ⟨other, hmem, hother⟩ := List.any_eq_true.1 h
  rw [Bool.and_eq_true, decide_eq_true_eq] at hother
  have : other = rule :=
    List.inj_on_of_nodup_map hs.ruleIds hmem hrule (hother.1.trans hid.symm)
  exact this ▸ hother.2

theorem kind_of_conflictPolicy {draft : PlanningDraft} {policy : ConflictPolicy}
    (h : conflictPolicy? draft = some policy) : draft.kind = .smartMeeting := by
  cases draft with
  | availabilityBoundary => cases h
  | smartMeeting => rfl

/-- A reconciliation that asks first leaves an existing event at its time or closes it. -/
theorem reconcileRow_asksFirst {rule : PlanningRule} {draft : PlanningDraft}
    {result : PlanningResult} {row : PlannedEvent} (hkind : draft.kind = rule.draft.kind)
    (hpolicy : conflictPolicy? draft = conflictPolicy? rule.draft)
    (hlock : lockBeforeMinutes draft = lockBeforeMinutes rule.draft)
    (hsuggest : conflictPolicy? rule.draft = some .suggest)
    (hdest : row.destinationEventId.isSome) (hasks : asksFirst s rule draft result row = true) :
    (reconcileRow draft result s.clock row).timing = row.timing ∨
      ((reconcileRow draft result s.clock row).timing = none ∧
        ((reconcileRow draft result s.clock row).status = .pendingDelete ∨
          (reconcileRow draft result s.clock row).status = .deleted)) := by
  unfold reconcileRow
  cases hocc : occurrenceFor result row with
  | none =>
    rcases closeStale_timing s.clock row with hsame | hclosed
    · exact Or.inl (by simp only [hsame])
    · exact Or.inr hclosed
  | some occurrence =>
    left
    rcases updateOccurrence_timing draft occurrence s.clock row with hsame | ⟨hwrite, htiming⟩
    · exact hsame
    · have hsmart : draft.kind = .smartMeeting := hkind.trans (kind_of_conflictPolicy hsuggest)
      obtain ⟨hskipped, -, hwindow, hconverged, -, hevent⟩ :=
        updateOutcome_write hwrite hsmart hdest
      obtain ⟨event, hevent⟩ := Option.isSome_iff_exists.1 hevent
      rw [hlock] at hwindow
      have hopen : row.status ≠ .converged := fun hc => hconverged ⟨hpolicy.trans hsuggest, hc⟩
      have hdest' : row.destinationEventId.isNone = false := by
        rw [Option.isNone_eq_false_iff]
        exact hdest
      simp only [asksFirst, hsuggest, hocc, hevent, hskipped, hwindow, hopen, hdest',
        Option.all_some, ne_eq, not_true_eq_false, decide_false, Bool.false_or,
        decide_eq_true_eq] at hasks
      rw [htiming, hevent]
      exact hasks

/-- **Suggest mode asks first**: in a run whose reconciliations meet `asksFirst`, no event of a rule
that suggests is moved without approval. -/
theorem movesApproved_of_asksFirst
    (hs : (planning zones emailText).Reachable (fun s e => EachRow zones asksFirst s e) s)
    (he : EachRow zones asksFirst s e) : MovesApproved zones emailText s e := by
  intro row hrow hdest hsuggests row' hrow' hid
  have hc := constraints_of_reachable hs
  have heffect := step_effect zones emailText s e
  cases heffect.row_change hc (heffect.constraints hc) hrow hrow' hid with
  | same => exact Or.inl rfl
  | @reconciled ruleId read newId rule draft result _ hrule hactive hplan hrowRule =>
    obtain ⟨hkind, hpolicy, hlock⟩ := planForReconcile_draft hplan
    obtain ⟨hmem, hruleId⟩ := find?_key hrule
    have hasks := EachRow.row he hrule hactive hplan hrow hrowRule
    have hpolicy' := rule_of_any hc hmem (hruleId.trans hrowRule.symm) hsuggests
    rw [decide_eq_true_eq] at hpolicy'
    rcases reconcileRow_asksFirst hkind hpolicy hlock hpolicy' hdest hasks with hsame | hclosed
    · exact Or.inl hsame
    · exact Or.inr (Or.inl hclosed)
  | applied _ happlying => exact Or.inl happlying.timing
  | @accepted suggestionId read suggestion rule _ h =>
    refine Or.inr (Or.inr ?_)
    obtain ⟨hmem, hsid⟩ := find?_key h.findSuggestion
    have hrowId := (find?_key h.findRow).2
    refine List.any_eq_true.2 ⟨suggestion, hmem, ?_⟩
    rw [Bool.and_eq_true]
    exact ⟨decide_eq_true hsid, decide_eq_true hrowId.symm⟩
  | removed =>
    refine Or.inr (Or.inl ?_)
    unfold removeRow
    split
    · exact ⟨rfl, Or.inl rfl⟩
    · exact ⟨rfl, Or.inr rfl⟩

theorem movesApproved_converged :
    (EachRow Sample.zones asksFirst
      ((planning Sample.zones id).run Sample.start (Sample.placed .suggest))
      (Sample.pass Sample.monday [Sample.monday + 10 * Sample.hour]) = true) ∧
    MovesApproved Sample.zones id
      ((planning Sample.zones id).run Sample.start (Sample.placed .suggest))
      (Sample.pass Sample.monday [Sample.monday + 10 * Sample.hour]) := by
  have hasks : EachRow Sample.zones asksFirst
      ((planning Sample.zones id).run Sample.start (Sample.placed .suggest))
      (Sample.pass Sample.monday [Sample.monday + 10 * Sample.hour]) = true := by decide +kernel
  have hadmits : (planning Sample.zones id).Admits
      (fun s e => EachRow Sample.zones asksFirst s e = true) Sample.start
      (Sample.placed .suggest) := by decide +kernel
  have hreachable : (planning Sample.zones id).Reachable
      (fun s e => EachRow Sample.zones asksFirst s e)
      ((planning Sample.zones id).run Sample.start (Sample.placed .suggest)) :=
    ⟨Sample.start, Sample.start_init _ _, Machine.leads_run _ _ hadmits⟩
  exact ⟨hasks, movesApproved_of_asksFirst hreachable hasks⟩

/-- Half an hour before the start another time is planned and the meeting is held; half an hour
after the start it is still held. -/
def Sample.locked : List Event :=
  Sample.placed .suggest ++
    [.tick 34200000, Sample.pass (Sample.monday + 34200000) [], .tick 3600000]

theorem not_movesApproved_held :
    (planning Sample.zones id).Reachable (fun _ _ => True)
      ((planning Sample.zones id).run Sample.start Sample.locked) ∧
    ¬ MovesApproved Sample.zones id ((planning Sample.zones id).run Sample.start Sample.locked)
      (Sample.pass (Sample.monday + 37800000) []) :=
  ⟨⟨Sample.start, Sample.start_init _ _, Machine.leads_run_free _ _⟩, by decide +kernel⟩

/-! ## Meetings that have started -/

def started (now : Instant) (row : PlannedEvent) : Bool :=
  row.desiredState.any fun event => event.timing.startInstant.instant ≤ now

def isMeeting (s : State) (row : PlannedEvent) : Bool :=
  s.rules.any fun rule => rule.id = row.ruleId && rule.draft.kind = .smartMeeting

def Event.isReconcile : Event → Bool
  | .reconcile .. => true
  | _ => false

/-- A reconciliation leaves an existing meeting that has started at its time and does not make it
pending. One that is over may be closed as history. -/
def StartedStays (zones : String → Option Zone) (emailText : String → String) (s : State)
    (e : Event) : Prop :=
  e.isReconcile → ∀ row ∈ s.plannedEvents, row.destinationEventId.isSome → isMeeting s row →
    started s.clock row → ∀ row' ∈ (step zones emailText s e).plannedEvents, row'.id = row.id →
      (row'.timing = row.timing ∨
        (eventHasEnded row.desiredState s.clock ∧ row'.status = .deleted)) ∧
      (row'.status = .pendingUpdate → row.status = .pendingUpdate) ∧ row'.status ≠ .pendingDelete

instance (zones : String → Option Zone) (emailText : String → String) (s : State) (e : Event) :
    Decidable (StartedStays zones emailText s e) :=
  @forall_prop_decidable _ _ inferInstance fun _ =>
    @List.decidableBAll _ _ (fun _ => @forall_prop_decidable _ _ inferInstance fun _ =>
      @forall_prop_decidable _ _ inferInstance fun _ => inferInstance) _

/-- An existing meeting that has started is planned as it is, or has no other time, or belongs to a
rule that keeps it or only suggests; one that is no longer planned is over. -/
def leavesStarted (s : State) (rule : PlanningRule) (draft : PlanningDraft)
    (result : PlanningResult) (row : PlannedEvent) : Bool :=
  rule.draft.kind ≠ .smartMeeting || row.destinationEventId.isNone || !started s.clock row ||
    match occurrenceFor result row with
    | none => eventHasEnded row.desiredState s.clock
    | some occurrence =>
      if (desiredFor draft row occurrence).map sha256Canonical = row.desiredHash then
        !(row.status = .held && row.safeErrorCode = some "target_unavailable")
      else
        occurrence.event.isNone || conflictPolicy? rule.draft = some .keepWithWarning ||
          (conflictPolicy? rule.draft = some .suggest && row.status = .converged)

theorem updateOutcome_retry {draft : PlanningDraft} {occurrence : PlannedOccurrenceTemplate}
    {now : Instant} {row : PlannedEvent} (h : updateOutcome draft row occurrence now = .retry) :
    (desiredFor draft row occurrence).map sha256Canonical = row.desiredHash ∧
      row.status = .held ∧ row.safeErrorCode = some "target_unavailable" := by
  cases Decided.of_eq h with
  | retry hsame hheld hcode => exact ⟨hsame, hheld, hcode⟩

/-- A row with a desired state is in none of the statuses that close it. -/
theorem open_of_desired {row : PlannedEvent} (hchecked : row.Checked)
    (h : row.desiredState.isSome = true) : row.status.closed = false := by
  unfold PlannedEvent.Checked at hchecked
  by_contra hclosed
  rw [Bool.not_eq_false] at hclosed
  rw [if_pos hclosed] at hchecked
  rw [hchecked] at h
  cases h

/-- A reconciliation that leaves started meetings alone. -/
theorem reconcileRow_leavesStarted {rule : PlanningRule} {draft : PlanningDraft}
    {result : PlanningResult} {row : PlannedEvent} (hchecked : row.Checked)
    (hkind : draft.kind = rule.draft.kind)
    (hpolicy : conflictPolicy? draft = conflictPolicy? rule.draft)
    (hsmart : rule.draft.kind = .smartMeeting) (hdest : row.destinationEventId.isSome)
    (hstarted : started s.clock row) (hleaves : leavesStarted s rule draft result row = true) :
    ((reconcileRow draft result s.clock row).timing = row.timing ∨
      (eventHasEnded row.desiredState s.clock = true ∧
        (reconcileRow draft result s.clock row).status = .deleted)) ∧
      ((reconcileRow draft result s.clock row).status = .pendingUpdate → row.status = .pendingUpdate) ∧
      (reconcileRow draft result s.clock row).status ≠ .pendingDelete := by
  have hdesired : row.desiredState.isSome = true := by
    cases hd : row.desiredState with
    | none => simp [started, hd] at hstarted
    | some event => rfl
  have hopen := open_of_desired hchecked hdesired
  have hdelete : row.status ≠ .pendingDelete := fun h => by simp [h, PlannedStatus.closed] at hopen
  have hunmet : row.status ≠ .unmet := fun h => by simp [h, PlannedStatus.closed] at hopen
  have hdest' : row.destinationEventId.isNone = false := by
    rw [Option.isNone_eq_false_iff]
    exact hdest
  simp only [leavesStarted, hsmart, hdest', hstarted, ne_eq, not_true_eq_false, decide_false,
    Bool.not_true, Bool.false_or] at hleaves
  unfold reconcileRow
  cases hocc : occurrenceFor result row with
  | none =>
    simp only [hocc] at hleaves
    have hstatus : (closeStale s.clock row).status = .deleted := by
      simp only [closeStale, if_neg hdelete, if_pos hleaves]
    refine ⟨Or.inr ⟨hleaves, hstatus⟩, ?_, ?_⟩
    · intro hpending
      rw [hstatus] at hpending
      cases hpending
    · rw [hstatus]
      decide
  | some occurrence =>
    simp only [hocc] at hleaves
    unfold updateOccurrence
    simp only
    cases hout : updateOutcome draft row occurrence s.clock with
    | unchanged | suggestion => exact ⟨Or.inl rfl, id, hdelete⟩
    | lock | keep | noTime => exact ⟨Or.inl rfl, by simp [heldAs], by simp [heldAs]⟩
    | retry =>
      obtain ⟨hsame, hheld, hcode⟩ := updateOutcome_retry hout
      rw [if_pos hsame] at hleaves
      simp [hheld, hcode] at hleaves
    | write =>
      obtain ⟨-, hdiffers, -, hconverged, hkeep, hevent⟩ :=
        updateOutcome_write hout (hkind.trans hsmart) hdest
      rw [if_neg fun hsame => hdiffers ⟨hsame, hunmet⟩] at hleaves
      rw [hpolicy] at hconverged hkeep
      simp only [Bool.or_eq_true, Bool.and_eq_true, decide_eq_true_eq] at hleaves
      rcases hleaves with (hnone | hkeeps) | hsuggests
      · rw [Option.isNone_iff_eq_none] at hnone
        simp [hnone] at hevent
      · exact absurd hkeeps hkeep
      · exact absurd hsuggests hconverged

/-- **Started meetings stay put** in a run whose reconciliations meet `leavesStarted`. -/
theorem startedStays_of_leavesStarted
    (hs : (planning zones emailText).Reachable (fun s e => EachRow zones leavesStarted s e) s)
    (he : EachRow zones leavesStarted s e) : StartedStays zones emailText s e := by
  intro hreconcile row hrow hdest hmeeting hstarted row' hrow' hid
  have hc := constraints_of_reachable hs
  have hchecked := hc.checked row hrow
  have heffect := step_effect zones emailText s e
  have hopen : row.status ≠ .pendingDelete := by
    intro hstatus
    have hnone : row.desiredState = none := by
      simpa [PlannedEvent.Checked, hstatus, PlannedStatus.closed] using hchecked
    simp [started, hnone] at hstarted
  cases heffect.row_change hc (heffect.constraints hc) hrow hrow' hid with
  | same => exact ⟨Or.inl rfl, id, hopen⟩
  | @reconciled ruleId read newId rule draft result _ hrule hactive hplan hrowRule =>
    obtain ⟨hkind, hpolicy, -⟩ := planForReconcile_draft hplan
    obtain ⟨hmem, hruleId⟩ := find?_key hrule
    have hleaves := EachRow.row he hrule hactive hplan hrow hrowRule
    have hsmart := rule_of_any hc hmem (hruleId.trans hrowRule.symm) hmeeting
    rw [decide_eq_true_eq] at hsmart
    exact reconcileRow_leavesStarted hchecked hkind hpolicy hsmart hdest hstarted hleaves
  | applied | accepted | removed => cases hreconcile

/-- A meeting of a rule that suggests has started and another time is planned for it. -/
def Sample.underway : List Event := Sample.placed .suggest ++ [.tick 37800000]

theorem startedStays_underway :
    (EachRow Sample.zones leavesStarted
      ((planning Sample.zones id).run Sample.start Sample.underway)
      (Sample.pass (Sample.monday + 37800000) []) = true) ∧
    StartedStays Sample.zones id ((planning Sample.zones id).run Sample.start Sample.underway)
      (Sample.pass (Sample.monday + 37800000) []) := by
  have hleaves : EachRow Sample.zones leavesStarted
      ((planning Sample.zones id).run Sample.start Sample.underway)
      (Sample.pass (Sample.monday + 37800000) []) = true := by decide +kernel
  have hadmits : (planning Sample.zones id).Admits
      (fun s e => EachRow Sample.zones leavesStarted s e = true) Sample.start
      Sample.underway := by decide +kernel
  have hreachable : (planning Sample.zones id).Reachable
      (fun s e => EachRow Sample.zones leavesStarted s e)
      ((planning Sample.zones id).run Sample.start Sample.underway) :=
    ⟨Sample.start, Sample.start_init _ _, Machine.leads_run _ _ hadmits⟩
  exact ⟨hleaves, startedStays_of_leavesStarted hreachable hleaves⟩

/-- A meeting that may be moved is moved half an hour after it has started. -/
theorem not_startedStays_autoMove :
    (planning Sample.zones id).Reachable (fun _ _ => True)
      ((planning Sample.zones id).run Sample.start (Sample.placed .autoMove ++ [.tick 37800000])) ∧
    ¬ StartedStays Sample.zones id
      ((planning Sample.zones id).run Sample.start (Sample.placed .autoMove ++ [.tick 37800000]))
      (Sample.pass (Sample.monday + 37800000) []) :=
  ⟨⟨Sample.start, Sample.start_init _ _, Machine.leads_run_free _ _⟩, by decide +kernel⟩

end Moves

end Planipus.Planning

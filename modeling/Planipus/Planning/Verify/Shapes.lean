import Planipus.Planning.Verify.Steps

/-!
# The check constraint of planned events

Every write but one leaves a row with a desired state exactly if its status wants one: the writes that
change only the status meet rows with a desired state (`reconcileRow_checked_iff`,
`Applying.checked`). The exception is the hold of `keep_with_warning`, which looks at the event of the
row only: if an occurrence comes back into the plan after its row was closed, the transaction fails
(`planned_rows_checked_iff`). It comes back where a reconciliation that began before the end of a
cycle writes after one that began later.
-/

namespace Planipus.Planning

open CalendarSync Sync Library

section Writes

variable {zones : String → Option Zone} {emailText : String → String} {s t : State} {e : Event}

/-- The tables that the transaction of an event writes, before their constraints are checked. -/
inductive Writes (zones : String → Option Zone) (emailText : String → String) (s : State) :
    Event → State → Prop
  | activated {principalId previewId : String} {read : Tables} {newId : Nat → String}
      {preview : PlanningPreview} {result : PlanningResult}
      (h : Activates zones emailText s principalId previewId read preview result) :
    Writes zones emailText s (.activate principalId previewId read newId)
      (s.activated previewId (parsePlanningDraft emailText preview.draft) result newId)
  | reconciled {ruleId : String} {read : Tables} {newId : String → String} {rule : PlanningRule}
      {draft : PlanningDraft} {result : PlanningResult}
      (hrule : s.rules.find? (·.id = ruleId) = some rule) (hactive : rule.status = .active)
      (hplan : planForReconcile zones read rule.draft s.clock ruleId = .ok (draft, result)) :
    Writes zones emailText s (.reconcile ruleId read newId) (s.reconciled rule draft result newId)
  | applied {plannedEventId : String} {expectedIntent : Nat} {c : Conversation}
      {target : PlannedEvent} {rule : PlanningRule} {applied : Applied}
      (h : Applies s plannedEventId expectedIntent rule target)
      (hconverse : converse s rule target c = some applied) :
    Writes zones emailText s (.apply plannedEventId expectedIntent c)
      (s.applied rule target applied true)
  | accepted {suggestionId : String} {read : Tables} {suggestion : Suggestion}
      {rule : PlanningRule} {row : PlannedEvent}
      (h : Accepts zones s suggestionId read suggestion rule row) :
    Writes zones emailText s (.resolveSuggestion suggestionId .accept read) (s.accepted suggestion)
  | removed {ruleId : String} : Writes zones emailText s (.remove ruleId) (s.removed ruleId)

/-- No other event changes a row, and what is committed is what was written. -/
theorem Writes.of_step (s : State) (e : Event) :
    (step zones emailText s e).plannedEvents = s.plannedEvents ∨
      Writes zones emailText s e (step zones emailText s e) := by
  have heffect := step_effect zones emailText s e
  revert heffect
  generalize step zones emailText s e = t
  intro heffect
  cases heffect with
  | idle | tick | previewed | dismissed | expired | paused => exact .inl rfl
  | activated h => exact .inr (.activated h)
  | reconciled hrule hactive hplan => exact .inr (.reconciled hrule hactive hplan)
  | @applied plannedEventId expectedIntent c target rule applied h hconverse =>
    cases hcommitted : c.committed with
    | false => exact .inl rfl
    | true => exact .inr (.applied h hconverse)
  | accepted h => exact .inr (.accepted h)
  | removed => exact .inr .removed

/-- A reconciliation whose rows fail the check leaves everything as it was. -/
theorem reconcile_aborts {ruleId : String} {read : Tables} {newId : String → String}
    (h : Writes zones emailText s (.reconcile ruleId read newId) t)
    (hrow : ¬∀ row ∈ t.plannedEvents, row.Checked) :
    step zones emailText s (.reconcile ruleId read newId) = s := by
  cases h with
  | @reconciled _ _ _ rule draft result hrule hactive hplan =>
    have hfails : ¬(s.reconciled rule draft result newId).Constraints := fun hc => hrow hc.checked
    have hcommit : (s.reconciled rule draft result newId).commit = .error .exception := if_neg hfails
    simp only [step, reconcile, hrule, hactive, hplan, bind, Except.bind]
    rw [if_neg (by decide), hcommit]
    rfl

theorem delayed_reconcile_aborts {delay : Nat} {ruleId : String} {read : Tables}
    {newId : String → String}
    (h : Writes zones emailText (s.before delay) (.reconcile ruleId read newId) t)
    (hrow : ¬∀ row ∈ t.plannedEvents, row.Checked) :
    stepDelayed zones emailText s ⟨delay, .reconcile ruleId read newId⟩ = s := by
  unfold stepDelayed
  dsimp only
  rw [reconcile_aborts h hrow]
  rfl

end Writes

/-! ## Rows -/

section Rows

variable {zones : String → Option Zone} {s : State} {e : Event} {row row' : PlannedEvent}
  {draft : PlanningDraft} {result : PlanningResult} {now : Instant}

/-- A row for which no time was found has no event at the provider. -/
def Unplaced (row : PlannedEvent) : Prop := row.status = .unmet → row.destinationEventId = none

/-- The plan of a meeting that keeps its time finds one for an occurrence whose row is closed, and
whose event is still recorded. -/
def Revives (draft : PlanningDraft) (result : PlanningResult) (row : PlannedEvent) : Prop :=
  conflictPolicy? draft = some .keepWithWarning ∧ row.destinationEventId.isSome ∧
    row.desiredState = none ∧ row.status ≠ .skipped ∧
    (occurrenceFor result row).any (·.event.isSome)

instance (draft : PlanningDraft) (result : PlanningResult) (row : PlannedEvent) :
    Decidable (Revives draft result row) := by
  unfold Revives
  infer_instance

def keepsShape (_ : State) (_ : PlanningRule) (draft : PlanningDraft) (result : PlanningResult)
    (row : PlannedEvent) : Bool :=
  !decide (Revives draft result row)

theorem checked_of_desired (hchecked : row.Checked) (h : row.desiredState.isSome) :
    row.status.closed = false ∧ row.desiredHash.isSome := by
  unfold PlannedEvent.Checked at hchecked
  split at hchecked
  · rw [hchecked] at h
    cases h
  · rename_i hopen
    exact ⟨Bool.not_eq_true _ ▸ hopen, hchecked.2⟩

theorem heldAs_checked (hchecked : row.Checked) (h : row.desiredState.isSome) (reason code : String) :
    (heldAs row reason code).Checked :=
  ⟨h, (checked_of_desired hchecked h).2⟩

theorem pendingWrite_open (row : PlannedEvent) : (pendingWrite row).closed = false := by
  unfold pendingWrite
  split <;> rfl

theorem writeRow_checked (desired : Option ManagedPlanningEvent) (reason : String)
    (current : PlannedEvent) : (writeRow desired reason current).Checked := by
  cases desired with
  | none => rfl
  | some event =>
    have hopen := pendingWrite_open current
    unfold PlannedEvent.Checked writeRow
    simp [hopen]

theorem closeStale_checked (hchecked : row.Checked) : (closeStale now row).Checked := by
  unfold closeStale
  split
  · exact hchecked
  · split
    · rfl
    · split
      · split
        · exact hchecked
        · rfl
      · rfl

theorem insertOccurrence_checked (ruleId newId : String) (draft : PlanningDraft)
    (occurrence : PlannedOccurrenceTemplate) :
    (insertOccurrence ruleId newId draft occurrence).Checked := by
  unfold PlannedEvent.Checked insertOccurrence
  cases occurrence.event <;> simp [PlannedStatus.closed]

theorem acceptProposal_checked (proposed : Option ManagedPlanningEvent) (row : PlannedEvent) :
    (acceptProposal proposed row).Checked := by
  unfold PlannedEvent.Checked acceptProposal
  cases proposed <;> cases row.destinationEventId <;> simp [PlannedStatus.closed]

theorem removeRow_checked (now : Instant) (row : PlannedEvent) : (removeRow now row).Checked := by
  unfold removeRow
  split <;> rfl

/-- What an outcome says of the row that it meets: the rows that are held or tried again have a desired
state, those of a meeting that keeps its time apart. -/
theorem updateOutcome_desired {occurrence : PlannedOccurrenceTemplate} (hchecked : row.Checked)
    (hcoherent : Coherent row) (hunplaced : Unplaced row) {outcome : Outcome}
    (h : updateOutcome draft row occurrence now = outcome) :
    (outcome = .retry ∨ outcome = .lock ∨ outcome = .noTime → row.desiredState.isSome) ∧
      (outcome = .keep → row.desiredState.isNone →
        conflictPolicy? draft = some .keepWithWarning ∧ row.destinationEventId.isSome ∧
          row.status ≠ .skipped ∧ occurrence.event.isSome) := by
  have hnone : row.desiredState = none → row.desiredHash = none := by
    intro hstate
    rw [hcoherent.hash, hstate]
    rfl
  have hunmet : row.destinationEventId.isSome → row.status ≠ .unmet := by
    intro hdest hunmet
    rw [hunplaced hunmet] at hdest
    cases hdest
  -- A closed row that the plan does not want either is left alone.
  have hwanted : ¬((desiredFor draft row occurrence).map sha256Canonical = row.desiredHash ∧
      row.status ≠ .unmet) → row.destinationEventId.isSome → row.desiredState = none →
      occurrence.event.isSome := by
    intro hdiffers hdest hstate
    cases hevent : occurrence.event with
    | some event => rfl
    | none =>
      refine absurd ⟨?_, hunmet hdest⟩ hdiffers
      rw [hnone hstate, desiredFor, hevent]
      rfl
  cases Decided.of_eq h with
  | skipped | same | suggestion | write => exact ⟨by simp, by simp⟩
  | retry hsame hheld hcode =>
    refine ⟨fun _ => ?_, by simp⟩
    have hopen : row.status.closed = false := by rw [hheld]; rfl
    have hboth : row.desiredState.isSome ∧ row.desiredHash.isSome := by
      simpa [PlannedEvent.Checked, hopen] using hchecked
    exact hboth.1
  | lock hlock =>
    refine ⟨fun _ => ?_, by simp⟩
    cases hstate : row.desiredState with
    | some event => rfl
    | none =>
      rw [hstate] at hlock
      exact absurd hlock (by simp [insideNoMoveWindow])
  | keep hskipped hdiffers hdest hpolicy =>
    refine ⟨by simp, fun _ hstate => ⟨hpolicy, hdest, hskipped, ?_⟩⟩
    exact hwanted hdiffers hdest (Option.isNone_iff_eq_none.1 hstate)
  | noTime hdiffers hdest hnone =>
    refine ⟨fun _ => ?_, by simp⟩
    cases hstate : row.desiredState with
    | some event => rfl
    | none =>
      have hevent := hwanted hdiffers hdest hstate
      rw [desiredFor, Option.map_eq_none_iff] at hnone
      rw [hnone] at hevent
      cases hevent

/-- The plan of a meeting that keeps its time holds a closed row that it finds a time for. -/
theorem updateOutcome_keep {occurrence : PlannedOccurrenceTemplate} (hcoherent : Coherent row)
    (hpolicy : conflictPolicy? draft = some .keepWithWarning) (hdest : row.destinationEventId.isSome)
    (hstate : row.desiredState = none) (hskipped : row.status ≠ .skipped)
    (hevent : occurrence.event.isSome) (now : Instant) :
    updateOutcome draft row occurrence now = .keep := by
  have hhash : row.desiredHash = none := by
    rw [hcoherent.hash, hstate]
    rfl
  have hkind : draft.kind = .smartMeeting := by
    cases draft with
    | availabilityBoundary draft => cases hpolicy
    | smartMeeting draft => rfl
  obtain ⟨event, hevent⟩ := Option.isSome_iff_exists.1 hevent
  have hdiffers : (desiredFor draft row occurrence).map sha256Canonical ≠ row.desiredHash := by
    rw [hhash, desiredFor, hevent]
    simp
  simp [updateOutcome, hskipped, hdiffers, hstate, insideNoMoveWindow, hpolicy, hkind, hdest]

/-- **A reconciled row** satisfies the check exactly if it is not revived. -/
theorem reconcileRow_checked_iff (hchecked : row.Checked) (hcoherent : Coherent row)
    (hunplaced : Unplaced row) (now : Instant) :
    (reconcileRow draft result now row).Checked ↔ ¬Revives draft result row := by
  unfold reconcileRow Revives
  cases hoccurrence : occurrenceFor result row with
  | none => simp [closeStale_checked hchecked]
  | some occurrence =>
    dsimp only
    by_cases hrevives : conflictPolicy? draft = some .keepWithWarning ∧
        row.destinationEventId.isSome ∧ row.desiredState = none ∧ row.status ≠ .skipped ∧
        occurrence.event.isSome
    · refine iff_of_false ?_ (not_not.2 hrevives)
      obtain ⟨hpolicy, hdest, hstate, hskipped, hevent⟩ := hrevives
      have hkeep := updateOutcome_keep hcoherent hpolicy hdest hstate hskipped hevent now
      rw [updateOccurrence, hkeep]
      simp [heldAs, PlannedEvent.Checked, PlannedStatus.closed, hstate]
    · refine iff_of_true ?_ hrevives
      generalize houtcome : updateOutcome draft row occurrence now = outcome
      obtain ⟨hopen, hkeep⟩ := updateOutcome_desired hchecked hcoherent hunplaced houtcome
      rw [updateOccurrence, houtcome]
      cases outcome with
      | unchanged => exact hchecked
      | suggestion => exact hchecked
      | retry =>
        have hdesired := hopen (.inl rfl)
        have hstatus := pendingWrite_open row
        simp [PlannedEvent.Checked, hstatus, hdesired, (checked_of_desired hchecked hdesired).2]
      | lock => exact heldAs_checked hchecked (hopen (.inr (.inl rfl))) _ _
      | noTime => exact heldAs_checked hchecked (hopen (.inr (.inr rfl))) _ _
      | write => exact writeRow_checked _ _ _
      | keep =>
        refine heldAs_checked hchecked ?_ _ _
        cases hstate : row.desiredState with
        | some event => rfl
        | none =>
          obtain ⟨hpolicy, hdest, hskipped, hevent⟩ := hkeep rfl (by rw [hstate]; rfl)
          exact absurd ⟨hpolicy, hdest, hstate, hskipped, hevent⟩ hrevives

/-! ## Rows without a time -/

theorem pendingWrite_ne_unmet (row : PlannedEvent) : pendingWrite row ≠ .unmet := by
  unfold pendingWrite
  split <;> decide

theorem reconcileRow_unplaced (hunplaced : Unplaced row)
    (hboundary : draft.kind ≠ .smartMeeting →
      ∀ occurrence ∈ result.occurrences, occurrence.event.isSome) :
    Unplaced (reconcileRow draft result now row) := by
  intro hunmet
  rw [(reconcileRow_same draft result now row).2.1]
  unfold reconcileRow at hunmet
  cases hoccurrence : occurrenceFor result row with
  | none =>
    rw [hoccurrence] at hunmet
    dsimp only at hunmet
    unfold closeStale at hunmet
    split at hunmet
    · exact hunplaced hunmet
    · split at hunmet
      · cases hunmet
      · split at hunmet
        · split at hunmet
          · exact hunplaced hunmet
          · cases hunmet
        · cases hunmet
  | some occurrence =>
    rw [hoccurrence] at hunmet
    dsimp only at hunmet
    generalize houtcome : updateOutcome draft row occurrence now = outcome
    rw [updateOccurrence, houtcome] at hunmet
    cases outcome with
    | unchanged => exact hunplaced hunmet
    | suggestion => exact hunplaced hunmet
    | retry => exact absurd hunmet (pendingWrite_ne_unmet row)
    | lock => cases hunmet
    | keep => cases hunmet
    | noTime => cases hunmet
    | write =>
      cases hevent : occurrence.event with
      | none =>
        refine updateOutcome_unwritten houtcome hevent ?_
        by_contra hkind
        have hsome := hboundary hkind occurrence (List.mem_of_find?_eq_some hoccurrence)
        rw [hevent] at hsome
        cases hsome
      | some event =>
        simp only [writeRow, desiredFor, hevent, Option.map_some, Option.isSome_some, if_true] at hunmet
        exact absurd hunmet (pendingWrite_ne_unmet row)

theorem Marked.unplaced (h : Marked row row') (hpending : row.status ≠ .unmet) : row'.status ≠ .unmet := by
  obtain ⟨status, code, rfl, rfl | ⟨rfl, -⟩⟩ := h
  · exact hpending
  · exact PlannedStatus.noConfusion

theorem Applying.ne_unmet {c : Conversation} {applied : Applied} (h : Applying s row c applied)
    (hpending : row.status.pending = true) : applied.row.status ≠ .unmet := by
  have hrow : row.status ≠ .unmet := by
    intro hunmet
    rw [hunmet] at hpending
    cases hpending
  cases h with
  | stopped h | unconfirmed _ h => exact h.unplaced hrow
  | deleted =>
    unfold deletedRow
    dsimp only
    split <;> decide
  | found => exact PlannedStatus.noConfusion
  | written hstatus hbase hmarked =>
    rcases hmarked with hmarked | rfl
    · rcases hbase with rfl | ⟨rfl, -⟩
      · exact hmarked.unplaced hrow
      · exact hmarked.unplaced hrow
    · exact PlannedStatus.noConfusion

theorem RowChange.unplaced (h : RowChange zones s e row row') (hunplaced : Unplaced row) :
    Unplaced row' := by
  cases h with
  | same => exact hunplaced
  | reconciled hrule hactive hplan =>
    exact reconcileRow_unplaced hunplaced (planForReconcile_boundary hplan)
  | applied happlies happlying =>
    exact fun hunmet => absurd hunmet (happlying.ne_unmet happlies.pending)
  | accepted =>
    intro hunmet
    unfold acceptProposal at hunmet
    dsimp only at hunmet
    split at hunmet <;> dsimp only at hunmet <;> split at hunmet <;> cases hunmet
  | removed =>
    intro hunmet
    unfold removeRow at hunmet
    split at hunmet <;> cases hunmet

theorem NewRow.unplaced (h : NewRow s row) : Unplaced row := by
  obtain ⟨rule, -, -, newId, draft, occurrence, rfl⟩ := h
  exact fun _ => rfl

end Rows

/-! ## Runs -/

section Runs

variable {zones : String → Option Zone} {emailText : String → String} {s t : State} {e : Event}

/-- What the writes rely on. -/
structure Sound (s : State) : Prop where
  constraints : s.Constraints
  coherent : ∀ row ∈ s.plannedEvents, Coherent row
  unplaced : ∀ row ∈ s.plannedEvents, Unplaced row

theorem Sound.at (h : Sound s) (clock : Instant) : Sound { s with clock } :=
  ⟨⟨h.1.1, h.1.2, h.1.3, h.1.4, h.1.5, h.1.6⟩, h.2, h.3⟩

theorem Sound.before (h : Sound s) (delay : Nat) : Sound (s.before delay) := h.at _

theorem Sound.step (h : Sound s) (e : Event) : Sound (step zones emailText s e) := by
  have heffect := step_effect zones emailText s e
  refine ⟨heffect.constraints h.constraints, ?_, ?_⟩
  · intro row' hrow'
    rcases heffect.row_of_mem h.constraints hrow' with ⟨row, hrow, hchange⟩ | hnew
    · exact hchange.coherent (h.coherent row hrow)
    · exact hnew.coherent
  · intro row' hrow'
    rcases heffect.row_of_mem h.constraints hrow' with ⟨row, hrow, hchange⟩ | hnew
    · exact hchange.unplaced (h.unplaced row hrow)
    · exact hnew.unplaced

theorem sound_of_reachable {ok : State → Delayed → Prop}
    (h : (delayedPlanning zones emailText).Reachable ok s) : Sound s := by
  refine h.invariant ?_ ?_
  · rintro s ⟨hpreviews, hrules, hrows, hsuggestions, -⟩
    refine ⟨?_, by simp [hrows], by simp [hrows]⟩
    constructor <;> simp [hpreviews, hrules, hrows, hsuggestions]
  · intro t d ht _
    change Sound (stepDelayed zones emailText t d)
    unfold stepDelayed
    split
    · exact ht.step _
    · exact ((ht.at _).step _).at _

/-- **What is written satisfies the check**, unless a reconciliation revives a row. -/
theorem Writes.checked_iff (hs : Sound s) (h : Writes zones emailText s e t) :
    (∀ row ∈ t.plannedEvents, row.Checked) ↔ EachRow zones keepsShape s e = true := by
  have hchecked := hs.constraints.checked
  cases h with
  | @activated principalId previewId read newId preview result h =>
    refine iff_of_true ?_ rfl
    intro row hrow
    rcases List.mem_append.1 hrow with hrow | hrow
    · exact hchecked row hrow
    · obtain ⟨⟨occurrence, n⟩, -, rfl⟩ := List.mem_map.1 hrow
      exact insertOccurrence_checked _ _ _ _
  | @reconciled ruleId read newId rule draft result hrule hactive hplan =>
    have hid : rule.id = ruleId := (find?_key hrule).2
    have heach : EachRow zones keepsShape s (.reconcile ruleId read newId) = true ↔
        ∀ row ∈ s.plannedEvents, row.ruleId = rule.id → ¬Revives draft result row := by
      simp [EachRow, hrule, hactive, hplan, State.eventsOf, keepsShape, hid, imp_iff_not_or]
    rw [heach]
    constructor
    · intro hall row hrow hmine
      refine (reconcileRow_checked_iff (hchecked row hrow) (hs.coherent row hrow)
        (hs.unplaced row hrow) s.clock).1 (hall _ ?_)
      refine List.mem_append_left _ (List.mem_map.2 ⟨row, hrow, ?_⟩)
      rw [if_pos hmine]
    · intro hkeeps row' hrow'
      rcases List.mem_append.1 hrow' with hrow' | hrow'
      · obtain ⟨row, hrow, rfl⟩ := List.mem_map.1 hrow'
        split
        · rename_i hmine
          exact (reconcileRow_checked_iff (hchecked row hrow) (hs.coherent row hrow)
            (hs.unplaced row hrow) s.clock).2 (hkeeps row hrow hmine)
        · exact hchecked row hrow
      · obtain ⟨occurrence, -, rfl⟩ := List.mem_map.1 hrow'
        exact insertOccurrence_checked _ _ _ _
  | @applied plannedEventId expectedIntent c target rule applied h hconverse =>
    refine iff_of_true ?_ rfl
    have htarget := (find?_key h.findRow).1
    rw [applied_plannedEvents]
    refine forall_updateRow (fun row hrow _ => hchecked row hrow) fun _ _ _ => ?_
    exact (converse_cases hconverse).checked (hchecked target htarget) h.pending
  | @accepted suggestionId read suggestion rule row h =>
    refine iff_of_true ?_ rfl
    exact forall_updateRow (fun row hrow _ => hchecked row hrow)
      fun row _ _ => acceptProposal_checked _ row
  | @removed ruleId =>
    refine iff_of_true ?_ rfl
    intro row' hrow'
    obtain ⟨row, hrow, rfl⟩ := List.mem_map.1 hrow'
    split
    · exact removeRow_checked _ _
    · exact hchecked row hrow

/-- **Planned-event rows satisfy their table constraint** in every transaction of every run, exactly
if it is no reconciliation that revives a row. -/
theorem planned_rows_checked_iff {zones : String → Option Zone} {emailText : String → String}
    {s t : State} (hs : (delayedPlanning zones emailText).Reachable (fun _ _ => True) s) (d : Delayed)
    (h : Writes zones emailText (s.before d.delay) d.event t) :
    (∀ row ∈ t.plannedEvents, row.Checked) ↔
      EachRow zones keepsShape (s.before d.delay) d.event = true :=
  h.checked_iff ((sound_of_reachable hs).before _)

end Runs

/-! ## A reconciliation across midnight -/

namespace Sample

/-- Fifteen minutes on Sundays from ten in the evening, which keep their time. -/
def sundayMeeting : PlanningDraft :=
  .smartMeeting
    { name := "Weekly"
      targetCalendarId := "calendar"
      timezone := "UTC"
      startDate := "1970-01-05"
      weekdays := [7]
      windowStart := "22:00:00"
      windowEnd := "23:59:59"
      preferredTime := "22:00:00"
      cadenceWeeks := 1
      occurrenceCount := 1
      minimumDurationMinutes := 15
      maximumDurationMinutes := 15
      startStepMinutes := 15
      attendees := []
      availabilityCalendarIds := ["calendar"]
      conflictPolicy := .keepWithWarning
      lockBeforeMinutes := 0
      description := none
      location := none
      visibility := .default_ }

/-- A second after the end of the first week. -/
def weekLater : Instant := monday + 7 * 86400000 + 1000

def prompt (e : Event) : Delayed := ⟨0, e⟩

/-- The meeting takes place, and the week ends. -/
def meetingWeek : List Delayed :=
  (opening sundayMeeting []).map prompt ++
    [prompt (.apply "event" 1 answered), prompt (.tick (7 * 86400000 + 1000))]

/-- The row of the week is closed. -/
def closing : Delayed := prompt (.reconcile "rule" (read weekLater []) id)

def endedWeek : State := (delayedPlanning zones id).run start meetingWeek

def closedWeek : State := (delayedPlanning zones id).run start (meetingWeek ++ [closing])

/-- It began at half past eleven on Sunday, when there was time for the meeting. -/
def latePass : Delayed := ⟨1801000, .reconcile "rule" (read (weekLater - 1801000) []) id⟩

theorem endedWeek_reachable : (delayedPlanning zones id).Reachable (fun _ _ => True) endedWeek :=
  ⟨start, start_init zones id, Machine.leads_run_free meetingWeek start⟩

theorem closedWeek_reachable : (delayedPlanning zones id).Reachable (fun _ _ => True) closedWeek :=
  ⟨start, start_init zones id, Machine.leads_run_free (meetingWeek ++ [closing]) start⟩

/-- The reconciliation that closes the row writes rows that satisfy the check. -/
theorem planned_rows_checked_closing : ∃ t, Writes zones id (endedWeek.before 0) closing.event t ∧
    endedWeek.plannedEvents.length = 1 ∧ ∀ row ∈ t.plannedEvents, row.Checked := by
  have hplanned : (planForReconcile zones (read weekLater []) sundayMeeting weekLater
      "rule").toOption.isSome = true := by
    decide +kernel
  have hrule : (endedWeek.before 0).rules.find? (·.id = "rule") = some ⟨"rule", .active, 1, sundayMeeting⟩ := by
    decide +kernel
  have hclock : (endedWeek.before 0).clock = weekLater := by decide +kernel
  have hkeeps : EachRow zones keepsShape (endedWeek.before 0) closing.event = true := by decide +kernel
  cases hplan : planForReconcile zones (read weekLater []) sundayMeeting weekLater "rule" with
  | error failure =>
    rw [hplan] at hplanned
    cases hplanned
  | ok plan =>
    obtain ⟨draft, result⟩ := plan
    have hwrites : Writes zones id (endedWeek.before 0) closing.event
        ((endedWeek.before 0).reconciled ⟨"rule", .active, 1, sundayMeeting⟩ draft result id) :=
      .reconciled hrule rfl (by rw [hclock]; exact hplan)
    exact ⟨_, hwrites, by decide +kernel,
      (planned_rows_checked_iff endedWeek_reachable closing hwrites).2 hkeeps⟩

/-- The late reconciliation holds the row of the past week, which has no desired state any more: the
constraint ends its transaction. -/
theorem late_reconcile_aborts :
    (delayedPlanning zones id).Reachable (fun _ _ => True) closedWeek ∧
      ∃ t, Writes zones id (closedWeek.before latePass.delay) latePass.event t ∧
        (¬∀ row ∈ t.plannedEvents, row.Checked) ∧
        stepDelayed zones id closedWeek latePass = closedWeek := by
  have hplanned : (planForReconcile zones (read (weekLater - 1801000) []) sundayMeeting
      (weekLater - 1801000) "rule").toOption.isSome = true := by
    decide +kernel
  have hrule : (closedWeek.before 1801000).rules.find? (·.id = "rule") =
      some ⟨"rule", .active, 1, sundayMeeting⟩ := by
    decide +kernel
  have hclock : (closedWeek.before 1801000).clock = weekLater - 1801000 := by decide +kernel
  have hrevives : EachRow zones keepsShape (closedWeek.before 1801000) latePass.event = false := by
    decide +kernel
  refine ⟨closedWeek_reachable, ?_⟩
  cases hplan : planForReconcile zones (read (weekLater - 1801000) []) sundayMeeting
      (weekLater - 1801000) "rule" with
  | error failure =>
    rw [hplan] at hplanned
    cases hplanned
  | ok plan =>
    obtain ⟨draft, result⟩ := plan
    have hwrites : Writes zones id (closedWeek.before 1801000) latePass.event
        ((closedWeek.before 1801000).reconciled ⟨"rule", .active, 1, sundayMeeting⟩ draft result id) :=
      .reconciled hrule rfl (by rw [hclock]; exact hplan)
    have hfails : ¬∀ row ∈ ((closedWeek.before 1801000).reconciled
        ⟨"rule", .active, 1, sundayMeeting⟩ draft result id).plannedEvents, row.Checked := by
      rw [hwrites.checked_iff ((sound_of_reachable closedWeek_reachable).before _), hrevives]
      exact Bool.false_ne_true
    exact ⟨_, hwrites, hfails, delayed_reconcile_aborts hwrites hfails⟩

end Sample

end Planipus.Planning

import Planipus.Planning.Verify.Steps

/-!
# Accepted skips

When a user accepts that an occurrence is skipped, its row loses its desired state and is to be
deleted, or is skipped at once where there is nothing to delete. A rule has one row for an
occurrence key, so the skip is final if that row never gets a desired state again.

`updateOccurrence` spares a row only once it is `skipped`. While its deletion is pending, and after
the row of a skipped occurrence has left the plan and was closed, a plan with a free time for the
occurrence brings it back.
-/

namespace Planipus.Planning

open CalendarSync Sync Library

section Skips

variable {zones : String → Option Zone} {emailText : String → String} {s s' : State} {e : Event}

/-- The row wants no event. -/
def Unwanted (row : PlannedEvent) : Prop :=
  row.desiredState = none ∧
    (row.status = .pendingDelete ∨ row.status = .skipped ∨ row.status = .deleted)

instance (row : PlannedEvent) : Decidable (Unwanted row) := by
  unfold Unwanted
  infer_instance

/-- No occurrence whose skip was accepted is planned again. -/
def SkipFinal (s : State) : Prop :=
  ∀ row ∈ s.plannedEvents, row.id ∈ s.skips → Unwanted row

instance (s : State) : Decidable (SkipFinal s) := by
  unfold SkipFinal
  infer_instance

/-- No event of such an occurrence is created or updated at the provider. -/
def SkipUntouched (zones : String → Option Zone) (emailText : String → String) (s : State)
    (e : Event) : Prop :=
  ∀ event ∈ (step zones emailText s e).remote,
    event.event.provenance.plannedEventRef ∈ s.skips → event ∈ s.remote

/-- A plan has no time for an occurrence whose skip was accepted, unless its row is `skipped`. -/
def skipsStay (s : State) (_ : PlanningRule) (_ : PlanningDraft) (result : PlanningResult)
    (row : PlannedEvent) : Bool :=
  row.id ∉ s.skips || row.status = .skipped ||
    (occurrenceFor result row).all fun occurrence => occurrence.event.isNone

/-! ## Rows -/

theorem Unwanted.closeStale {row : PlannedEvent} (h : Unwanted row) (now : Instant) :
    Unwanted (closeStale now row) := by
  unfold Planning.closeStale
  split
  · exact h
  · split
    · exact ⟨rfl, Or.inr (Or.inr rfl)⟩
    · split
      · split
        · exact h
        · exact ⟨rfl, Or.inl rfl⟩
      · exact ⟨rfl, Or.inr (Or.inr rfl)⟩

/-- Without a free time, the row stays as it is. -/
theorem Unwanted.updateOccurrence {row : PlannedEvent} (h : Unwanted row) (hcoherent : Coherent row)
    {draft : PlanningDraft} {occurrence : PlannedOccurrenceTemplate} {now : Instant}
    (hstay : row.status = .skipped ∨ occurrence.event = none) :
    updateOccurrence draft occurrence now row = row := by
  have hout : updateOutcome draft row occurrence now = .unchanged := by
    unfold updateOutcome
    by_cases hskipped : row.status = .skipped
    · rw [if_pos hskipped]
    · have hevent := hstay.resolve_left hskipped
      have hsame : (desiredFor draft row occurrence).map sha256Canonical = row.desiredHash := by
        rw [hcoherent.hash, h.1]
        simp [desiredFor, hevent]
      have hunmet : row.status ≠ .unmet := by
        rcases h.2 with hs | hs | hs <;> simp [hs]
      have hheld : row.status ≠ .held := by
        rcases h.2 with hs | hs | hs <;> simp [hs]
      simp only [if_neg hskipped, if_pos (And.intro hsame hunmet)]
      exact if_neg fun hh => hheld hh.1
  unfold Planning.updateOccurrence
  rw [hout]

theorem Unwanted.reconcileRow {row : PlannedEvent} (h : Unwanted row) (hcoherent : Coherent row)
    {rule : PlanningRule} {draft : PlanningDraft} {result : PlanningResult}
    (hmem : row.id ∈ s.skips) (hstay : skipsStay s rule draft result row = true) :
    Unwanted (reconcileRow draft result s.clock row) := by
  unfold Planning.reconcileRow
  cases hocc : occurrenceFor result row with
  | none => exact h.closeStale _
  | some occurrence =>
    simp only [skipsStay, hmem, hocc, not_true_eq_false, decide_false, Bool.false_or,
      Option.all_some, Bool.or_eq_true, decide_eq_true_eq, Option.isNone_iff_eq_none] at hstay
    simp only
    rw [h.updateOccurrence hcoherent hstay]
    exact h

theorem Unwanted.pendingDelete {row : PlannedEvent} (h : Unwanted row)
    (hpending : row.status.pending = true) : row.status = .pendingDelete := by
  rcases h.2 with hstatus | hstatus | hstatus
  · exact hstatus
  · simp [hstatus, PlannedStatus.pending] at hpending
  · simp [hstatus, PlannedStatus.pending] at hpending

theorem Unwanted.applying {target : PlannedEvent} (h : Unwanted target) {c : Conversation}
    {applied : Applied} (hpending : target.status.pending = true)
    (happlying : Applying s target c applied) :
    Unwanted applied.row := by
  have hstatus := h.pendingDelete hpending
  have hmarked : ∀ {row : PlannedEvent}, Marked target row → Unwanted row := by
    rintro row ⟨status, code, rfl, hkeep | ⟨-, hopen⟩⟩
    · exact ⟨h.1, Or.inl (hkeep.trans hstatus)⟩
    · exact absurd hstatus hopen
  cases happlying with
  | stopped hmark | unconfirmed _ hmark => exact hmarked hmark
  | deleted =>
    refine ⟨h.1, ?_⟩
    unfold deletedRow
    split
    · exact Or.inr (Or.inl rfl)
    · exact Or.inr (Or.inr rfl)
  | found hopen => exact absurd hstatus hopen
  | written hopen => exact absurd hstatus hopen

theorem Unwanted.removeRow (now : Instant) (row : PlannedEvent) : Unwanted (removeRow now row) := by
  unfold Planning.removeRow
  split
  · exact ⟨rfl, Or.inl rfl⟩
  · exact ⟨rfl, Or.inr (Or.inr rfl)⟩

theorem unwanted_acceptProposal (row : PlannedEvent) : Unwanted (acceptProposal none row) := by
  refine ⟨rfl, ?_⟩
  unfold acceptProposal
  simp only
  split
  · exact Or.inl rfl
  · exact Or.inr (Or.inl rfl)

/-! ## Suggestions -/

/-- Suggestions are made for rows with a desired state. -/
def BasesPresent (suggestions : List Suggestion) : Prop :=
  ∀ suggestion ∈ suggestions, suggestion.basisHash.preimage.current.isSome

theorem updateOutcome_suggestion {draft : PlanningDraft} {occurrence : PlannedOccurrenceTemplate}
    {now : Instant} {row : PlannedEvent}
    (h : updateOutcome draft row occurrence now = .suggestion) : row.status = .converged := by
  cases Decided.of_eq h with
  | suggestion hpolicy hstatus => exact hstatus

theorem mem_insertSuggestions {suggestion : Suggestion} (fresh : List Suggestion)
    {suggestions : List Suggestion} (h : suggestion ∈ fresh.foldl insertSuggestion suggestions) :
    suggestion ∈ suggestions ∨ suggestion ∈ fresh := by
  induction fresh generalizing suggestions with
  | nil => exact Or.inl h
  | cons first rest ih =>
    rcases ih h with hmem | hmem
    · unfold insertSuggestion at hmem
      split at hmem
      · exact Or.inl hmem
      · rcases List.mem_append.1 hmem with hmem | hmem
        · exact Or.inl hmem
        · rw [List.mem_singleton.1 hmem]
          exact Or.inr (.head _)
    · exact Or.inr (.tail _ hmem)

theorem suggestionFor_basis {draft : PlanningDraft} {result : PlanningResult} {now : Instant}
    {revision : Nat} {newId : String → String} {row : PlannedEvent} {suggestion : Suggestion}
    (hchecked : row.Checked)
    (h : suggestionFor draft result now revision newId row = some suggestion) :
    suggestion.basisHash.preimage.current.isSome := by
  unfold suggestionFor at h
  obtain ⟨occurrence, -, h⟩ := Option.bind_eq_some_iff.1 h
  split at h
  · rename_i hout
    cases h
    have hstatus := updateOutcome_suggestion hout
    simp only [PlannedEvent.Checked, hstatus, PlannedStatus.closed] at hchecked
    exact hchecked.2
  · cases h

theorem BasesPresent.map {suggestions : List Suggestion} (h : BasesPresent suggestions)
    {f : Suggestion → Suggestion} (hf : ∀ suggestion, (f suggestion).basisHash = suggestion.basisHash) :
    BasesPresent (suggestions.map f) := by
  intro suggestion hmem
  obtain ⟨before, hbefore, rfl⟩ := List.mem_map.1 hmem
  rw [hf]
  exact h before hbefore

theorem Effect.basesPresent (hs : s.Constraints) (h : Effect zones emailText s e s')
    (hbases : BasesPresent s.suggestions) : BasesPresent s'.suggestions := by
  cases h with
  | idle | tick | previewed | activated | paused => exact hbases
  | @reconciled ruleId read newId rule draft result hrule hactive hplan hc =>
    intro suggestion hmem
    rcases mem_insertSuggestions _ hmem with hold | hnew
    · exact hbases suggestion hold
    · obtain ⟨row, hrow, hsuggestion⟩ := List.mem_filterMap.1 hnew
      exact suggestionFor_basis (hs.checked row (List.mem_filter.1 hrow).1) hsuggestion
  | applied =>
    rw [applied_suggestions]
    exact hbases
  | accepted =>
    apply BasesPresent.map
    · apply BasesPresent.map hbases
      intro suggestion
      split <;> rfl
    · intro suggestion
      split <;> rfl
  | dismissed | expired | removed =>
    apply BasesPresent.map hbases
    intro suggestion
    split <;> rfl

/-- The basis of a suggestion names a desired state, so the row of an accepted one has a desired
state. -/
theorem Accepts.desired_ne_none {suggestionId : String} {read : Tables} {suggestion : Suggestion}
    {rule : PlanningRule} {row : PlannedEvent} (hbases : BasesPresent s.suggestions)
    (hcoherent : Coherent row) (h : Accepts zones s suggestionId read suggestion rule row) :
    row.desiredState ≠ none := by
  intro hnone
  have hbasis := hbases suggestion (find?_key h.findSuggestion).1
  have hhash : row.desiredHash = none := by
    rw [hcoherent.hash, hnone]
    rfl
  rw [← h.basis] at hbasis
  simp [sha256Canonical, hhash] at hbasis

/-! ## Runs -/

/-- What a run that meets `skipsStay` keeps. -/
structure SkipInv (s : State) : Prop where
  final : SkipFinal s
  rows : ∀ id ∈ s.skips, ∃ row ∈ s.plannedEvents, row.id = id
  bases : BasesPresent s.suggestions

/-- A skip is added by the acceptance of a suggestion for its row. -/
theorem Effect.skips (h : Effect zones emailText s e s') {id : String} (hid : id ∈ s'.skips) :
    id ∈ s.skips ∨ ∃ suggestionId read suggestion rule row,
      e = .resolveSuggestion suggestionId .accept read ∧
      Accepts zones s suggestionId read suggestion rule row ∧ row.id = id ∧
      suggestion.proposedState = none ∧ s' = s.accepted suggestion := by
  cases h with
  | applied =>
    rw [applied_skips] at hid
    exact Or.inl hid
  | @accepted suggestionId read suggestion rule row h hc =>
    change id ∈ (if _ then _ else _) at hid
    split at hid
    · rename_i hnone
      rcases List.mem_append.1 hid with hmem | hmem
      · exact Or.inl hmem
      · rw [Option.isNone_iff_eq_none] at hnone
        refine Or.inr ⟨_, _, suggestion, rule, row, rfl, h, ?_, hnone, rfl⟩
        rw [List.mem_singleton.1 hmem]
        exact (find?_key h.findRow).2
    · exact Or.inl hid
  | idle | tick | previewed | activated | reconciled | dismissed | expired | paused | removed =>
    exact Or.inl hid

/-- A row whose skip was accepted before the step. -/
theorem SkipInv.row (hcoherent : ∀ row ∈ s.plannedEvents, Coherent row)
    (h : SkipInv s) (he : EachRow zones skipsStay s e = true) {row row' : PlannedEvent}
    (hrow : row ∈ s.plannedEvents) (hid : row.id ∈ s.skips)
    (hchange : RowChange zones s e row row') : Unwanted row' := by
  have hunwanted := h.final row hrow hid
  cases hchange with
  | same => exact hunwanted
  | reconciled hrule hactive hplan hrowRule =>
    exact hunwanted.reconcileRow (hcoherent row hrow) hid
      (EachRow.row he hrule hactive hplan hrow hrowRule)
  | applied happlies happlying => exact hunwanted.applying happlies.pending happlying
  | accepted haccepts =>
    exact absurd hunwanted.1 (haccepts.desired_ne_none h.bases (hcoherent row hrow))
  | removed => exact .removeRow _ _

theorem SkipInv.step (hs : s.Constraints) (hcoherent : ∀ row ∈ s.plannedEvents, Coherent row)
    (h : SkipInv s) (he : EachRow zones skipsStay s e = true) :
    SkipInv (step zones emailText s e) := by
  have heffect := step_effect zones emailText s e
  have hs' := heffect.constraints hs
  refine ⟨?_, ?_, heffect.basesPresent hs h.bases⟩
  · intro row' hrow' hid
    rcases heffect.skips hid with
      hbefore | ⟨suggestionId, read, suggestion, rule, row, rfl, haccepts, hrowId, hnone, hstate⟩
    · obtain ⟨row, hrow, hrowId⟩ := h.rows _ hbefore
      exact h.row hcoherent he hrow (hrowId ▸ hbefore)
        (heffect.row_change hs hs' hrow hrow' hrowId.symm)
    · rw [hstate] at hrow'
      have hsid := (find?_key haccepts.findRow).2
      rcases mem_updateRow hrow' with ⟨before, -, -, rfl⟩ | ⟨-, hne⟩
      · rw [hnone]
        exact unwanted_acceptProposal before
      · exact absurd (hrowId.symm.trans hsid) hne
  · intro id hid
    have hbefore : ∃ row ∈ s.plannedEvents, row.id = id := by
      rcases heffect.skips hid with
        hbefore | ⟨_, _, _, _, row, -, haccepts, hrowId, -⟩
      · exact h.rows _ hbefore
      · exact ⟨row, (find?_key haccepts.findRow).1, hrowId⟩
    obtain ⟨row, hrow, rfl⟩ := hbefore
    obtain ⟨row', hrow', hchange⟩ := heffect.row hs hrow
    exact ⟨row', hrow', hchange.same_row.id⟩

theorem skipInv_of_reachable
    (h : (planning zones emailText).Reachable (fun s e => EachRow zones skipsStay s e) s) :
    SkipInv s := by
  refine h.invariant_reachable ?_ ?_
  · rintro s ⟨-, -, hrows, hsuggestions, -, hskips, -⟩
    refine ⟨?_, ?_, ?_⟩
    · simp [SkipFinal, hrows]
    · simp [hskips]
    · simp [BasesPresent, hsuggestions]
  · intro t e ht hinv he
    exact hinv.step (constraints_of_reachable ht) (coherent_of_reachable ht) he

/-! ## The provider -/

theorem mem_deletePlanningEvent {eventId : RemoteEventId} {remote : List RemotePlanningEvent}
    {event : RemotePlanningEvent} (h : event ∈ deletePlanningEvent eventId remote) :
    event ∈ remote ∧ event.eventId ≠ eventId := by
  obtain ⟨hmem, hne⟩ := List.mem_filter.1 h
  exact ⟨hmem, of_decide_eq_true hne⟩

/-- An event at the provider after an application was there before, or is the desired state of the
row, which is not to be deleted. -/
theorem Applying.remote {target : PlannedEvent} {c : Conversation} (hcoherent : Coherent target)
    {applied : Applied} (h : Applying s target c applied) {event : RemotePlanningEvent} (hevent : event ∈ applied.remote) :
    event ∈ s.remote ∨
      (target.status ≠ .pendingDelete ∧ event.event.provenance.plannedEventRef = target.id) := by
  cases h with
  | stopped | found => exact Or.inl hevent
  | unconfirmed | deleted => exact Or.inl (mem_deletePlanningEvent hevent).1
  | @written base row remote hstatus hbase hrow hremote =>
    rcases hremote with rfl | ⟨-, desired, hdesired, rfl⟩
    · exact Or.inl hevent
    · rcases List.mem_append.1 hevent with hmem | hmem
      · exact Or.inl (mem_deletePlanningEvent hmem).1
      · rw [List.mem_singleton.1 hmem]
        refine Or.inr ⟨hstatus, ?_⟩
        rcases hbase with rfl | ⟨rfl, -⟩
        · exact (hcoherent.markers desired hdesired).1
        · exact (hcoherent.nextGeneration.markers desired hdesired).1

theorem Effect.untouched (hcoherent : ∀ row ∈ s.plannedEvents, Coherent row)
    (hfinal : SkipFinal s) (h : Effect zones emailText s e s') {event : RemotePlanningEvent}
    (hevent : event ∈ s'.remote) (hskip : event.event.provenance.plannedEventRef ∈ s.skips) :
    event ∈ s.remote := by
  cases h with
  | @applied plannedEventId expectedIntent c target rule applied happlies hconverse =>
    rw [applied_remote] at hevent
    have htarget := (find?_key happlies.findRow).1
    rcases (converse_cases hconverse).remote (hcoherent target htarget) hevent with
      hbefore | ⟨hopen, href⟩
    · exact hbefore
    · have hunwanted := hfinal target htarget (href ▸ hskip)
      exact absurd (hunwanted.pendingDelete happlies.pending) hopen
  | idle | tick | previewed | activated | reconciled | accepted | dismissed | expired | paused
  | removed => exact hevent

/-- **An accepted skip is final** in a run whose reconciliations meet `skipsStay`: its row never
wants an event again, and no event of it is created or updated. -/
theorem skipFinal_of_skipsStay
    (hs : (planning zones emailText).Reachable (fun s e => EachRow zones skipsStay s e) s) :
    SkipFinal s ∧ ∀ e, SkipUntouched zones emailText s e :=
  ⟨(skipInv_of_reachable hs).final, fun e _ hevent hskip =>
    (step_effect zones emailText s e).untouched (coherent_of_reachable hs)
      (skipInv_of_reachable hs).final hevent hskip⟩

/-- The hours of the meeting are taken, and the user accepts that it is skipped. -/
def Sample.full : List Instant :=
  [10, 11, 12, 13].map fun n => Sample.monday + n * Sample.hour

def Sample.skip : List Event :=
  Sample.placed .suggest ++ [Sample.pass Sample.monday Sample.full,
    .resolveSuggestion "suggestion" .accept (Sample.read Sample.monday Sample.full)]

/-- The event is deleted before its hour is free again. -/
theorem skipFinal_deleted :
    ((planning Sample.zones id).run Sample.start (Sample.skip ++
      [.apply "event" 2 Sample.answered, Sample.pass Sample.monday []])).skips = ["event"] ∧
    SkipFinal ((planning Sample.zones id).run Sample.start (Sample.skip ++
      [.apply "event" 2 Sample.answered, Sample.pass Sample.monday []])) := by
  have hadmits : (planning Sample.zones id).Admits
      (fun s e => EachRow Sample.zones skipsStay s e = true) Sample.start (Sample.skip ++
        [.apply "event" 2 Sample.answered, Sample.pass Sample.monday []]) := by decide +kernel
  have hreachable : (planning Sample.zones id).Reachable
      (fun s e => EachRow Sample.zones skipsStay s e) ((planning Sample.zones id).run Sample.start
        (Sample.skip ++ [.apply "event" 2 Sample.answered, Sample.pass Sample.monday []])) :=
    ⟨Sample.start, Sample.start_init _ _, Machine.leads_run _ _ hadmits⟩
  exact ⟨by decide +kernel, (skipFinal_of_skipsStay hreachable).1⟩

/-- An hour is free again before the event is deleted. -/
theorem not_skipFinal_pending :
    (planning Sample.zones id).Reachable (fun _ _ => True)
      ((planning Sample.zones id).run Sample.start
        (Sample.skip ++ [Sample.pass Sample.monday []])) ∧
    ¬ SkipFinal ((planning Sample.zones id).run Sample.start
      (Sample.skip ++ [Sample.pass Sample.monday []])) :=
  ⟨⟨Sample.start, Sample.start_init _ _, Machine.leads_run_free _ _⟩, by decide +kernel⟩

end Skips

end Planipus.Planning

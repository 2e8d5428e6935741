import Planipus.Planning.Verify.Steps

/-!
# An activation inserts what its preview showed

The planner asks of the busy time only whether some interval of it overlaps a candidate, and of the
known calendars only whether they contain one, so two readings with the same snapshot give the same
plan in whatever order the rows came (`planScheduling_congr`). The draft of an activation is the
stored one with its addresses put into normal form again, which the planner copies into the events
and never looks at (`planScheduling_readdress`).
-/

namespace Planipus.Planning

open CalendarSync Sync Library

/-! ## Outlines -/

/-- What the user is shown of an occurrence. -/
structure Outline where
  occurrenceKey : String
  decision : Decision
  reasonCode : String
  timing : Option PlannedTiming
deriving DecidableEq

def PlannedOccurrenceTemplate.outline (occurrence : PlannedOccurrenceTemplate) : Outline where
  occurrenceKey := occurrence.occurrenceKey
  decision := occurrence.decision
  reasonCode := occurrence.reasonCode
  timing := occurrence.event.map (·.timing)

def PlannedEvent.outline (row : PlannedEvent) : Outline where
  occurrenceKey := row.occurrenceKey
  decision := if row.status = .unmet then .unmet else .schedule
  reasonCode := row.reasonCode
  timing := row.timing

/-- The decision says whether there is an event. -/
def PlannedOccurrenceTemplate.Consistent (occurrence : PlannedOccurrenceTemplate) : Prop :=
  occurrence.decision = if occurrence.event.isSome then .schedule else .unmet

theorem insertOccurrence_outline {occurrence : PlannedOccurrenceTemplate}
    (h : occurrence.Consistent) (ruleId newId : String) (draft : PlanningDraft) :
    (insertOccurrence ruleId newId draft occurrence).outline = occurrence.outline := by
  unfold PlannedOccurrenceTemplate.Consistent at h
  cases hevent : occurrence.event <;>
    simp [insertOccurrence, PlannedEvent.outline, PlannedOccurrenceTemplate.outline,
      PlannedEvent.timing, hevent, h]

/-! ## The order of the rows -/

section Congruence

variable {zones : String → Option Zone} {busy busy' : List PlanningBusyInterval}

theorem any_congr_of_mem {α : Type} {xs ys : List α} (h : ∀ a, a ∈ xs ↔ a ∈ ys) (p : α → Bool) :
    xs.any p = ys.any p := by
  rw [Bool.eq_iff_iff, List.any_eq_true, List.any_eq_true]
  constructor
  · rintro ⟨a, ha, hp⟩
    exact ⟨a, (h a).1 ha, hp⟩
  · rintro ⟨a, ha, hp⟩
    exact ⟨a, (h a).2 ha, hp⟩

theorem conflicts_congr (h : ∀ i, i ∈ busy ↔ i ∈ busy') (earliest : InstantText)
    (used : List TextInterval) : conflicts earliest busy used = conflicts earliest busy' used := by
  funext candidate
  unfold conflicts
  rw [any_congr_of_mem h]

theorem meetingOccurrence_congr (h : ∀ i, i ∈ busy ↔ i ∈ busy') (z : Zone)
    (draft : SmartMeetingDraft) (windows used : List TextInterval) (now : Instant) (start : String) :
    meetingOccurrence z draft windows busy used now start =
      meetingOccurrence z draft windows busy' used now start := by
  have hslot : chooseMeetingSlot z draft windows busy used now =
      chooseMeetingSlot z draft windows busy' used now := by
    unfold chooseMeetingSlot
    simp only [conflicts_congr h]
  unfold meetingOccurrence
  rw [hslot]

theorem planCycles_congr (h : ∀ i, i ∈ busy ↔ i ∈ busy') (z : Zone) (draft : SmartMeetingDraft)
    (profile : HoursProfile) (now : Instant) (count : Nat) (start : String)
    (used : List TextInterval) (warnings : List PlanningWarning) :
    planCycles zones z draft profile busy now count start used warnings =
      planCycles zones z draft profile busy' now count start used warnings := by
  induction count generalizing start used warnings with
  | zero => rfl
  | succ count ih =>
    unfold planCycles
    simp only [meetingOccurrence_congr h, ih]

theorem meetingWarnings_congr {known known' : List String} (h : ∀ c, c ∈ known ↔ c ∈ known')
    (draft : SmartMeetingDraft) : meetingWarnings draft known = meetingWarnings draft known' := by
  unfold meetingWarnings
  simp only [h]

/-- The plan depends on which busy intervals and known calendars there are, not on their order. -/
theorem planScheduling_congr {known known' : List String} (hbusy : ∀ i, i ∈ busy ↔ i ∈ busy')
    (hknown : ∀ c, c ∈ known ↔ c ∈ known') (draft : PlanningDraft) (now : Instant) :
    planScheduling zones ⟨draft, now, busy, known⟩ =
      planScheduling zones ⟨draft, now, busy', known'⟩ := by
  cases draft with
  | availabilityBoundary draft => rfl
  | smartMeeting draft =>
    change planSmartMeeting zones draft _ = planSmartMeeting zones draft _
    unfold planSmartMeeting
    simp only [planCycles_congr hbusy, meetingWarnings_congr hknown]

theorem mem_iff_of_insertionSort_eq {α : Type} {r : α → α → Prop} [DecidableRel r] {xs ys : List α}
    (h : xs.insertionSort r = ys.insertionSort r) (a : α) : a ∈ xs ↔ a ∈ ys := by
  have hxs := (List.perm_insertionSort r xs).mem_iff (a := a)
  have hys := (List.perm_insertionSort r ys).mem_iff (a := a)
  rw [← hxs, h, hys]

/-- A snapshot tells which busy intervals and known calendars were read. -/
theorem planningSnapshotDocument_mem {target target' : Policy.CalendarRow}
    {calendars calendars' : List Policy.CalendarRow} {known known' : List String}
    (h : planningSnapshotDocument target calendars known busy =
      planningSnapshotDocument target' calendars' known' busy') :
    (∀ i, i ∈ busy ↔ i ∈ busy') ∧ ∀ c, c ∈ known ↔ c ∈ known' := by
  have hbusy := congrArg PlanningSnapshot.busy h
  have hknown := congrArg PlanningSnapshot.availabilityCalendarIds h
  exact ⟨mem_iff_of_insertionSort_eq hbusy, mem_iff_of_insertionSort_eq hknown⟩

end Congruence

/-! ## The attendees -/

section Attendees

variable {zones : String → Option Zone}

def PlanningResult.outlines (result : PlanningResult) : List Outline :=
  result.occurrences.map (·.outline)

def SmartMeetingDraft.withAttendees (draft : SmartMeetingDraft)
    (attendees : List SmartMeetingAttendee) : SmartMeetingDraft :=
  { draft with attendees }

theorem interval?_eq (occurrence : PlannedOccurrenceTemplate) :
    occurrence.interval? =
      occurrence.outline.timing.map fun timing => ⟨timing.startInstant, timing.endInstant⟩ := by
  unfold PlannedOccurrenceTemplate.interval? PlannedOccurrenceTemplate.outline
  rw [Option.map_map]
  rfl

theorem scanDurations_attendees (z : Zone) (draft : SmartMeetingDraft)
    (attendees : List SmartMeetingAttendee) (windows : List TextInterval)
    (conflict : TextInterval → Bool) (durations : List Nat) (rejected : Nat) :
    scanDurations z (draft.withAttendees attendees) windows conflict durations rejected =
      scanDurations z draft windows conflict durations rejected := by
  induction durations generalizing rejected with
  | nil => rfl
  | cons duration rest ih =>
    have htry : tryCursor z (draft.withAttendees attendees) conflict duration =
        tryCursor z draft conflict duration := rfl
    have hcursors : cursors (draft.withAttendees attendees) = cursors draft := rfl
    unfold scanDurations
    simp only [htry, hcursors, ih]

theorem meetingOccurrence_attendees (z : Zone) (draft : SmartMeetingDraft)
    (attendees : List SmartMeetingAttendee) (windows : List TextInterval)
    (busy : List PlanningBusyInterval) (used : List TextInterval) (now : Instant) (start : String) :
    (meetingOccurrence z (draft.withAttendees attendees) windows busy used now start).outline =
      (meetingOccurrence z draft windows busy used now start).outline := by
  have hslot : chooseMeetingSlot z (draft.withAttendees attendees) windows busy used now =
      chooseMeetingSlot z draft windows busy used now := by
    unfold chooseMeetingSlot
    simp only [scanDurations_attendees]
    rfl
  unfold meetingOccurrence
  rw [hslot]
  cases chooseMeetingSlot z draft windows busy used now <;> rfl

variable (zones) in
/-- The cycles after the first depend on the slots before them, and slots are part of an outline. -/
theorem planCycles_attendees (z : Zone) (draft : SmartMeetingDraft)
    (attendees : List SmartMeetingAttendee) (profile : HoursProfile)
    (busy : List PlanningBusyInterval) (now : Instant) (count : Nat) (start : String)
    (used : List TextInterval) (warnings warnings' : List PlanningWarning) :
    ((planCycles zones z (draft.withAttendees attendees) profile busy now count start used warnings).map
      fun r => r.1.map (·.outline)) =
      (planCycles zones z draft profile busy now count start used warnings').map
        fun r => r.1.map (·.outline) := by
  induction count generalizing start used warnings warnings' with
  | zero => rfl
  | succ count ih =>
    unfold planCycles
    cases hend : addLocalDays start (7 * draft.cadenceWeeks) with
    | none => simp [SmartMeetingDraft.withAttendees, hend]
    | some finish =>
      have hfirst := meetingOccurrence_attendees z draft attendees
        (materializeHours zones profile start finish).concreteIntervals busy used now start
      have hend' : addLocalDays start (7 * (draft.withAttendees attendees).cadenceWeeks) =
          some finish := hend
      simp only [hend', Option.bind_eq_bind, Option.bind_some, interval?_eq, hfirst]
      -- Both sides go on with the same slots; only the warnings may differ.
      generalize (materializeHours zones profile start finish).diagnostics.foldl _ warnings = w
      generalize (materializeHours zones profile start finish).diagnostics.foldl _ warnings' = w'
      generalize used ++ _ = used'
      have hrest := ih finish used' w w'
      cases hl : planCycles zones z (draft.withAttendees attendees) profile busy now count finish
          used' w with
      | none =>
        cases hr : planCycles zones z draft profile busy now count finish used' w' with
        | none => rfl
        | some r => simp [hl, hr] at hrest
      | some l =>
        cases hr : planCycles zones z draft profile busy now count finish used' w' with
        | none => simp [hl, hr] at hrest
        | some r =>
          simp only [hl, hr, Option.map_some, Option.some.injEq] at hrest
          simp only [Option.bind_some, Option.pure_def, Option.map_some, List.map_cons, hfirst, hrest]

variable (zones) in
theorem planScheduling_attendees (emailText : String → String) (draft : PlanningDraft)
    (now : Instant) (busy : List PlanningBusyInterval) (known : List String) :
    (planScheduling zones ⟨parsePlanningDraft emailText draft, now, busy, known⟩).map
        PlanningResult.outlines =
      (planScheduling zones ⟨draft, now, busy, known⟩).map PlanningResult.outlines := by
  cases draft with
  | availabilityBoundary draft => rfl
  | smartMeeting draft =>
    let attendees := draft.attendees.map fun attendee =>
      { attendee with email := emailText attendee.email }
    change (planSmartMeeting zones (draft.withAttendees attendees) _).map _ =
      (planSmartMeeting zones draft _).map _
    unfold planSmartMeeting
    cases hz : zones draft.timezone with
    | none => simp [SmartMeetingDraft.withAttendees, hz]
    | some z =>
      have hz' : zones (draft.withAttendees attendees).timezone = some z := hz
      have hcycles := planCycles_attendees zones z draft attendees
        (meetingProfile draft) busy now draft.occurrenceCount draft.startDate []
        (meetingWarnings (draft.withAttendees attendees) known) (meetingWarnings draft known)
      simp only [hz', Option.bind_eq_bind, Option.bind_some]
      change Option.map _ (Option.bind (planCycles zones z (draft.withAttendees attendees)
        (meetingProfile draft) busy now draft.occurrenceCount draft.startDate [] _) _) = _
      generalize planCycles zones z (draft.withAttendees attendees) (meetingProfile draft) busy now
        draft.occurrenceCount draft.startDate []
        (meetingWarnings (draft.withAttendees attendees) known) = left at hcycles ⊢
      generalize planCycles zones z draft (meetingProfile draft) busy now draft.occurrenceCount
        draft.startDate [] (meetingWarnings draft known) = right at hcycles ⊢
      cases left <;> cases right <;> simp_all [PlanningResult.outlines]

end Attendees

/-! ## Decisions -/

section Decisions

variable {zones : String → Option Zone}

theorem meetingOccurrence_consistent (z : Zone) (draft : SmartMeetingDraft)
    (windows : List TextInterval) (busy : List PlanningBusyInterval) (used : List TextInterval)
    (now : Instant) (start : String) :
    (meetingOccurrence z draft windows busy used now start).Consistent := by
  unfold meetingOccurrence
  cases chooseMeetingSlot z draft windows busy used now <;> rfl

theorem planCycles_consistent {z : Zone} {draft : SmartMeetingDraft} {profile : HoursProfile}
    {busy : List PlanningBusyInterval} {now : Instant} {count : Nat} {start : String}
    {used : List TextInterval} {warnings : List PlanningWarning}
    {r : List PlannedOccurrenceTemplate × List PlanningWarning}
    (h : planCycles zones z draft profile busy now count start used warnings = some r) :
    ∀ occurrence ∈ r.1, occurrence.Consistent := by
  induction count generalizing start used warnings r with
  | zero =>
    simp only [planCycles, Option.some.injEq] at h
    subst h
    intro occurrence hmem
    cases hmem
  | succ count ih =>
    unfold planCycles at h
    simp only [Option.bind_eq_bind, Option.bind_eq_some_iff, Option.pure_def,
      Option.some.injEq] at h
    obtain ⟨finish, -, rest, hrest, rfl⟩ := h
    intro occurrence hmem
    rcases List.mem_cons.1 hmem with rfl | hmem
    · exact meetingOccurrence_consistent ..
    · exact ih hrest occurrence hmem

theorem planScheduling_consistent {input : PlanningInput} {result : PlanningResult}
    (h : planScheduling zones input = some result) :
    ∀ occurrence ∈ result.occurrences, occurrence.Consistent := by
  unfold planScheduling at h
  split at h
  · simp only [planAvailabilityBoundary, Option.bind_eq_bind, Option.bind_eq_some_iff,
      Option.pure_def, Option.some.injEq] at h
    obtain ⟨z, -, finish, -, rfl⟩ := h
    intro occurrence hmem
    obtain ⟨interval, -, rfl⟩ := List.mem_map.1 hmem
    rfl
  · simp only [planSmartMeeting, Option.bind_eq_bind, Option.bind_eq_some_iff, Option.pure_def,
      Option.some.injEq] at h
    obtain ⟨z, -, r, hr, rfl⟩ := h
    exact planCycles_consistent hr

end Decisions

/-! ## Previews and activations -/

section Previews

variable {zones : String → Option Zone} {emailText : String → String} {s s' : State}

/-- Two readings with one snapshot give plans with one outline. -/
theorem plan_outlines {read read' : Tables} {draft : PlanningDraft} {now : Instant}
    {prepared prepared' : Prepared} {result result' : PlanningResult}
    (h : prepare zones read draft now none = .ok prepared)
    (h' : prepare zones read' (parsePlanningDraft emailText draft) now none = .ok prepared')
    (hhash : prepared'.snapshotHash = prepared.snapshotHash)
    (hplan : planScheduling zones prepared.input = some result)
    (hplan' : planScheduling zones prepared'.input = some result') :
    result'.outlines = result.outlines := by
  obtain ⟨target, calendars, busy, known, hinput, hsnapshot⟩ := prepare_ok h
  obtain ⟨target', calendars', busy', known', hinput', hsnapshot'⟩ := prepare_ok h'
  rw [hsnapshot, hsnapshot', sha256Canonical_inj] at hhash
  obtain ⟨hbusy, hknown⟩ := planningSnapshotDocument_mem hhash
  rw [hinput', planScheduling_congr hbusy hknown] at hplan'
  rw [hinput] at hplan
  have hattendees := planScheduling_attendees zones emailText draft now busy known
  rw [hplan, hplan'] at hattendees
  exact Option.some.inj hattendees

/-- What a stored preview shows is the plan of some reading with its snapshot. -/
def PreviewPlan (zones : String → Option Zone) (preview : PlanningPreview) : Prop :=
  ∃ read prepared,
    prepare zones read preview.draft preview.planningReferenceAt none = .ok prepared ∧
    prepared.snapshotHash = preview.inputSnapshotHash ∧
    planScheduling zones prepared.input = some preview.result

/-- Nothing but the time of its use is written to a stored preview. -/
theorem Effect.previews {e : Event} (h : Effect zones emailText s e s')
    (hs : ∀ preview ∈ s.previews, PreviewPlan zones preview) :
    ∀ preview ∈ s'.previews, PreviewPlan zones preview := by
  cases h with
  | previewed h =>
    intro preview hmem
    rcases List.mem_append.1 hmem with hmem | hmem
    · exact hs preview hmem
    · rw [List.mem_singleton.1 hmem]
      obtain ⟨prepared, hprepared⟩ := h.plan
      exact ⟨_, prepared, hprepared⟩
  | activated =>
    apply forall_updateRow
    · exact fun preview hmem _ => hs preview hmem
    · exact fun preview hmem _ => hs preview hmem
  | applied =>
    rw [applied_previews]
    exact hs
  | idle | tick | reconciled | accepted | dismissed | expired | paused | removed => exact hs

theorem previewPlan_of_reachable {ok : State → Event → Prop}
    (h : (planning zones emailText).Reachable ok s) :
    ∀ preview ∈ s.previews, PreviewPlan zones preview := by
  refine h.invariant ?_ fun t e ht _ => (step_effect zones emailText t e).previews ht
  rintro s ⟨hpreviews, -⟩ preview hmem
  rw [hpreviews] at hmem
  cases hmem

theorem insertOccurrences_outline {result : PlanningResult}
    (h : ∀ occurrence ∈ result.occurrences, occurrence.Consistent) (ruleId : String)
    (newId : Nat → String) (draft : PlanningDraft) :
    ((result.occurrences.zipIdx.map fun (occurrence, n) =>
      insertOccurrence ruleId (newId (n + 1)) draft occurrence).map (·.outline)) =
      result.outlines := by
  have houtline : ∀ x ∈ result.occurrences.zipIdx,
      (insertOccurrence ruleId (newId (x.2 + 1)) draft x.1).outline = x.1.outline := by
    intro x hx
    exact insertOccurrence_outline (h x.1 (List.fst_mem_of_mem_zipIdx hx)) ..
  rw [List.map_map]
  calc result.occurrences.zipIdx.map _
      = result.occurrences.zipIdx.map (PlannedOccurrenceTemplate.outline ∘ Prod.fst) :=
        List.map_congr_left houtline
    _ = (result.occurrences.zipIdx.map Prod.fst).map PlannedOccurrenceTemplate.outline := by
        rw [List.map_map]
    _ = result.outlines := by
        rw [List.zipIdx_map_fst]
        rfl

/-- **Preview equals activation**: an activation that succeeds adds the planned events that its
preview showed: the same keys, decisions, reason codes and times, in the same order. -/
theorem activate_matches_preview {ok : State → Event → Prop}
    (hs : (planning zones emailText).Reachable ok s) {principalId previewId : String}
    {read : Tables} {newId : Nat → String}
    (h : activate zones emailText s principalId previewId read newId = .ok s') :
    ∃ preview ∈ s.previews, preview.id = previewId ∧ preview.principalId = principalId ∧
      ∃ events, s'.plannedEvents = s.plannedEvents ++ events ∧
        events.map (·.outline) = preview.result.outlines := by
  obtain ⟨preview, result, hactivates, -, rfl⟩ := activate_ok h
  obtain ⟨prepared', hprepared', hhash', hplan'⟩ := hactivates.plan
  obtain ⟨read₀, prepared, hprepared, hhash, hplan⟩ :=
    previewPlan_of_reachable hs preview hactivates.mem
  refine ⟨preview, hactivates.mem, hactivates.id, hactivates.principal, _, rfl, ?_⟩
  rw [insertOccurrences_outline (planScheduling_consistent hplan')]
  exact plan_outlines hprepared hprepared' (hhash'.trans hhash.symm) hplan hplan'

end Previews

/-- The state in which the meeting of the sample has been shown, with its first hour busy. -/
def Sample.shown : State :=
  (planning Sample.zones id).run Sample.start
    [.preview "user" "preview" (Sample.meeting .suggest 60)
      (Sample.read Sample.monday [Sample.monday + 10 * Sample.hour, Sample.monday])]

/-- The activation that finds the same busy time in the other order. -/
def Sample.activation : Except Failure State :=
  activate Sample.zones id Sample.shown "user" "preview"
    (Sample.read Sample.monday [Sample.monday, Sample.monday + 10 * Sample.hour]) Sample.firstIds

theorem activate_matches_preview_meeting :
    ∃ s', Sample.activation = .ok s' ∧
      ∃ preview ∈ Sample.shown.previews, preview.id = "preview" ∧ preview.principalId = "user" ∧
        ∃ events, s'.plannedEvents = Sample.shown.plannedEvents ++ events ∧
          events.map (·.outline) = preview.result.outlines := by
  have hok : Sample.activation.isOk = true := by decide +kernel
  cases h : Sample.activation with
  | error failure =>
    rw [h] at hok
    cases hok
  | ok s' =>
    have hreachable : (planning Sample.zones id).Reachable (fun _ _ => True) Sample.shown :=
      ⟨Sample.start, Sample.start_init _ _, Machine.leads_run_free _ _⟩
    exact ⟨s', rfl, activate_matches_preview hreachable h⟩

end Planipus.Planning

import Planipus.Planning.Service
import Planipus.Planning.Validation
import Planipus.Planning.Verify.Reparse

/-!
# The drafts of the planner

The planner's drafts hold Unicode text and leave out the priority, which it does not read. `written` is
such a draft as the parser has it. Every draft that the parser returns has passed the checks of
`Planning.Validation` (`accepted_of_parsed`), and the second parse does to it what the service's
`parsePlanningDraft` does (`reparsed_written`).
-/

namespace Planipus.Planning

open CalendarSync Library
open Input (Runtime Members)

/-! ## Unicode text -/

def unitsText (text : String) : CodeUnits := units text.toList

theorem unitsText_injective : Function.Injective unitsText :=
  fun _ _ h => String.toList_inj.1 (units_injective h)

theorem isDigit_iff (c : Char) : c.isDigit = true ↔ Input.isDigit c.toNat = true := by
  simp only [Char.isDigit, Input.isDigit, Bool.and_eq_true, decide_eq_true_eq]
  exact and_congr UInt32.le_iff_toNat_le UInt32.le_iff_toNat_le

theorem ofDigitChars_eq (cs : List Char) (n : Nat) :
    Nat.ofDigitChars 10 cs n =
      (cs.map Char.toNat).foldl (fun value c => value * 10 + (c - 48)) n := by
  induction cs generalizing n with
  | nil => rfl
  | cons c cs ih =>
    rw [Nat.ofDigitChars_cons, ih, List.map_cons, List.foldl_cons, Nat.mul_comm 10 n]
    rfl

theorem lt_of_isDigit {cs : CodeUnits} (h : cs.all Input.isDigit = true) : ∀ c ∈ cs, c < 0xD800 := by
  intro c hc
  have hdigit := List.all_eq_true.1 h c hc
  simp only [Input.isDigit, Bool.and_eq_true, decide_eq_true_eq] at hdigit
  omega

theorem toNat_ofNat {us : CodeUnits} (h : ∀ c ∈ us, c < 0xD800) :
    (us.map Char.ofNat).map Char.toNat = us := by
  rw [List.map_map]
  refine (List.map_congr_left fun c hc => ?_).trans (List.map_id us)
  have hvalid : c.isValidChar := Or.inl (h c hc)
  rw [Function.comp_apply, Char.ofNat, dif_pos hvalid]
  rfl

theorem digits?_ofNat {us : CodeUnits} (h : us.all Input.isDigit = true) :
    digits? (us.map Char.ofNat) = some (Input.digitsValue us) := by
  have hnumbers := toNat_ofNat (lt_of_isDigit h)
  refine digits?_eq_some.2 ⟨fun c hc => (isDigit_iff c).2 ?_, ?_⟩
  · rw [← hnumbers] at h
    exact List.all_eq_true.1 h _ (List.mem_map_of_mem hc)
  · rw [ofDigitChars_eq, hnumbers]
    rfl

/-- Text whose units are in ASCII is written with these. -/
theorem toList_of_units {text : String} (h : ∀ c ∈ unitsText text, c < 0xD800) :
    text.toList.map Char.toNat = unitsText text ∧
      text.toList = (unitsText text).map Char.ofNat := by
  have hmap : text.toList.map Char.toNat = unitsText text := (units_eq_map h).symm
  refine ⟨hmap, ?_⟩
  rw [← hmap, List.map_map]
  exact ((List.map_congr_left fun c _ => Char.ofNat_toNat c).trans (List.map_id _)).symm

theorem hourPattern_spec {c d : Nat} (h : Input.hourPattern c d = true) :
    [c, d].all Input.isDigit = true ∧ Input.digitsValue [c, d] ≤ 23 := by
  simp only [Input.hourPattern, Input.isDigit, Bool.or_eq_true, Bool.and_eq_true,
    decide_eq_true_eq] at h
  simp only [List.all_cons, List.all_nil, Input.isDigit, Input.digitsValue, List.foldl_cons,
    List.foldl_nil, Bool.and_true, Bool.and_eq_true, decide_eq_true_eq]
  omega

theorem sixtyPattern_spec {c d : Nat} (h : Input.sixtyPattern c d = true) :
    [c, d].all Input.isDigit = true ∧ Input.digitsValue [c, d] ≤ 59 := by
  simp only [Input.sixtyPattern, Input.isDigit, Bool.and_eq_true, decide_eq_true_eq] at h
  simp only [List.all_cons, List.all_nil, Input.isDigit, Input.digitsValue, List.foldl_cons,
    List.foldl_nil, Bool.and_true, Bool.and_eq_true, decide_eq_true_eq]
  omega

/-- A time that the parser returns is in ASCII, and it is read as a local time. -/
theorem localTime?_of_clock {text : String} (h : Input.clockPattern (unitsText text) = true)
    (hlength : (unitsText text).length = 8) :
    text.toList.map Char.toNat = unitsText text ∧ (localTime? text).isSome = true := by
  unfold Input.clockPattern at h
  split at h
  · rename_i heq
    rw [heq] at hlength
    cases hlength
  · rename_i h₁ h₂ colon m₁ m₂ colon' s₁ s₂ heq
    simp only [Bool.and_eq_true, decide_eq_true_eq] at h
    obtain ⟨⟨⟨⟨hh, rfl⟩, hm⟩, rfl⟩, hs⟩ := h
    obtain ⟨hhd, hhour⟩ := hourPattern_spec hh
    obtain ⟨hmd, hminute⟩ := sixtyPattern_spec hm
    obtain ⟨hsd, hsecond⟩ := sixtyPattern_spec hs
    have hascii : ∀ c ∈ unitsText text, c < 0xD800 := by
      have hhlt := lt_of_isDigit hhd
      have hmlt := lt_of_isDigit hmd
      have hslt := lt_of_isDigit hsd
      rw [heq]
      simp only [List.forall_mem_cons] at hhlt hmlt hslt ⊢
      exact ⟨hhlt.1, hhlt.2.1, by decide, hmlt.1, hmlt.2.1, by decide, hslt⟩
    obtain ⟨hmap, hchars⟩ := toList_of_units hascii
    refine ⟨hmap, ?_⟩
    rw [heq] at hchars
    have hdigitsh := digits?_ofNat hhd
    have hdigitsm := digits?_ofNat hmd
    have hdigitss := digits?_ofNat hsd
    have hcolon : Char.ofNat 58 = ':' := rfl
    simp only [List.map_cons, List.map_nil, hcolon] at hchars hdigitsh hdigitsm hdigitss
    unfold localTime?
    rw [hchars]
    simp only
    rw [hdigitsh, hdigitsm, hdigitss]
    dsimp only
    rw [if_pos ⟨hhour, hminute, hsecond⟩]
    rfl
  · cases h

/-- A date that the parser returns is read as a local date. -/
theorem localDate?_of_date {text : String} (h : Input.datePattern (unitsText text) = true) :
    (localDate? text).isSome = true := by
  unfold Input.datePattern at h
  split at h
  · rename_i y₁ y₂ y₃ y₄ dash m₁ m₂ dash' d₁ d₂ heq
    simp only [Bool.and_eq_true, decide_eq_true_eq, List.all_cons, List.all_nil, Bool.and_true] at h
    obtain ⟨⟨⟨⟨⟨⟨⟨hy₁, hy₂, hy₃, hy₄, hm₁, hm₂, hd₁, hd₂⟩, rfl⟩, rfl⟩, hmonth⟩, hmonth'⟩, hday⟩,
      hday'⟩ := h
    have hyear : [y₁, y₂, y₃, y₄].all Input.isDigit = true := by simp [hy₁, hy₂, hy₃, hy₄]
    have hmonths : [m₁, m₂].all Input.isDigit = true := by simp [hm₁, hm₂]
    have hdays : [d₁, d₂].all Input.isDigit = true := by simp [hd₁, hd₂]
    have hascii : ∀ c ∈ unitsText text, c < 0xD800 := by
      have hylt := lt_of_isDigit hyear
      have hmlt := lt_of_isDigit hmonths
      have hdlt := lt_of_isDigit hdays
      rw [heq]
      simp only [List.forall_mem_cons] at hylt hmlt hdlt ⊢
      exact ⟨hylt.1, hylt.2.1, hylt.2.2.1, hylt.2.2.2.1, by decide, hmlt.1, hmlt.2.1, by decide,
        hdlt⟩
    obtain ⟨-, hchars⟩ := toList_of_units hascii
    have hdigitsy := digits?_ofNat hyear
    have hdigitsm := digits?_ofNat hmonths
    have hdigitsd := digits?_ofNat hdays
    rw [heq] at hchars
    have hdash : Char.ofNat 45 = '-' := rfl
    simp only [List.map_cons, List.map_nil, hdash] at hchars hdigitsy hdigitsm hdigitsd
    unfold localDate?
    rw [hchars]
    simp only
    rw [hdigitsy, hdigitsm, hdigitsd]
    dsimp only
    rw [if_pos ⟨hmonth, hmonth', hday, hday'⟩]
    rfl
  · cases h

/-- What the parser demands of a time, of the text that it came from. -/
theorem clock_text {value : Option JsonValue} {field : String} {text : String}
    (h : Input.Field.clock value field = .ok (unitsText text)) :
    text.toList.map Char.toNat = unitsText text ∧ (localTime? text).isSome = true := by
  obtain ⟨hpattern, hlength⟩ := Input.clock_spec h
  exact localTime?_of_clock hpattern hlength

theorem lessThan_text {text text' : String} (h : text.toList.map Char.toNat = unitsText text)
    (h' : text'.toList.map Char.toNat = unitsText text') :
    lessThan (unitsText text) (unitsText text') ↔ text < text' := by
  rw [← h, ← h']
  exact lex_map_toNat

/-! ## Boundaries -/

def AvailabilityBoundaryDraft.written (draft : AvailabilityBoundaryDraft) :
    Input.AvailabilityBoundaryDraft where
  name := unitsText draft.name
  targetCalendarId := unitsText draft.targetCalendarId
  timezone := unitsText draft.timezone
  workingDays := draft.workingDays
  workdayStart := unitsText draft.workdayStart
  workdayEnd := unitsText draft.workdayEnd
  protectBeforeWork := draft.protectBeforeWork
  protectAfterWork := draft.protectAfterWork
  protectClosedDays := draft.protectClosedDays
  title := unitsText draft.title
  visibility := draft.visibility
  horizonDays := draft.horizonDays

theorem AvailabilityBoundaryDraft.accepted_of_fields {rt : Runtime} {value : Members}
    {draft : AvailabilityBoundaryDraft} (h : Input.BoundaryFields rt value draft.written) :
    draft.accepted = true := by
  obtain ⟨hlength, hdays, hunique, hsorted⟩ := Input.weekdays_spec h.workingDays
  obtain ⟨hstart, hstart'⟩ := clock_text h.workdayStart
  obtain ⟨hend, hend'⟩ := clock_text h.workdayEnd
  have hless : draft.workdayStart < draft.workdayEnd :=
    (lessThan_text hstart hend).1 (of_decide_eq_true h.workday)
  have hhorizon := (Input.integer_eq_ok.1 h.horizon).1
  change (1 ≤ draft.workingDays.length ∧ _) at hlength
  have hne : draft.workingDays ≠ [] := List.length_pos_iff.1 hlength.1
  simp only [accepted, Bool.and_eq_true, decide_eq_true_eq, List.all_eq_true]
  exact ⟨⟨⟨⟨⟨⟨⟨⟨hne, hdays⟩, hunique⟩, hsorted⟩, hstart'⟩, hend'⟩, hless⟩, hhorizon.1⟩, hhorizon.2⟩

/-! ## Meetings -/

def SmartMeetingAttendee.written (attendee : SmartMeetingAttendee) :
    Input.SmartMeetingAttendee where
  email := unitsText attendee.email
  required := attendee.required
  availabilityCalendarId := attendee.availabilityCalendarId.map unitsText

def SmartMeetingDraft.written (draft : SmartMeetingDraft) (priority : Nat) :
    Input.SmartMeetingDraft where
  name := unitsText draft.name
  targetCalendarId := unitsText draft.targetCalendarId
  timezone := unitsText draft.timezone
  startDate := unitsText draft.startDate
  weekdays := draft.weekdays
  windowStart := unitsText draft.windowStart
  windowEnd := unitsText draft.windowEnd
  preferredTime := unitsText draft.preferredTime
  cadenceWeeks := draft.cadenceWeeks
  occurrenceCount := draft.occurrenceCount
  minimumDurationMinutes := draft.minimumDurationMinutes
  maximumDurationMinutes := draft.maximumDurationMinutes
  startStepMinutes := draft.startStepMinutes
  priority
  attendees := draft.attendees.map (·.written)
  availabilityCalendarIds := draft.availabilityCalendarIds.map unitsText
  conflictPolicy := draft.conflictPolicy
  lockBeforeMinutes := draft.lockBeforeMinutes
  description := draft.description.map unitsText
  location := draft.location.map unitsText
  visibility := draft.visibility

section Meeting

variable {rt : Runtime} {value : Members} {draft : SmartMeetingDraft} {priority : Nat}

theorem SmartMeetingDraft.durations_of_fields
    (h : Input.MeetingFields rt value (draft.written priority)) : draft.durationsAccepted = true := by
  have hminimum := (Input.integer_eq_ok.1 h.minimum).1
  have hmaximum := (Input.integer_eq_ok.1 h.maximum).1
  have hsteps : draft.startStepMinutes ∈ [15, 30, 60] := by
    have hsteps : (draft.startStepMinutes = 15 || draft.startStepMinutes = 30 ||
      draft.startStepMinutes = 60) = true := h.steps
    simp only [Bool.or_eq_true, decide_eq_true_eq] at hsteps
    simp only [List.mem_cons, List.not_mem_nil, or_false]
    omega
  simp only [durationsAccepted, Bool.and_eq_true, decide_eq_true_eq]
  exact ⟨⟨⟨hminimum.1, hmaximum.1⟩, hmaximum.2⟩, hsteps⟩

theorem SmartMeetingDraft.window_of_fields
    (h : Input.MeetingFields rt value (draft.written priority)) : draft.windowAccepted = true := by
  obtain ⟨hstart, hstart'⟩ := clock_text h.windowStart
  obtain ⟨hend, hend'⟩ := clock_text h.windowEnd
  obtain ⟨hpreferred, hpreferred'⟩ := clock_text h.preferred
  have hwindow := (lessThan_text hstart hend).1 (of_decide_eq_true h.window)
  have hinside := h.inside
  simp only [Bool.and_eq_true, Bool.not_eq_true', decide_eq_true_eq, decide_eq_false_iff_not]
    at hinside
  have hafter := mt (lessThan_text hpreferred hstart).2 hinside.1
  have hbefore := (lessThan_text hpreferred hend).1 hinside.2
  simp only [windowAccepted, Bool.and_eq_true, Bool.not_eq_true', decide_eq_true_eq,
    decide_eq_false_iff_not]
  exact ⟨⟨⟨⟨⟨hstart', hend'⟩, hpreferred'⟩, hwindow⟩, hafter⟩, hbefore⟩

theorem SmartMeetingDraft.recurrence_of_fields
    (h : Input.MeetingFields rt value (draft.written priority)) :
    draft.recurrenceAccepted = true := by
  obtain ⟨hlength, hdays, hunique, hsorted⟩ := Input.weekdays_spec h.weekdays
  have hdate := localDate?_of_date (Input.localDate_eq_ok.1 h.startDate).2
  have hcadence := (Input.integer_eq_ok.1 h.cadence).1
  have hoccurrences := (Input.integer_eq_ok.1 h.occurrences).1
  have hne : draft.weekdays ≠ [] := List.length_pos_iff.1 hlength.1
  simp only [recurrenceAccepted, Bool.and_eq_true, decide_eq_true_eq, List.all_eq_true]
  exact ⟨⟨⟨⟨⟨⟨⟨⟨⟨hdate, hne⟩, hlength.2⟩, hdays⟩, hunique⟩, hsorted⟩, hcadence.1⟩, hcadence.2⟩,
    hoccurrences.1⟩, hoccurrences.2⟩

theorem SmartMeetingDraft.people_of_fields
    (h : Input.MeetingFields rt value (draft.written priority)) : draft.peopleAccepted = true := by
  obtain ⟨items, -, hitems, hattendees, hemails⟩ := Input.parseAttendees_eq_ok.1 h.attendees
  obtain ⟨ids, -, hids, hcalendars, hdistinct⟩ := Input.ids_eq_ok.1 h.calendars
  have hlength : draft.attendees.length ≤ 25 := by
    rw [(mapM_eq_ok_iff.1 hattendees).length_eq] at hitems
    simpa only [written, List.length_map] using hitems
  have hlimit : draft.availabilityCalendarIds.length ≤ 32 := by
    rw [(mapM_eq_ok_iff.1 hcalendars).length_eq] at hids
    simpa only [written, List.length_map] using hids
  have hunique : (draft.attendees.map (·.email)).Nodup := by
    have heq : (draft.written priority).attendees.map (·.email) =
        (draft.attendees.map (·.email)).map unitsText := by
      simp only [written, List.map_map, Function.comp_def, SmartMeetingAttendee.written]
    rw [heq] at hemails
    exact hemails.of_map unitsText
  have hnodup : draft.availabilityCalendarIds.Nodup := List.Nodup.of_map unitsText hdistinct
  have hne : draft.availabilityCalendarIds ≠ [] := by
    have hsome := of_decide_eq_true h.some_calendar
    exact fun hnil => hsome (by simp only [written, hnil, List.map_nil])
  have hselected : ∀ attendee ∈ draft.attendees, ∀ calendar,
      attendee.availabilityCalendarId = some calendar →
        calendar ∈ draft.availabilityCalendarIds := by
    intro attendee hattendee calendar hcalendar
    have hall := List.all_eq_true.1 h.selected _ (List.mem_map_of_mem hattendee)
    rw [SmartMeetingAttendee.written, hcalendar] at hall
    exact (List.mem_map_of_injective unitsText_injective).1 (of_decide_eq_true hall)
  simp only [peopleAccepted, Bool.and_eq_true, decide_eq_true_eq, List.all_eq_true, Option.all_eq_true]
  exact ⟨⟨⟨⟨⟨hlength, hunique⟩, hne⟩, hlimit⟩, hnodup⟩, hselected⟩

theorem SmartMeetingDraft.accepted_of_fields
    (h : Input.MeetingFields rt value (draft.written priority)) : draft.accepted = true := by
  have hlock := (Input.integer_eq_ok.1 h.lock).1
  simp only [accepted, Bool.and_eq_true, decide_eq_true_eq]
  exact ⟨⟨⟨⟨durations_of_fields h, window_of_fields h⟩, recurrence_of_fields h⟩, people_of_fields h⟩,
    hlock.2⟩

end Meeting

/-! ## Rules -/

/-- The draft is what the parser returned, the priority apart. -/
inductive PlanningDraft.Written : PlanningDraft → Input.PlanningDraft → Prop
  | boundary (draft) : Written (.availabilityBoundary draft) (.availabilityBoundary draft.written)
  | meeting (draft priority) : Written (.smartMeeting draft) (.smartMeeting (draft.written priority))

variable {rt : Runtime} {value : JsonValue} {draft : PlanningDraft}
  {input input' : Input.PlanningDraft}

/-- The checks of the planner's drafts are checks of the parser. -/
theorem accepted_of_parsed (h : Input.parsePlanningDraft rt value = .ok input)
    (hwritten : draft.Written input) : draft.accepted = true := by
  cases hwritten with
  | boundary draft =>
    cases Input.parsePlanningDraft_eq_ok.1 h with
    | boundary _ fields => exact AvailabilityBoundaryDraft.accepted_of_fields fields
  | meeting draft priority =>
    cases Input.parsePlanningDraft_eq_ok.1 h with
    | meeting _ fields => exact SmartMeetingDraft.accepted_of_fields fields

/-- The service's model of a second parse: `emailText` is what is kept for an address. -/
theorem reparsed_written (hrt : rt.Documented) (h : Input.parsePlanningDraft rt value = .ok input)
    (h' : Input.parsePlanningDraft rt input.document = .ok input') (hwritten : draft.Written input)
    {emailText : String → String}
    (hemail : ∀ email, unitsText (emailText email) = Input.address rt (unitsText email)) :
    (parsePlanningDraft emailText draft).Written input' := by
  rw [Input.second_parse hrt h h']
  cases hwritten with
  | boundary draft => exact .boundary draft
  | meeting draft priority =>
    have hattendees : ((draft.attendees.map (·.written)).map (·.readdressed rt)) =
        (draft.attendees.map fun attendee =>
          { attendee with email := emailText attendee.email }).map (·.written) := by
      rw [List.map_map, List.map_map]
      refine List.map_congr_left fun attendee _ => ?_
      simp only [Function.comp_apply, SmartMeetingAttendee.written,
        Input.SmartMeetingAttendee.readdressed, hemail]
    simp only [Input.PlanningDraft.readdressed, SmartMeetingDraft.written, hattendees]
    exact .meeting { draft with attendees := _ } priority

end Planipus.Planning

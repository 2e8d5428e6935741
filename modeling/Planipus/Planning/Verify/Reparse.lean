import Mathlib.Data.List.Chain
import Planipus.Planning.Verify.Fields

/-!
# Rules that are parsed again

All the fields of a draft settle but the address of an attendee, which is put into lower case behind its
normalization and behind its bound (`parseAttendee_settles_iff`). So a document is parsed to itself
exactly when its addresses are (`parsePlanningDraft_settles_iff`), and the result of a second parse
always is (`parsed_twice_settles`).
-/

namespace Planipus.Planning.Input

open CalendarSync Library

variable {rt : Runtime}

/-! ## Boundaries -/

/-- The lookup of a key among the members of a document. -/
theorem member_entry (key key' : String) (value : JsonValue) (rest : Members) :
    member (entry key' value :: rest) key = if key' = key then some value else member rest key := by
  by_cases h : key' = key
  · subst h
    simp [member, entry]
  · have hne : asciiUnits key' ≠ asciiUnits key := fun heq => h (asciiUnits_inj heq)
    simp [member, entry, h, hne]

/-- Every field of the draft is what its parser returns. -/
structure BoundaryFields (rt : Runtime) (value : Members) (draft : AvailabilityBoundaryDraft) :
    Prop where
  name : Field.text rt (member value "name") "name" 160 = .ok draft.name
  target : Field.id rt (member value "target_calendar_id") "target calendar" =
    .ok draft.targetCalendarId
  timezone : Field.timeZone rt (member value "timezone") = .ok draft.timezone
  workingDays : Field.weekdays (member value "working_days") "working days" = .ok draft.workingDays
  workdayStart : Field.clock (member value "workday_start") "workday start" =
    .ok draft.workdayStart
  workdayEnd : Field.clock (member value "workday_end") "workday end" = .ok draft.workdayEnd
  workday : decide (lessThan draft.workdayStart draft.workdayEnd) = true
  horizon : Field.integer (member value "horizon_days") "horizon days" 1 60 = .ok draft.horizonDays
  before : Field.bool (member value "protect_before_work") false = .ok draft.protectBeforeWork
  after : Field.bool (member value "protect_after_work") true = .ok draft.protectAfterWork
  closed : Field.bool (member value "protect_closed_days") false = .ok draft.protectClosedDays
  title : Field.text rt
    (some (orElse (member value "title") (.string (asciiUnits "Personal time")))) "title" 160 =
      .ok draft.title
  visibility : Field.visibility (member value "visibility") = .ok draft.visibility

theorem parseBoundary_eq_ok {value : Members} {draft : AvailabilityBoundaryDraft} :
    parseBoundary rt value = .ok draft ↔ BoundaryFields rt value draft := by
  constructor
  · intro h
    unfold parseBoundary at h
    obtain ⟨name, hname, h⟩ := bind_eq_ok.1 h
    obtain ⟨target, htarget, h⟩ := bind_eq_ok.1 h
    obtain ⟨timezone, htimezone, h⟩ := bind_eq_ok.1 h
    obtain ⟨days, hdays, h⟩ := bind_eq_ok.1 h
    obtain ⟨start, hstart, h⟩ := bind_eq_ok.1 h
    obtain ⟨finish, hfinish, h⟩ := bind_eq_ok.1 h
    obtain ⟨_, hworkday, h⟩ := bind_eq_ok.1 h
    obtain ⟨horizon, hhorizon, h⟩ := bind_eq_ok.1 h
    obtain ⟨before, hbefore, h⟩ := bind_eq_ok.1 h
    obtain ⟨after, hafter, h⟩ := bind_eq_ok.1 h
    obtain ⟨closed, hclosed, h⟩ := bind_eq_ok.1 h
    obtain ⟨title, htitle, h⟩ := bind_eq_ok.1 h
    obtain ⟨visibility, hvisibility, h⟩ := bind_eq_ok.1 h
    cases h
    exact ⟨hname, htarget, htimezone, hdays, hstart, hfinish, require_eq_ok.1 hworkday, hhorizon,
      hbefore, hafter, hclosed, htitle, hvisibility⟩
  · intro h
    refine bind_eq_ok.2 ⟨_, h.name, ?_⟩
    refine bind_eq_ok.2 ⟨_, h.target, ?_⟩
    refine bind_eq_ok.2 ⟨_, h.timezone, ?_⟩
    refine bind_eq_ok.2 ⟨_, h.workingDays, ?_⟩
    refine bind_eq_ok.2 ⟨_, h.workdayStart, ?_⟩
    refine bind_eq_ok.2 ⟨_, h.workdayEnd, ?_⟩
    refine bind_eq_ok.2 ⟨(), require_eq_ok.2 h.workday, ?_⟩
    refine bind_eq_ok.2 ⟨_, h.horizon, ?_⟩
    refine bind_eq_ok.2 ⟨_, h.before, ?_⟩
    refine bind_eq_ok.2 ⟨_, h.after, ?_⟩
    refine bind_eq_ok.2 ⟨_, h.closed, ?_⟩
    refine bind_eq_ok.2 ⟨_, h.title, ?_⟩
    exact bind_eq_ok.2 ⟨_, h.visibility, rfl⟩

theorem BoundaryFields.settles (hrt : rt.Documented) {value : Members}
    {draft : AvailabilityBoundaryDraft} (h : BoundaryFields rt value draft) :
    BoundaryFields rt draft.document draft := by
  have hname := text_settles hrt _ _ _ _ h.name
  have htarget := id_settles _ _ _ h.target
  have htimezone := timeZone_settles _ _ h.timezone
  have hdays := weekdays_settles _ _ _ h.workingDays
  have hstart := clock_settles _ _ _ h.workdayStart
  have hend := clock_settles _ _ _ h.workdayEnd
  have hhorizon := integer_settles _ _ _ _ _ h.horizon
  have htitle := text_settles hrt _ _ _ _ h.title
  have hvisibility := visibility_settles _ _ h.visibility
  refine ⟨?_, ?_, ?_, ?_, ?_, ?_, h.workday, ?_, ?_, ?_, ?_, ?_, ?_⟩ <;>
    simp only [AvailabilityBoundaryDraft.document, member_entry, String.reduceEq, if_true, if_false]
  · exact hname
  · exact htarget
  · exact htimezone
  · exact hdays
  · exact hstart
  · exact hend
  · exact hhorizon
  · exact bool_settles _ _ _ h.before
  · exact bool_settles _ _ _ h.after
  · exact bool_settles _ _ _ h.closed
  · exact htitle
  · exact hvisibility

/-! ## Attendees -/

/-- The address that is kept for a text. -/
def address (rt : Runtime) (email : CodeUnits) : CodeUnits :=
  rt.toLowerCase (trim (rt.normalizeNFC email))

/-- In lower case the address is in normal form as before, and within the bound. -/
def StaysNormal (rt : Runtime) (email : CodeUnits) : Prop :=
  rt.normalizeNFC (address rt email) = address rt email ∧
    (codePoints (address rt email)).length ≤ 254

instance (rt : Runtime) (email : CodeUnits) : Decidable (StaysNormal rt email) :=
  inferInstanceAs (Decidable (_ ∧ _))

def emailOf : JsonValue → Option CodeUnits
  | .object value =>
    match member value "email" with
    | some (.string email) => some email
    | _ => none
  | _ => none

theorem emailPattern_spec {text : CodeUnits} (h : emailPattern text = true) :
    1 ≤ text.length ∧ ∀ c ∈ text, isWhiteSpace c = false := by
  simp only [emailPattern, Bool.and_eq_true, List.all_eq_true, Bool.not_eq_true',
    decide_eq_true_eq] at h
  exact ⟨List.length_pos_iff.2 h.1.1.1.2, h.1.1.1.1.1⟩

/-- The address of an attendee is read again as it is where it stays normal. -/
theorem text_address_iff (hrt : rt.Documented) {email : CodeUnits}
    (hpattern : emailPattern (address rt email) = true)
    (hplain : (codePoints (trim (rt.normalizeNFC email))).any rt.isControlOrFormat = false) :
    (∃ raw, Field.text rt (some (text (address rt email))) "attendee email" 254 = .ok raw ∧
      rt.toLowerCase raw = address rt email) ↔ StaysNormal rt email := by
  obtain ⟨hlength, hspace⟩ := emailPattern_spec hpattern
  constructor
  · rintro ⟨raw, htext, hlower⟩
    obtain ⟨_, heq, hraw, hrequired⟩ := text_eq_ok.1 htext
    cases heq
    -- the second text is in lower case already, and it is the address
    have hpart : raw <:+: rt.normalizeNFC (address rt email) := hraw ▸ trim_part _
    have hsame : raw = address rt email := (hrt.toLowerCase_part _ hpart).symm.trans hlower
    rw [hsame] at hpart hrequired
    simp only [Bool.and_eq_true, decide_eq_true_eq] at hrequired
    exact ⟨hrt.normalizeNFC_part _ hpart, hrequired.1.2⟩
  · rintro ⟨hnormal, hbound⟩
    have hpart : address rt email <:+: rt.normalizeNFC (address rt email) := by rw [hnormal]
    have hlower : rt.toLowerCase (address rt email) = address rt email :=
      hrt.toLowerCase_part _ hpart
    refine ⟨address rt email, text_eq_ok.2 ⟨_, rfl, ?_, ?_⟩, hlower⟩
    · rw [hnormal, trim_of_no_space hspace]
    · have hcontrol := hrt.toLowerCase_plain _ hplain
      simp only [Bool.and_eq_true, decide_eq_true_eq, Bool.not_eq_true']
      exact ⟨⟨hlength, hbound⟩, hcontrol⟩

/-- Every field of the attendee is what its parser returns. -/
structure AttendeeFields (rt : Runtime) (value : Members) (attendee : SmartMeetingAttendee) :
    Prop where
  email : ∃ raw, Field.text rt (member value "email") "attendee email" 254 = .ok raw ∧
    rt.toLowerCase raw = attendee.email
  pattern : emailPattern attendee.email = true
  calendar : attendeeCalendar rt (member value "availability_calendar_id") =
    .ok attendee.availabilityCalendarId
  required : Field.bool (member value "required") true = .ok attendee.required

theorem parseAttendee_eq_ok {item : JsonValue} {attendee : SmartMeetingAttendee} :
    parseAttendee rt item = .ok attendee ↔
      ∃ value, item = .object value ∧ AttendeeFields rt value attendee := by
  unfold parseAttendee
  constructor
  · intro h
    split at h
    · rename_i value
      obtain ⟨raw, hraw, h⟩ := bind_eq_ok.1 h
      obtain ⟨_, hpattern, h⟩ := bind_eq_ok.1 h
      obtain ⟨calendar, hcalendar, h⟩ := bind_eq_ok.1 h
      obtain ⟨required, hrequired, h⟩ := bind_eq_ok.1 h
      cases h
      exact ⟨value, rfl, ⟨raw, hraw, rfl⟩, require_eq_ok.1 hpattern, hcalendar, hrequired⟩
    · cases h
  · rintro ⟨value, rfl, hfields⟩
    obtain ⟨⟨raw, hraw, hlower⟩, hpattern, hcalendar, hrequired⟩ := hfields
    refine bind_eq_ok.2 ⟨raw, hraw, ?_⟩
    rw [hlower]
    refine bind_eq_ok.2 ⟨(), require_eq_ok.2 hpattern, ?_⟩
    refine bind_eq_ok.2 ⟨_, hcalendar, ?_⟩
    exact bind_eq_ok.2 ⟨_, hrequired, rfl⟩

theorem attendeeCalendar_settles : Settles (attendeeCalendar rt) (·.map text) := by
  intro value result h
  cases value with
  | none =>
    cases h
    rfl
  | some value =>
    obtain ⟨calendar, hcalendar, rfl⟩ := map_eq_ok.1 h
    exact map_eq_ok.2 ⟨calendar, id_settles _ _ _ hcalendar, rfl⟩

/-- The members of an attendee's document. -/
theorem attendee_document (attendee : SmartMeetingAttendee) :
    ∃ value, attendee.document = .object value ∧
      member value "email" = some (text attendee.email) ∧
      member value "required" = some (.boolean attendee.required) ∧
      member value "availability_calendar_id" = attendee.availabilityCalendarId.map text := by
  refine ⟨_, rfl, ?_, ?_, ?_⟩
  · simp only [member_entry, if_true]
  · simp only [member_entry, String.reduceEq, if_true, if_false]
  · simp only [member_entry, String.reduceEq, if_false]
    cases attendee.availabilityCalendarId with
    | none => rfl
    | some calendar => simp only [optionalEntry, member_entry, if_true, Option.map_some]

theorem AttendeeFields.emailOf {value : Members} {attendee : SmartMeetingAttendee}
    (h : AttendeeFields rt value attendee) :
    ∃ email, emailOf (.object value) = some email ∧ attendee.email = address rt email ∧
      (codePoints (trim (rt.normalizeNFC email))).any rt.isControlOrFormat = false := by
  obtain ⟨raw, hraw, hlower⟩ := h.email
  obtain ⟨email, hmember, rfl, hrequired⟩ := text_eq_ok.1 hraw
  simp only [Bool.and_eq_true, Bool.not_eq_true'] at hrequired
  exact ⟨email, by simp only [Input.emailOf, hmember], hlower.symm, hrequired.2⟩

theorem parseAttendee_settles_iff (hrt : rt.Documented) {item : JsonValue}
    {attendee : SmartMeetingAttendee} (h : parseAttendee rt item = .ok attendee) :
    ∃ email, emailOf item = some email ∧ attendee.email = address rt email ∧
      (parseAttendee rt attendee.document = .ok attendee ↔ StaysNormal rt email) := by
  obtain ⟨value, rfl, hfields⟩ := parseAttendee_eq_ok.1 h
  obtain ⟨email, hemail, haddress, hplain⟩ := hfields.emailOf
  have hpattern := hfields.pattern
  rw [haddress] at hpattern
  obtain ⟨members, hdocument, hmail, hrequired, hcalendar⟩ := attendee_document attendee
  refine ⟨email, hemail, haddress, ?_⟩
  rw [← text_address_iff hrt hpattern hplain, parseAttendee_eq_ok, hdocument]
  constructor
  · rintro ⟨_, heq, hagain⟩
    cases heq
    have hread := hagain.email
    rwa [hmail, haddress] at hread
  · intro hread
    refine ⟨members, rfl, ?_, hfields.pattern, ?_, ?_⟩
    · rwa [hmail, haddress]
    · rw [hcalendar]
      exact attendeeCalendar_settles _ _ hfields.calendar
    · rw [hrequired]
      exact bool_settles _ _ _ hfields.required

theorem parseAttendees_eq_ok {value : Members} {attendees : List SmartMeetingAttendee} :
    parseAttendees rt value = .ok attendees ↔
      ∃ items, orElse (member value "attendees") (.array []) = .array items ∧ items.length ≤ 25 ∧
        items.mapM (parseAttendee rt) = .ok attendees ∧ (attendees.map (·.email)).Nodup := by
  unfold parseAttendees
  constructor
  · intro h
    split at h
    · rename_i items hitems
      obtain ⟨_, hlength, h⟩ := bind_eq_ok.1 h
      obtain ⟨_, hattendees, h⟩ := bind_eq_ok.1 h
      obtain ⟨_, hunique, h⟩ := bind_eq_ok.1 h
      cases h
      exact ⟨items, hitems, of_decide_eq_true (require_eq_ok.1 hlength), hattendees,
        of_decide_eq_true (require_eq_ok.1 hunique)⟩
    · cases h
  · rintro ⟨items, hitems, hlength, hattendees, hunique⟩
    rw [hitems]
    refine bind_eq_ok.2 ⟨(), require_eq_ok.2 (decide_eq_true hlength), ?_⟩
    refine bind_eq_ok.2 ⟨_, hattendees, ?_⟩
    exact bind_eq_ok.2 ⟨(), require_eq_ok.2 (decide_eq_true hunique), rfl⟩

/-- The texts that the attendees are given by. -/
def emailsOf (value : Members) : List CodeUnits :=
  match orElse (member value "attendees") (.array []) with
  | .array items => items.filterMap emailOf
  | _ => []

theorem parseAttendees_settles_iff (hrt : rt.Documented) {value document : Members}
    {attendees : List SmartMeetingAttendee} (h : parseAttendees rt value = .ok attendees)
    (hdocument : member document "attendees" = some (.array (attendees.map (·.document)))) :
    parseAttendees rt document = .ok attendees ↔ ∀ email ∈ emailsOf value, StaysNormal rt email := by
  obtain ⟨items, hitems, hlength, hattendees, hunique⟩ := parseAttendees_eq_ok.1 h
  have hall := mapM_eq_ok_iff.1 hattendees
  have hagain : parseAttendees rt document = .ok attendees ↔
      ∀ attendee ∈ attendees, parseAttendee rt attendee.document = .ok attendee := by
    rw [← mapM_write_iff, parseAttendees_eq_ok, hdocument]
    constructor
    · rintro ⟨_, heq, -, hread, -⟩
      cases heq
      exact hread
    · intro hread
      refine ⟨_, rfl, ?_, hread, hunique⟩
      rwa [List.length_map, ← hall.length_eq]
  have hemails : emailsOf value = items.filterMap emailOf := by rw [emailsOf, hitems]
  rw [hagain, hemails]
  clear hagain hemails hunique hdocument hlength hattendees hitems h
  induction hall with
  | nil => simp
  | @cons item attendee items attendees hitem _ ih =>
    obtain ⟨email, hemail, -, hiff⟩ := parseAttendee_settles_iff hrt hitem
    rw [List.forall_mem_cons, List.filterMap_cons_some hemail, List.forall_mem_cons]
    exact and_congr hiff ih

/-! ## Meetings -/

/-- Every field of the draft is what its parser returns. -/
structure MeetingFields (rt : Runtime) (value : Members) (draft : SmartMeetingDraft) : Prop where
  minimum : Field.integer (member value "minimum_duration_minutes") "minimum duration" 15 480 =
    .ok draft.minimumDurationMinutes
  maximum : Field.integer (member value "maximum_duration_minutes") "maximum duration"
    draft.minimumDurationMinutes 480 = .ok draft.maximumDurationMinutes
  step : Field.integer (member value "start_step_minutes") "start step" 15 60 =
    .ok draft.startStepMinutes
  steps : (draft.startStepMinutes = 15 || draft.startStepMinutes = 30 ||
    draft.startStepMinutes = 60) = true
  windowStart : Field.clock (member value "window_start") "meeting window start" =
    .ok draft.windowStart
  windowEnd : Field.clock (member value "window_end") "meeting window end" = .ok draft.windowEnd
  window : decide (lessThan draft.windowStart draft.windowEnd) = true
  preferred : Field.clock (member value "preferred_time") "preferred time" = .ok draft.preferredTime
  inside : (!decide (lessThan draft.preferredTime draft.windowStart) &&
    decide (lessThan draft.preferredTime draft.windowEnd)) = true
  attendees : parseAttendees rt value = .ok draft.attendees
  calendars : Field.ids rt (member value "availability_calendar_ids") "availability calendars" 32 =
    .ok draft.availabilityCalendarIds
  some_calendar : decide (draft.availabilityCalendarIds ≠ []) = true
  selected : (draft.attendees.all fun attendee =>
    attendee.availabilityCalendarId.all (· ∈ draft.availabilityCalendarIds)) = true
  name : Field.text rt (member value "name") "name" 160 = .ok draft.name
  target : Field.id rt (member value "target_calendar_id") "target calendar" =
    .ok draft.targetCalendarId
  timezone : Field.timeZone rt (member value "timezone") = .ok draft.timezone
  startDate : Field.localDate (member value "start_date") = .ok draft.startDate
  weekdays : Field.weekdays (member value "weekdays") "meeting days" = .ok draft.weekdays
  cadence : Field.integer (member value "cadence_weeks") "cadence" 1 12 = .ok draft.cadenceWeeks
  occurrences : Field.integer (member value "occurrence_count") "occurrence count" 1 16 =
    .ok draft.occurrenceCount
  priority : Field.priority (member value "priority") = .ok draft.priority
  policy : Field.conflictPolicy (member value "conflict_policy") = .ok draft.conflictPolicy
  lock : Field.integer (member value "lock_before_minutes") "lock window" 0 10080 =
    .ok draft.lockBeforeMinutes
  description : Field.optionalText rt (member value "description") "description" 4000 =
    .ok draft.description
  location : Field.optionalText rt (member value "location") "location" 500 = .ok draft.location
  visibility : Field.visibility (member value "visibility") = .ok draft.visibility

theorem parseSmartMeeting_eq_ok {value : Members} {draft : SmartMeetingDraft} :
    parseSmartMeeting rt value = .ok draft ↔ MeetingFields rt value draft := by
  constructor
  · intro h
    unfold parseSmartMeeting at h
    obtain ⟨minimum, hminimum, h⟩ := bind_eq_ok.1 h
    obtain ⟨maximum, hmaximum, h⟩ := bind_eq_ok.1 h
    obtain ⟨step, hstep, h⟩ := bind_eq_ok.1 h
    obtain ⟨_, hsteps, h⟩ := bind_eq_ok.1 h
    obtain ⟨windowStart, hwindowStart, h⟩ := bind_eq_ok.1 h
    obtain ⟨windowEnd, hwindowEnd, h⟩ := bind_eq_ok.1 h
    obtain ⟨_, hwindow, h⟩ := bind_eq_ok.1 h
    obtain ⟨preferred, hpreferred, h⟩ := bind_eq_ok.1 h
    obtain ⟨_, hinside, h⟩ := bind_eq_ok.1 h
    obtain ⟨attendees, hattendees, h⟩ := bind_eq_ok.1 h
    obtain ⟨calendars, hcalendars, h⟩ := bind_eq_ok.1 h
    obtain ⟨_, hsome, h⟩ := bind_eq_ok.1 h
    obtain ⟨_, hselected, h⟩ := bind_eq_ok.1 h
    obtain ⟨name, hname, h⟩ := bind_eq_ok.1 h
    obtain ⟨target, htarget, h⟩ := bind_eq_ok.1 h
    obtain ⟨timezone, htimezone, h⟩ := bind_eq_ok.1 h
    obtain ⟨startDate, hstartDate, h⟩ := bind_eq_ok.1 h
    obtain ⟨weekdays, hweekdays, h⟩ := bind_eq_ok.1 h
    obtain ⟨cadence, hcadence, h⟩ := bind_eq_ok.1 h
    obtain ⟨occurrences, hoccurrences, h⟩ := bind_eq_ok.1 h
    obtain ⟨priority, hpriority, h⟩ := bind_eq_ok.1 h
    obtain ⟨policy, hpolicy, h⟩ := bind_eq_ok.1 h
    obtain ⟨lock, hlock, h⟩ := bind_eq_ok.1 h
    obtain ⟨description, hdescription, h⟩ := bind_eq_ok.1 h
    obtain ⟨location, hlocation, h⟩ := bind_eq_ok.1 h
    obtain ⟨visibility, hvisibility, h⟩ := bind_eq_ok.1 h
    cases h
    exact ⟨hminimum, hmaximum, hstep, require_eq_ok.1 hsteps, hwindowStart, hwindowEnd,
      require_eq_ok.1 hwindow, hpreferred, require_eq_ok.1 hinside, hattendees, hcalendars,
      require_eq_ok.1 hsome, require_eq_ok.1 hselected, hname, htarget, htimezone, hstartDate,
      hweekdays, hcadence, hoccurrences, hpriority, hpolicy, hlock, hdescription, hlocation,
      hvisibility⟩
  · intro h
    refine bind_eq_ok.2 ⟨_, h.minimum, ?_⟩
    refine bind_eq_ok.2 ⟨_, h.maximum, ?_⟩
    refine bind_eq_ok.2 ⟨_, h.step, ?_⟩
    refine bind_eq_ok.2 ⟨(), require_eq_ok.2 h.steps, ?_⟩
    refine bind_eq_ok.2 ⟨_, h.windowStart, ?_⟩
    refine bind_eq_ok.2 ⟨_, h.windowEnd, ?_⟩
    refine bind_eq_ok.2 ⟨(), require_eq_ok.2 h.window, ?_⟩
    refine bind_eq_ok.2 ⟨_, h.preferred, ?_⟩
    refine bind_eq_ok.2 ⟨(), require_eq_ok.2 h.inside, ?_⟩
    refine bind_eq_ok.2 ⟨_, h.attendees, ?_⟩
    refine bind_eq_ok.2 ⟨_, h.calendars, ?_⟩
    refine bind_eq_ok.2 ⟨(), require_eq_ok.2 h.some_calendar, ?_⟩
    refine bind_eq_ok.2 ⟨(), require_eq_ok.2 h.selected, ?_⟩
    refine bind_eq_ok.2 ⟨_, h.name, ?_⟩
    refine bind_eq_ok.2 ⟨_, h.target, ?_⟩
    refine bind_eq_ok.2 ⟨_, h.timezone, ?_⟩
    refine bind_eq_ok.2 ⟨_, h.startDate, ?_⟩
    refine bind_eq_ok.2 ⟨_, h.weekdays, ?_⟩
    refine bind_eq_ok.2 ⟨_, h.cadence, ?_⟩
    refine bind_eq_ok.2 ⟨_, h.occurrences, ?_⟩
    refine bind_eq_ok.2 ⟨_, h.priority, ?_⟩
    refine bind_eq_ok.2 ⟨_, h.policy, ?_⟩
    refine bind_eq_ok.2 ⟨_, h.lock, ?_⟩
    refine bind_eq_ok.2 ⟨_, h.description, ?_⟩
    refine bind_eq_ok.2 ⟨_, h.location, ?_⟩
    exact bind_eq_ok.2 ⟨_, h.visibility, rfl⟩

/-- A document of a meeting has the members of its draft. -/
structure MeetingDocument (document : Members) (draft : SmartMeetingDraft) : Prop where
  name : member document "name" = some (text draft.name)
  target : member document "target_calendar_id" = some (text draft.targetCalendarId)
  timezone : member document "timezone" = some (text draft.timezone)
  startDate : member document "start_date" = some (text draft.startDate)
  weekdays : member document "weekdays" = some (.array (draft.weekdays.map number))
  windowStart : member document "window_start" = some (text draft.windowStart)
  windowEnd : member document "window_end" = some (text draft.windowEnd)
  preferred : member document "preferred_time" = some (text draft.preferredTime)
  cadence : member document "cadence_weeks" = some (number draft.cadenceWeeks)
  occurrences : member document "occurrence_count" = some (number draft.occurrenceCount)
  minimum : member document "minimum_duration_minutes" = some (number draft.minimumDurationMinutes)
  maximum : member document "maximum_duration_minutes" = some (number draft.maximumDurationMinutes)
  step : member document "start_step_minutes" = some (number draft.startStepMinutes)
  priority : member document "priority" = some (number draft.priority)
  attendees : member document "attendees" = some (.array (draft.attendees.map (·.document)))
  calendars : member document "availability_calendar_ids" =
    some (.array (draft.availabilityCalendarIds.map text))
  policy : member document "conflict_policy" = some (text (conflictPolicyText draft.conflictPolicy))
  lock : member document "lock_before_minutes" = some (number draft.lockBeforeMinutes)
  description : member document "description" = draft.description.map text
  location : member document "location" = draft.location.map text
  visibility : member document "visibility" = some (text (visibilityText draft.visibility))

theorem member_optionalEntry (key key' : String) (value : Option CodeUnits) (rest : Members) :
    member (optionalEntry key' value ++ rest) key =
      if key' = key ∧ value.isSome then value.map text else member rest key := by
  cases value with
  | none => simp [optionalEntry]
  | some value => simp [optionalEntry, member_entry]

theorem member_nil (key : String) : member [] key = none := rfl

theorem meeting_document (draft : SmartMeetingDraft) : MeetingDocument draft.document draft := by
  constructor <;>
    simp only [SmartMeetingDraft.document, List.cons_append, List.nil_append, List.append_assoc,
      member_entry, member_optionalEntry, member_nil, String.reduceEq, if_true, if_false, true_and,
      false_and]
  · cases draft.description <;> rfl
  · cases draft.location <;> rfl

/-- All the fields of a meeting but the attendees are read again as they are. -/
theorem MeetingFields.again (hrt : rt.Documented) {value : Members} {draft : SmartMeetingDraft}
    (h : MeetingFields rt value draft) {attendees : List SmartMeetingAttendee}
    (hattendees : parseAttendees rt draft.document = .ok attendees)
    (hselected : (attendees.all fun attendee =>
      attendee.availabilityCalendarId.all (· ∈ draft.availabilityCalendarIds)) = true) :
    MeetingFields rt draft.document { draft with attendees } :=
  have hdocument := meeting_document draft
  { minimum := hdocument.minimum ▸ integer_settles _ _ _ _ _ h.minimum
    maximum := hdocument.maximum ▸ integer_settles _ _ _ _ _ h.maximum
    step := hdocument.step ▸ integer_settles _ _ _ _ _ h.step
    steps := h.steps
    windowStart := hdocument.windowStart ▸ clock_settles _ _ _ h.windowStart
    windowEnd := hdocument.windowEnd ▸ clock_settles _ _ _ h.windowEnd
    window := h.window
    preferred := hdocument.preferred ▸ clock_settles _ _ _ h.preferred
    inside := h.inside
    attendees := hattendees
    calendars := hdocument.calendars ▸ ids_settles _ _ _ _ h.calendars
    some_calendar := h.some_calendar
    selected := hselected
    name := hdocument.name ▸ text_settles hrt _ _ _ _ h.name
    target := hdocument.target ▸ id_settles _ _ _ h.target
    timezone := hdocument.timezone ▸ timeZone_settles _ _ h.timezone
    startDate := hdocument.startDate ▸ localDate_settles _ _ h.startDate
    weekdays := hdocument.weekdays ▸ weekdays_settles _ _ _ h.weekdays
    cadence := hdocument.cadence ▸ integer_settles _ _ _ _ _ h.cadence
    occurrences := hdocument.occurrences ▸ integer_settles _ _ _ _ _ h.occurrences
    priority := hdocument.priority ▸ integer_settles _ _ _ _ _ h.priority
    policy := hdocument.policy ▸ conflictPolicy_settles _ _ h.policy
    lock := hdocument.lock ▸ integer_settles _ _ _ _ _ h.lock
    description := hdocument.description ▸ optionalText_settles hrt _ _ _ _ h.description
    location := hdocument.location ▸ optionalText_settles hrt _ _ _ _ h.location
    visibility := hdocument.visibility ▸ visibility_settles _ _ h.visibility }

theorem MeetingFields.settles_iff (hrt : rt.Documented) {value : Members} {draft : SmartMeetingDraft}
    (h : MeetingFields rt value draft) :
    MeetingFields rt draft.document draft ↔ ∀ email ∈ emailsOf value, StaysNormal rt email := by
  rw [← parseAttendees_settles_iff hrt h.attendees (meeting_document draft).attendees]
  exact ⟨fun hagain => hagain.attendees, fun hattendees => h.again hrt hattendees h.selected⟩

/-! ## Rules -/

theorem parse_boundary {value : Members}
    (hkind : member value "kind" = some (.string (asciiUnits "availability_boundary"))) :
    parsePlanningDraft rt (.object value) = .availabilityBoundary <$> parseBoundary rt value := by
  simp only [parsePlanningDraft, hkind, if_true]

theorem parse_meeting {value : Members}
    (hkind : member value "kind" = some (.string (asciiUnits "smart_meeting"))) :
    parsePlanningDraft rt (.object value) = .smartMeeting <$> parseSmartMeeting rt value := by
  have hne : asciiUnits "smart_meeting" ≠ asciiUnits "availability_boundary" :=
    fun h => absurd (asciiUnits_inj h) (by decide)
  simp only [parsePlanningDraft, hkind, if_true, hne, if_false]

/-- The two ways to be accepted. -/
inductive Accepted (rt : Runtime) : JsonValue → PlanningDraft → Prop
  | boundary {value draft} (kind : member value "kind" =
      some (.string (asciiUnits "availability_boundary"))) (fields : BoundaryFields rt value draft) :
    Accepted rt (.object value) (.availabilityBoundary draft)
  | meeting {value draft} (kind : member value "kind" =
      some (.string (asciiUnits "smart_meeting"))) (fields : MeetingFields rt value draft) :
    Accepted rt (.object value) (.smartMeeting draft)

theorem parsePlanningDraft_eq_ok {value : JsonValue} {draft : PlanningDraft} :
    parsePlanningDraft rt value = .ok draft ↔ Accepted rt value draft := by
  constructor
  · intro h
    unfold parsePlanningDraft at h
    split at h
    · split at h
      · rename_i kind hkind
        split at h
        · rename_i hboundary
          subst hboundary
          obtain ⟨_, hfields, rfl⟩ := map_eq_ok.1 h
          exact .boundary hkind (parseBoundary_eq_ok.1 hfields)
        · split at h
          · rename_i hmeeting
            subst hmeeting
            obtain ⟨_, hfields, rfl⟩ := map_eq_ok.1 h
            exact .meeting hkind (parseSmartMeeting_eq_ok.1 hfields)
          · cases h
      · cases h
    · cases h
  · intro h
    cases h with
    | boundary kind fields =>
      rw [parse_boundary kind, parseBoundary_eq_ok.2 fields]
      rfl
    | meeting kind fields =>
      rw [parse_meeting kind, parseSmartMeeting_eq_ok.2 fields]
      rfl

theorem boundary_kind (draft : AvailabilityBoundaryDraft) :
    member draft.document "kind" = some (.string (asciiUnits "availability_boundary")) := by
  simp only [AvailabilityBoundaryDraft.document, member_entry, if_true, text]

theorem meeting_kind (draft : SmartMeetingDraft) :
    member draft.document "kind" = some (.string (asciiUnits "smart_meeting")) := by
  simp only [SmartMeetingDraft.document, List.cons_append, member_entry, if_true, text]

/-- The texts that the attendees of a meeting are given by; a boundary has none. -/
def attendeeEmails : JsonValue → List CodeUnits
  | .object value =>
    match member value "kind" with
    | some (.string kind) => if kind = asciiUnits "smart_meeting" then emailsOf value else []
    | _ => []
  | _ => []

theorem attendeeEmails_boundary {value : Members}
    (hkind : member value "kind" = some (.string (asciiUnits "availability_boundary"))) :
    attendeeEmails (.object value) = [] := by
  have hne : asciiUnits "availability_boundary" ≠ asciiUnits "smart_meeting" :=
    fun heq => absurd (asciiUnits_inj heq) (by decide)
  simp only [attendeeEmails, hkind, hne, if_false]

theorem attendeeEmails_meeting {value : Members}
    (hkind : member value "kind" = some (.string (asciiUnits "smart_meeting"))) :
    attendeeEmails (.object value) = emailsOf value := by
  simp only [attendeeEmails, hkind, if_true]

/-- A draft is parsed to itself again if and only if every address, in lower case, is still in normal
form and still within the bound. -/
theorem parsePlanningDraft_settles_iff (hrt : rt.Documented) {value : JsonValue}
    {draft : PlanningDraft} (h : parsePlanningDraft rt value = .ok draft) :
    parsePlanningDraft rt draft.document = .ok draft ↔
      ∀ email ∈ attendeeEmails value, StaysNormal rt email := by
  cases parsePlanningDraft_eq_ok.1 h with
  | @boundary value boundary kind fields =>
    rw [attendeeEmails_boundary kind, parsePlanningDraft_eq_ok]
    exact iff_of_true (.boundary (boundary_kind boundary) (fields.settles hrt))
      (List.forall_mem_nil _)
  | @meeting value meeting kind fields =>
    rw [attendeeEmails_meeting kind, ← fields.settles_iff hrt, parsePlanningDraft_eq_ok]
    constructor
    · intro hagain
      generalize hdocument : (PlanningDraft.smartMeeting meeting).document = document at hagain
      cases hagain with
      | meeting _ fields' =>
        cases hdocument
        exact fields'
    · exact fun fields' => .meeting (meeting_kind meeting) fields'

/-! ## An address that does not stay normal -/

/-- Normal forms as far as `h` and a macron below go, which make one letter. -/
def composeMacron : CodeUnits → CodeUnits
  | c :: d :: rest =>
    if c = 0x68 ∧ d = 0x331 then 0x1E96 :: composeMacron rest else c :: composeMacron (d :: rest)
  | [c] => [c]
  | [] => []

def lowerAscii (c : Nat) : Nat := if 65 ≤ c ∧ c ≤ 90 then c + 32 else c

/-- The runtime on the texts below. -/
def asciiRuntime : Runtime where
  normalizeNFC := composeMacron
  toLowerCase := List.map lowerAscii
  isControlOrFormat c := c < 32 || (127 ≤ c && c ≤ 159)
  isTimezone text := text = asciiUnits "UTC"

/-- The two characters are not side by side. -/
def Composed : CodeUnits → Prop := List.IsChain fun c d => ¬(c = 0x68 ∧ d = 0x331)

theorem head_composeMacron {d x : Nat} {rest : CodeUnits}
    (h : x ∈ (composeMacron (d :: rest)).head?) : x = d ∨ x = 0x1E96 := by
  cases rest with
  | nil => exact Or.inl (Option.some.inj h).symm
  | cons e rest =>
    rw [composeMacron] at h
    split_ifs at h
    · exact Or.inr (Option.some.inj h).symm
    · exact Or.inl (Option.some.inj h).symm

theorem composed_composeMacron (text : CodeUnits) : Composed (composeMacron text) := by
  induction text using composeMacron.induct with
  | case1 c d rest hpair ih =>
    rw [composeMacron, if_pos hpair]
    refine List.isChain_cons.2 ⟨fun x _ hx => ?_, ih⟩
    exact absurd hx.1 (by decide)
  | case2 c d rest hpair ih =>
    rw [composeMacron, if_neg hpair]
    refine List.isChain_cons.2 ⟨fun x hx hpair' => ?_, ih⟩
    rcases head_composeMacron hx with rfl | rfl
    · exact hpair hpair'
    · exact absurd hpair'.2 (by decide)
  | case3 c => exact .singleton c
  | case4 => exact .nil

theorem composeMacron_of_composed {text : CodeUnits} (h : Composed text) :
    composeMacron text = text := by
  induction text using composeMacron.induct with
  | case1 c d rest hpair ih => exact absurd hpair (List.isChain_cons_cons.1 h).1
  | case2 c d rest hpair ih =>
    rw [composeMacron, if_neg hpair, ih (List.isChain_cons_cons.1 h).2]
  | case3 c => rfl
  | case4 => rfl

theorem mem_composeMacron {c : Nat} {text : CodeUnits} (h : c ∈ composeMacron text) :
    c ∈ text ∨ c = 0x1E96 := by
  induction text using composeMacron.induct with
  | case1 a b rest hpair ih =>
    rw [composeMacron, if_pos hpair] at h
    rcases List.mem_cons.1 h with rfl | h
    · exact Or.inr rfl
    · exact (ih h).imp_left fun hrest => .tail _ (.tail _ hrest)
  | case2 a b rest hpair ih =>
    rw [composeMacron, if_neg hpair] at h
    rcases List.mem_cons.1 h with rfl | h
    · exact Or.inl (.head _)
    · exact (ih h).imp_left fun hrest => .tail _ hrest
  | case3 a => exact Or.inl h
  | case4 => exact Or.inl h

theorem lowerAscii_lowerAscii (c : Nat) : lowerAscii (lowerAscii c) = lowerAscii c := by
  unfold lowerAscii
  split_ifs <;> omega

theorem surrogates_lowerAscii (c : Nat) :
    isHigh (lowerAscii c) = isHigh c ∧ isLow (lowerAscii c) = isLow c := by
  unfold isHigh isLow lowerAscii
  constructor <;> rw [Bool.eq_iff_iff] <;> simp only [Bool.and_eq_true, decide_eq_true_eq] <;>
    split_ifs <;> omega

theorem lowerAscii_of_le {c : Nat} (h : 128 ≤ c) : lowerAscii c = c := if_neg (by omega)

theorem codePoints_lowerAscii (text : CodeUnits) :
    codePoints (text.map lowerAscii) = (codePoints text).map lowerAscii := by
  induction text using codePoints.induct with
  | case1 c d text hpair ih =>
    have hsurrogates : 0xD800 ≤ c ∧ 0xDC00 ≤ d := by
      simp only [isHigh, isLow, Bool.and_eq_true, decide_eq_true_eq] at hpair
      exact ⟨hpair.1.1, hpair.2.1⟩
    have hc : lowerAscii c = c := lowerAscii_of_le (by omega)
    have hd : lowerAscii d = d := lowerAscii_of_le (by omega)
    rw [List.map_cons, List.map_cons, hc, hd, codePoints, codePoints, if_pos hpair, if_pos hpair, ih,
      List.map_cons, lowerAscii_of_le (by omega)]
  | case2 c d text hpair ih =>
    have hpair' : ¬(isHigh (lowerAscii c) && isLow (lowerAscii d)) = true := by
      rwa [(surrogates_lowerAscii c).1, (surrogates_lowerAscii d).2]
    rw [List.map_cons] at ih
    rw [List.map_cons, List.map_cons, codePoints, codePoints, if_neg hpair, if_neg hpair', ih,
      List.map_cons]
  | case3 c => rfl
  | case4 => rfl

theorem asciiRuntime_documented : asciiRuntime.Documented where
  normalizeNFC_part t h := by
    obtain ⟨start, finish, heq⟩ := h
    have hcomposed : Composed (asciiRuntime.normalizeNFC t) := composed_composeMacron t
    rw [← heq] at hcomposed
    exact composeMacron_of_composed (List.IsChain.right_of_append hcomposed.left_of_append)
  toLowerCase_part {s} t h := by
    refine (List.map_congr_left fun c hc => ?_).trans (List.map_id s)
    rcases mem_composeMacron (h.subset hc) with hmem | rfl
    · obtain ⟨c, -, rfl⟩ := List.mem_map.1 hmem
      exact lowerAscii_lowerAscii c
    · rfl
  toLowerCase_plain s h := by
    have hcontrol : ∀ c, asciiRuntime.isControlOrFormat (lowerAscii c) =
        asciiRuntime.isControlOrFormat c := by
      intro c
      rw [Bool.eq_iff_iff]
      simp only [asciiRuntime, lowerAscii, Bool.or_eq_true, Bool.and_eq_true, decide_eq_true_eq]
      split_ifs <;> omega
    have hpoints : codePoints (asciiRuntime.toLowerCase s) = (codePoints s).map lowerAscii :=
      codePoints_lowerAscii s
    rwa [hpoints, List.any_map, Function.comp_def, funext hcontrol]

/-- A meeting with one attendee. -/
def oneAttendee (email : CodeUnits) : JsonValue :=
  .object
    [ entry "kind" (text (asciiUnits "smart_meeting")),
      entry "name" (text (asciiUnits "Weekly")),
      entry "target_calendar_id" (text (asciiUnits "work")),
      entry "timezone" (text (asciiUnits "UTC")),
      entry "start_date" (text (asciiUnits "2026-07-20")),
      entry "weekdays" (.array [number 3, number 1]),
      entry "window_start" (text (asciiUnits "09:00")),
      entry "window_end" (text (asciiUnits "17:00")),
      entry "preferred_time" (text (asciiUnits "10:00")),
      entry "cadence_weeks" (number 1),
      entry "occurrence_count" (number 4),
      entry "minimum_duration_minutes" (number 30),
      entry "maximum_duration_minutes" (number 60),
      entry "start_step_minutes" (number 15),
      entry "priority" (number 2),
      entry "attendees" (.array [.object [entry "email" (text email)]]),
      entry "availability_calendar_ids" (.array [text (asciiUnits "work")]),
      entry "lock_before_minutes" (number 60) ]

/-- The draft of `oneAttendee`, with the address that is kept. -/
def oneAttendeeDraft (email : CodeUnits) : PlanningDraft :=
  .smartMeeting
    { name := asciiUnits "Weekly"
      targetCalendarId := asciiUnits "work"
      timezone := asciiUnits "UTC"
      startDate := asciiUnits "2026-07-20"
      weekdays := [1, 3]
      windowStart := asciiUnits "09:00:00"
      windowEnd := asciiUnits "17:00:00"
      preferredTime := asciiUnits "10:00:00"
      cadenceWeeks := 1
      occurrenceCount := 4
      minimumDurationMinutes := 30
      maximumDurationMinutes := 60
      startStepMinutes := 15
      priority := 2
      attendees := [⟨email, true, none⟩]
      availabilityCalendarIds := [asciiUnits "work"]
      conflictPolicy := .suggest
      lockBeforeMinutes := 60
      description := none
      location := none
      visibility := .private_ }

theorem plainAddress_settles :
    parsePlanningDraft asciiRuntime (oneAttendeeDraft (asciiUnits "bo@work.example")).document =
      .ok (oneAttendeeDraft (asciiUnits "bo@work.example")) :=
  (@parsePlanningDraft_settles_iff asciiRuntime asciiRuntime_documented
    (oneAttendee (asciiUnits "Bo@work.example")) _ rfl).2 (by decide)

/-- `H̱` has no letter of its own, but `ẖ` has one. -/
theorem macronBelow_differs :
    parsePlanningDraft asciiRuntime (oneAttendee ([0x48, 0x331] ++ asciiUnits "@work.example")) =
        .ok (oneAttendeeDraft ([0x68, 0x331] ++ asciiUnits "@work.example")) ∧
      parsePlanningDraft asciiRuntime
          (oneAttendeeDraft ([0x68, 0x331] ++ asciiUnits "@work.example")).document =
        .ok (oneAttendeeDraft ([0x1E96] ++ asciiUnits "@work.example")) ∧
      oneAttendeeDraft ([0x1E96] ++ asciiUnits "@work.example") ≠
        oneAttendeeDraft ([0x68, 0x331] ++ asciiUnits "@work.example") :=
  ⟨rfl, rfl, by decide⟩

/-! ## A second parse -/

/-- The attendee with the address that is kept for its address. -/
def SmartMeetingAttendee.readdressed (rt : Runtime) (attendee : SmartMeetingAttendee) :
    SmartMeetingAttendee :=
  { attendee with email := address rt attendee.email }

def PlanningDraft.readdressed (rt : Runtime) : PlanningDraft → PlanningDraft
  | .availabilityBoundary draft => .availabilityBoundary draft
  | .smartMeeting draft => .smartMeeting
      { draft with attendees := draft.attendees.map (·.readdressed rt) }

theorem emailOf_document (attendee : SmartMeetingAttendee) :
    emailOf attendee.document = some attendee.email := by
  obtain ⟨members, hdocument, hmail, -⟩ := attendee_document attendee
  simp only [hdocument, emailOf, hmail, text]

theorem attendee_readdressed (hrt : rt.Documented) {item : JsonValue}
    {attendee attendee' : SmartMeetingAttendee} (h : parseAttendee rt item = .ok attendee)
    (h' : parseAttendee rt attendee.document = .ok attendee') :
    attendee' = attendee.readdressed rt := by
  obtain ⟨value, rfl, hfields⟩ := parseAttendee_eq_ok.1 h
  obtain ⟨email, hemail, haddress, -⟩ := parseAttendee_settles_iff hrt h'
  obtain ⟨members, hdocument, -, hrequired, hcalendar⟩ := attendee_document attendee
  obtain ⟨_, heq, hfields'⟩ := parseAttendee_eq_ok.1 h'
  rw [hdocument] at heq
  cases heq
  rw [emailOf_document] at hemail
  cases hemail
  have hcalendar' := hfields'.calendar
  rw [hcalendar, attendeeCalendar_settles _ _ hfields.calendar] at hcalendar'
  have hrequired' := hfields'.required
  rw [hrequired] at hrequired'
  cases attendee'
  cases hcalendar'
  cases hrequired'
  cases haddress
  rfl

theorem attendees_readdressed (hrt : rt.Documented) {value document : Members}
    {attendees attendees' : List SmartMeetingAttendee}
    (h : parseAttendees rt value = .ok attendees)
    (h' : parseAttendees rt document = .ok attendees')
    (hdocument : member document "attendees" = some (.array (attendees.map (·.document)))) :
    attendees' = attendees.map (·.readdressed rt) := by
  obtain ⟨items, -, -, hitems, -⟩ := parseAttendees_eq_ok.1 h
  obtain ⟨_, heq, -, hread, -⟩ := parseAttendees_eq_ok.1 h'
  rw [hdocument] at heq
  cases heq
  have hparsed := mapM_mem hitems
  have hall := List.forall₂_map_left_iff.1 (mapM_eq_ok_iff.1 hread)
  clear h h' hdocument hitems hread
  induction hall with
  | nil => rfl
  | @cons attendee attendee' attendees attendees' hattendee _ ih =>
    obtain ⟨item, -, hitem⟩ := hparsed attendee (.head _)
    rw [List.map_cons, ← attendee_readdressed hrt hitem hattendee,
      ih fun a ha => hparsed a (.tail _ ha)]

/-- A second parse changes the addresses, to what is kept for them, and nothing else. -/
theorem second_parse (hrt : rt.Documented) {value : JsonValue} {draft draft' : PlanningDraft}
    (h : parsePlanningDraft rt value = .ok draft)
    (h' : parsePlanningDraft rt draft.document = .ok draft') : draft' = draft.readdressed rt := by
  cases parsePlanningDraft_eq_ok.1 h with
  | @boundary value boundary kind fields =>
    have hagain := parsePlanningDraft_eq_ok.2
      (.boundary (boundary_kind boundary) (fields.settles hrt))
    exact Except.ok.inj (h'.symm.trans hagain)
  | @meeting value meeting kind fields =>
    have hagain : parsePlanningDraft rt (.object meeting.document) = .ok draft' := h'
    rw [parse_meeting (meeting_kind meeting)] at hagain
    obtain ⟨meeting', hmeeting', rfl⟩ := map_eq_ok.1 hagain
    have fields' := parseSmartMeeting_eq_ok.1 hmeeting'
    have hdocument := meeting_document meeting
    -- the attendees are checked against the calendars of the second draft, which are the same
    have hcalendars : meeting'.availabilityCalendarIds = meeting.availabilityCalendarIds := by
      have hsame := fields'.calendars
      rw [hdocument.calendars] at hsame
      exact Except.ok.inj (hsame.symm.trans (ids_settles _ _ _ _ fields.calendars))
    have hselected := fields'.selected
    rw [hcalendars] at hselected
    have hall := parseSmartMeeting_eq_ok.2 (fields.again hrt fields'.attendees hselected)
    rw [hmeeting', attendees_readdressed hrt fields.attendees fields'.attendees
      hdocument.attendees] at hall
    rw [Except.ok.inj hall]
    rfl

/-! ## A third parse -/

/-- What the second parse keeps for an address stays normal. -/
theorem staysNormal_address (hrt : rt.Documented) {email raw : CodeUnits} {field : String}
    (htext : Field.text rt (some (text (address rt email))) field 254 = .ok raw) :
    StaysNormal rt (address rt email) := by
  obtain ⟨_, heq, hraw, hrequired⟩ := text_eq_ok.1 htext
  cases heq
  have hpart : raw <:+: rt.normalizeNFC (address rt email) := hraw ▸ trim_part _
  have hsame : address rt (address rt email) = raw := by
    rw [address, hraw]
    exact hrt.toLowerCase_part _ hpart
  simp only [Bool.and_eq_true, decide_eq_true_eq] at hrequired
  rw [StaysNormal, hsame]
  exact ⟨hrt.normalizeNFC_part _ hpart, hrequired.1.2⟩

theorem emailsOf_document (draft : SmartMeetingDraft) :
    emailsOf draft.document = draft.attendees.map (·.email) := by
  simp only [emailsOf, (meeting_document draft).attendees, orElse, List.filterMap_map,
    Function.comp_def, emailOf_document]
  rw [List.filterMap_eq_map']

/-- Where an attendee's document is parsed, the address that comes out stays normal. -/
theorem attendee_staysNormal (hrt : rt.Documented) {item : JsonValue}
    {attendee attendee' : SmartMeetingAttendee} (h : parseAttendee rt item = .ok attendee)
    (h' : parseAttendee rt attendee.document = .ok attendee') :
    StaysNormal rt attendee.email := by
  obtain ⟨email, -, haddress, -⟩ := parseAttendee_settles_iff hrt h
  obtain ⟨_, heq, hfields⟩ := parseAttendee_eq_ok.1 h'
  obtain ⟨members, hdocument, hmail, -⟩ := attendee_document attendee
  rw [hdocument] at heq
  cases heq
  obtain ⟨raw, htext, -⟩ := hfields.email
  rw [hmail, haddress] at htext
  rw [haddress]
  exact staysNormal_address hrt htext

/-- The document of a draft that was parsed twice is parsed to itself from then on. -/
theorem parsed_twice_settles (hrt : rt.Documented) {value : JsonValue} {draft draft' : PlanningDraft}
    (h : parsePlanningDraft rt value = .ok draft)
    (h' : parsePlanningDraft rt draft.document = .ok draft') :
    parsePlanningDraft rt draft'.document = .ok draft' := by
  rw [parsePlanningDraft_settles_iff hrt h']
  cases parsePlanningDraft_eq_ok.1 h with
  | @boundary value boundary kind fields =>
    change ∀ email ∈ attendeeEmails (.object boundary.document), _
    rw [attendeeEmails_boundary (boundary_kind boundary)]
    exact List.forall_mem_nil _
  | @meeting value meeting kind fields =>
    have hagain : parsePlanningDraft rt (.object meeting.document) = .ok draft' := h'
    rw [parse_meeting (meeting_kind meeting)] at hagain
    obtain ⟨meeting', hmeeting', -⟩ := map_eq_ok.1 hagain
    obtain ⟨items, -, -, hitems, -⟩ := parseAttendees_eq_ok.1 fields.attendees
    obtain ⟨items', hitems', -, hread, -⟩ :=
      parseAttendees_eq_ok.1 (parseSmartMeeting_eq_ok.1 hmeeting').attendees
    rw [(meeting_document meeting).attendees] at hitems'
    cases hitems'
    change ∀ email ∈ attendeeEmails (.object meeting.document), _
    rw [attendeeEmails_meeting (meeting_kind meeting), emailsOf_document]
    intro email hemail
    obtain ⟨attendee, hattendee, rfl⟩ := List.mem_map.1 hemail
    obtain ⟨item, -, hitem⟩ := mapM_mem hitems attendee hattendee
    obtain ⟨attendee', hattendee'⟩ := mapM_parsed hread _ (List.mem_map_of_mem hattendee)
    exact attendee_staysNormal hrt hitem hattendee'

end Planipus.Planning.Input

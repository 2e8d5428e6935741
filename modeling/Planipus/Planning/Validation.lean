import Planipus.Planning.Engine

/-!
# Accepted drafts

The checks of `parseBoundary` and `parseSmartMeeting` (`server/src/planning/validation.ts`) on the
numbers, times, dates and lists of a draft. What they demand of the texts of names, addresses and IDs is
left out, so every draft that the parser returns is `accepted`.
-/

namespace Planipus.Planning

open CalendarSync

namespace AvailabilityBoundaryDraft

def accepted (draft : AvailabilityBoundaryDraft) : Bool :=
  decide (draft.workingDays ≠ []) && draft.workingDays.all (fun day => 1 ≤ day && day ≤ 7) &&
    decide draft.workingDays.Nodup && decide (draft.workingDays.Pairwise (· ≤ ·)) &&
    (localTime? draft.workdayStart).isSome && (localTime? draft.workdayEnd).isSome &&
    draft.workdayStart < draft.workdayEnd && 1 ≤ draft.horizonDays && draft.horizonDays ≤ 60

variable {draft : AvailabilityBoundaryDraft}

theorem accepted.workday (h : draft.accepted = true) :
    (∃ time, localTime? draft.workdayStart = some time) ∧ draft.workdayStart < draft.workdayEnd := by
  simp only [accepted, Bool.and_eq_true, decide_eq_true_eq] at h
  obtain ⟨⟨⟨⟨⟨-, hstart⟩, -⟩, hlt⟩, -⟩, -⟩ := h
  exact ⟨Option.isSome_iff_exists.1 hstart, hlt⟩

theorem accepted.horizon (h : draft.accepted = true) :
    1 ≤ draft.horizonDays ∧ draft.horizonDays ≤ 60 := by
  simp only [accepted, Bool.and_eq_true, decide_eq_true_eq] at h
  exact ⟨h.1.2, h.2⟩

end AvailabilityBoundaryDraft

namespace SmartMeetingDraft

def durationsAccepted (draft : SmartMeetingDraft) : Bool :=
  15 ≤ draft.minimumDurationMinutes && draft.minimumDurationMinutes ≤ draft.maximumDurationMinutes &&
    draft.maximumDurationMinutes ≤ 480 && decide (draft.startStepMinutes ∈ [15, 30, 60])

/-- The window is not empty and does not cross midnight, and the preferred time is in it. -/
def windowAccepted (draft : SmartMeetingDraft) : Bool :=
  (localTime? draft.windowStart).isSome && (localTime? draft.windowEnd).isSome &&
    (localTime? draft.preferredTime).isSome && draft.windowStart < draft.windowEnd &&
    !(draft.preferredTime < draft.windowStart) && draft.preferredTime < draft.windowEnd

def recurrenceAccepted (draft : SmartMeetingDraft) : Bool :=
  (localDate? draft.startDate).isSome && decide (draft.weekdays ≠ []) &&
    draft.weekdays.length ≤ 7 && draft.weekdays.all (fun day => 1 ≤ day && day ≤ 7) &&
    decide draft.weekdays.Nodup && decide (draft.weekdays.Pairwise (· ≤ ·)) &&
    1 ≤ draft.cadenceWeeks && draft.cadenceWeeks ≤ 12 &&
    1 ≤ draft.occurrenceCount && draft.occurrenceCount ≤ 16

def peopleAccepted (draft : SmartMeetingDraft) : Bool :=
  draft.attendees.length ≤ 25 && decide (draft.attendees.map (·.email)).Nodup &&
    decide (draft.availabilityCalendarIds ≠ []) && draft.availabilityCalendarIds.length ≤ 32 &&
    decide draft.availabilityCalendarIds.Nodup &&
    draft.attendees.all fun attendee =>
      attendee.availabilityCalendarId.all (· ∈ draft.availabilityCalendarIds)

def accepted (draft : SmartMeetingDraft) : Bool :=
  draft.durationsAccepted && draft.windowAccepted && draft.recurrenceAccepted &&
    draft.peopleAccepted && draft.lockBeforeMinutes ≤ 10080

variable {draft : SmartMeetingDraft}

theorem accepted.durations (h : draft.accepted = true) :
    15 ≤ draft.minimumDurationMinutes ∧
      draft.minimumDurationMinutes ≤ draft.maximumDurationMinutes ∧
      draft.maximumDurationMinutes ≤ 480 := by
  simp only [accepted, durationsAccepted, Bool.and_eq_true, decide_eq_true_eq] at h
  obtain ⟨⟨⟨⟨⟨⟨⟨hmin, hmax⟩, hbound⟩, -⟩, -⟩, -⟩, -⟩, -⟩ := h
  exact ⟨hmin, hmax, hbound⟩

theorem accepted.step (h : draft.accepted = true) : 0 < draft.startStepMinutes := by
  simp only [accepted, durationsAccepted, Bool.and_eq_true, decide_eq_true_eq] at h
  have hstep : draft.startStepMinutes ∈ [15, 30, 60] := h.1.1.1.1.2
  simp only [List.mem_cons, List.not_mem_nil, or_false] at hstep
  omega

theorem accepted.window (h : draft.accepted = true) : draft.windowStart < draft.windowEnd := by
  simp only [accepted, windowAccepted, Bool.and_eq_true, decide_eq_true_eq] at h
  exact h.1.1.1.2.1.1.2

end SmartMeetingDraft

def PlanningDraft.accepted : PlanningDraft → Bool
  | .availabilityBoundary draft => draft.accepted
  | .smartMeeting draft => draft.accepted

end Planipus.Planning

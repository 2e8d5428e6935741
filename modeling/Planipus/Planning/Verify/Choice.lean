import Planipus.Planning.Verify.Slots

/-!
# The best free slot

Conflicts are found by comparing texts, so the slot that is chosen is the best free one only where
the comparisons are right, or wrong about slots that do not matter (`chooses_best_iff`). Between the
years 0 and 9999 there are two ways to be wrong, and both take a free slot for a taken one
(`misjudged_iff`): an end that is written without milliseconds comes after the text of a slot that
starts there, and an interval without an instant in it has a place in the order all the same.
-/

namespace Planipus.Planning

open CalendarSync Library

/-! ## The best free slot -/

section Best

variable (z : Zone) (draft : SmartMeetingDraft) (windows : List TextInterval)
  (busy : List PlanningBusyInterval) (used : List TextInterval) (now : Instant)

/-- The slot starts late enough and shares no instant with a busy or a used interval. -/
def Free (s : Slot) : Prop := free (earliestStart draft now) busy used s.interval = true

/-- Nothing is chosen only if no slot is free; what is chosen is the best free slot. -/
def ChoosesBest : Prop :=
  match chooseMeetingSlot z draft windows busy used now with
  | none => ∀ s, Tried draft windows s → ¬ Free draft busy used now s
  | some c => ∃ s, c.interval = s.interval ∧ Tried draft windows s ∧ Free draft busy used now s ∧
      ∀ s', Tried draft windows s' → Free draft busy used now s' → s' = s ∨ s.Better z draft s'

/-- The comparison of texts finds a conflict for a free slot, or none for one that is not free. -/
def Misjudged (s : Slot) : Prop :=
  ¬ (Unconflicted draft busy used now s ↔ Free draft busy used now s)

/-- Every slot that is misjudged is worse than a free slot that is not. -/
def MisjudgesWorse : Prop :=
  ∀ s, Tried draft windows s → Misjudged draft busy used now s →
    ∃ s', Tried draft windows s' ∧ Unconflicted draft busy used now s' ∧
      Free draft busy used now s' ∧ s'.Better z draft s

instance (s : Slot) : Decidable (Unconflicted draft busy used now s) :=
  inferInstanceAs (Decidable (_ = false))

instance (s : Slot) : Decidable (Free draft busy used now s) :=
  inferInstanceAs (Decidable (_ = true))

instance (s : Slot) : Decidable (Misjudged draft busy used now s) :=
  inferInstanceAs (Decidable (¬ (_ ↔ _)))

variable {z draft windows busy used now}

theorem choosesBest_iff
    (h : ∀ c ∈ chooseMeetingSlot z draft windows busy used now, c.interval = c.slot.interval) :
    ChoosesBest z draft windows busy used now ↔
      Chooses (Slot.Better z draft) (fun s => Tried draft windows s ∧ Free draft busy used now s)
        ((chooseMeetingSlot z draft windows busy used now).map Candidate.slot) := by
  unfold ChoosesBest
  cases hchoice : chooseMeetingSlot z draft windows busy used now with
  | none => exact ⟨fun hnone s hs => hnone s hs.1 hs.2, fun hnone s hs hfree => hnone s ⟨hs, hfree⟩⟩
  | some c =>
    constructor
    · rintro ⟨s, hinterval, hs, hfree, hbest⟩
      rw [Option.map_some, Candidate.slot_of_interval hinterval]
      exact ⟨⟨hs, hfree⟩, fun s' hs' => hbest s' hs'.1 hs'.2⟩
    · rintro ⟨⟨hs, hfree⟩, hbest⟩
      exact ⟨c.slot, h c hchoice, hs, hfree, fun s' hs' hfree' => hbest s' ⟨hs', hfree'⟩⟩

/-- The condition, on the list of the slots that are tried. -/
theorem misjudgesWorse_iff (hdraft : draft.accepted = true) :
    MisjudgesWorse z draft windows busy used now ↔
      ∀ s ∈ slots draft windows (durations draft), Misjudged draft busy used now s →
        ∃ s' ∈ slots draft windows (durations draft), Unconflicted draft busy used now s' ∧
          Free draft busy used now s' ∧ s'.Better z draft s := by
  simp only [MisjudgesWorse, mem_slots_iff hdraft]

end Best

/-- **When the best free slot is chosen**: for the windows of any dates, exactly if every slot that the
comparison of texts misjudges is worse than a free slot that it judges rightly. -/
theorem chooses_best_iff (zones : String → Option Zone) (z : Zone) (draft : SmartMeetingDraft)
    (startDate endDate : String) (busy : List PlanningBusyInterval) (used : List TextInterval)
    (now : Instant) (hdraft : draft.accepted = true) (hzone : zones draft.timezone = some z)
    (hz : NearUTC z) :
    ChoosesBest z draft
        (materializeHours zones (meetingProfile draft) startDate endDate).concreteIntervals
        busy used now ↔
      MisjudgesWorse z draft
        (materializeHours zones (meetingProfile draft) startDate endDate).concreteIntervals
        busy used now := by
  have hwindows := meetingWindows_ordinary hdraft (nearUTC_of_zone hzone hz) startDate endDate
  generalize (materializeHours zones (meetingProfile draft) startDate endDate).concreteIntervals =
    windows at hwindows ⊢
  obtain ⟨hchooses, hinterval⟩ :
      Chooses (Slot.Better z draft)
        (fun s => Tried draft windows s ∧ Unconflicted draft busy used now s)
        ((chooseMeetingSlot z draft windows busy used now).map Candidate.slot) ∧ _ :=
    chooses_unconflicted hdraft hwindows
  rw [choosesBest_iff hinterval,
    hchooses.chooses_iff Slot.Better.irrefl fun _ _ _ => Slot.Better.trans _ _ _]
  constructor
  · intro h s hs hmisjudged
    obtain ⟨s', ⟨hs', hfree⟩, ⟨-, hfree'⟩, hbetter⟩ := h s fun hiff =>
      hmisjudged ⟨fun hu => (hiff.1 ⟨hs, hu⟩).2, fun hf => (hiff.2 ⟨hs, hf⟩).2⟩
    exact ⟨s', hs', hfree, hfree', hbetter⟩
  · intro h s hdiffers
    have hs : Tried draft windows s := by
      by_contra hs
      exact hdiffers ⟨fun hu => absurd hu.1 hs, fun hf => absurd hf.1 hs⟩
    obtain ⟨s', hs', hfree, hfree', hbetter⟩ := h s hs fun hiff =>
      hdiffers ⟨fun hu => ⟨hs, hiff.1 hu.2⟩, fun hf => ⟨hs, hiff.2 hf.2⟩⟩
    exact ⟨s', ⟨hs', hfree⟩, ⟨hs', hfree'⟩, hbetter⟩

/-! ## Slots that are misjudged -/

section Misjudged

variable {draft : SmartMeetingDraft} {windows : List TextInterval} {s : Slot} {i : TextInterval}
  {busy : List PlanningBusyInterval} {used : List TextInterval} {now : Instant}

/-- The interval lies in the years 0 to 9999. -/
structure Dated (i : TextInterval) : Prop where
  written : i.start.written = true ∧ i.finish.written = true
  start : yearZero ≤ i.start.instant ∧ i.start.instant < yearTenThousand
  finish : yearZero ≤ i.finish.instant ∧ i.finish.instant < yearTenThousand

theorem second_le_of_written (m n : Int) (hm : m % 1000 = 0) (hn : n % 1000 = 0) :
    m / 1000 ≤ n / 1000 ↔ m < n ∨ n = m := by
  omega

/-- The comparison of a slot with an interval, in terms of instants. -/
theorem overlaps_iff (hs : InYears s) (htried : Tried draft windows s) (hi : Dated i) :
    overlaps s.interval i = true ↔
      (s.start < i.finish.instant ∨ i.finish.milliseconds = false ∧ i.finish.instant = s.start) ∧
        i.start.instant < s.start + s.duration * 60000 := by
  obtain ⟨hwhole, hwhole'⟩ := htried.whole
  have hfinish : InstantText.Alike (toISOString s.start) i.finish :=
    InstantText.alike_digit hs.start hs.start_lt hi.finish.1 hi.finish.2
  have hstart : InstantText.Alike i.start (toISOString (s.start + s.duration * 60000)) :=
    InstantText.alike_digit hi.start.1 hi.start.2 hs.finish_le hs.finish
  rw [overlaps, Bool.and_eq_true]
  refine and_congr ?_ (InstantText.before_whole hstart hi.written.1 rfl hwhole')
  refine (InstantText.before_alike_milliseconds hfinish rfl).trans ?_
  cases hms : i.finish.milliseconds with
  | true => simp [toISOString]
  | false =>
    have hsecond : i.finish.instant % 1000 = 0 := by
      simpa [InstantText.written, hms] using hi.written.2
    simpa [toISOString] using second_le_of_written s.start i.finish.instant hwhole hsecond

theorem free_iff : Free draft busy used now s ↔ earliestStart draft now ≤ s.start ∧
    ∀ i ∈ busy.map PlanningBusyInterval.toTextInterval ++ used, meets s.interval i = false := by
  simp only [Free, free, Bool.and_eq_true, decide_eq_true_eq, List.all_eq_true, Bool.not_eq_true',
    List.mem_append, List.mem_map, and_assoc]
  refine and_congr Iff.rfl ⟨?_, ?_⟩
  · rintro ⟨hbusy, hused⟩ i (⟨b, hb, rfl⟩ | hi)
    · exact hbusy b hb
    · exact hused i hi
  · intro h
    exact ⟨fun b hb => h _ (Or.inl ⟨b, hb, rfl⟩), fun i hi => h i (Or.inr hi)⟩

theorem unconflicted_iff : Unconflicted draft busy used now s ↔
    (toISOString s.start).before (toISOString (earliestStart draft now)) = false ∧
      ∀ i ∈ busy.map PlanningBusyInterval.toTextInterval ++ used, overlaps s.interval i = false := by
  simp only [Unconflicted, conflicts, Bool.or_eq_false_iff, List.any_eq_false, Bool.not_eq_true,
    List.mem_append, List.mem_map, and_assoc]
  refine and_congr Iff.rfl ⟨?_, ?_⟩
  · rintro ⟨hbusy, hused⟩ i (⟨b, hb, rfl⟩ | hi)
    · exact hbusy b hb
    · exact hused i hi
  · intro h
    exact ⟨fun b hb => h _ (Or.inl ⟨b, hb, rfl⟩), fun i hi => h i (Or.inr hi)⟩

/-- In the years 0 to 9999, a slot is misjudged exactly if it is free and an interval that begins
before its end ends where it starts and is written without milliseconds, or has no instant in it. -/
theorem misjudged_iff (hs : InYears s) (htried : Tried draft windows s) (hpos : 0 < s.duration)
    (hearliest : yearZero ≤ earliestStart draft now ∧ earliestStart draft now < yearTenThousand)
    (hdated : ∀ i ∈ busy.map PlanningBusyInterval.toTextInterval ++ used, Dated i) :
    Misjudged draft busy used now s ↔ Free draft busy used now s ∧
      ∃ i ∈ busy.map PlanningBusyInterval.toTextInterval ++ used,
        i.start.instant < s.start + s.duration * 60000 ∧
          (i.finish.milliseconds = false ∧ i.finish.instant = s.start ∨
            s.start < i.finish.instant ∧ i.finish.instant ≤ i.start.instant) := by
  have hlow : yearZero - 86400000 ≤ yearZero := by decide
  have hstart : (toISOString s.start).before (toISOString (earliestStart draft now)) = false ↔
      earliestStart draft now ≤ s.start := by
    rw [← Bool.not_eq_true, before_toISOString ⟨le_trans hlow hs.start, hs.start_lt⟩
      ⟨le_trans hlow hearliest.1, hearliest.2⟩]
    exact not_lt
  have hlength : s.start < s.start + s.duration * 60000 :=
    Int.lt_add_of_pos_right _ (Int.mul_pos (Int.natCast_pos.2 hpos) (by decide))
  have hmeets : ∀ i, meets s.interval i = true ↔ (s.start < i.finish.instant ∧
      i.start.instant < s.start + s.duration * 60000) ∧ i.start.instant < i.finish.instant := by
    intro i
    simp only [meets, decide_eq_true_eq, max_lt_iff, lt_min_iff]
    constructor
    · rintro ⟨⟨-, h⟩, h', h''⟩
      exact ⟨⟨h', h⟩, h''⟩
    · rintro ⟨⟨h', h⟩, h''⟩
      exact ⟨⟨hlength, h⟩, h', h''⟩
  unfold Misjudged
  rw [unconflicted_iff, hstart]
  constructor
  · intro hmis
    have hfree : Free draft busy used now s := by
      by_contra hfree
      refine hmis ⟨fun hu => ?_, fun hf => absurd hf hfree⟩
      refine free_iff.2 ⟨hu.1, fun i hi => ?_⟩
      rw [← Bool.not_eq_true]
      intro hmeet
      have hoverlaps := overlaps_of_meets hs htried (hdated i hi).written
        (Or.inl (hdated i hi).finish.2) hmeet
      exact Bool.noConfusion (hoverlaps.symm.trans (hu.2 i hi))
    refine ⟨hfree, ?_⟩
    obtain ⟨hearly, hapart⟩ := free_iff.1 hfree
    by_contra hnone
    refine hmis ⟨fun _ => hfree, fun _ => ⟨hearly, fun i hi => ?_⟩⟩
    rw [← Bool.not_eq_true, overlaps_iff hs htried (hdated i hi)]
    rintro ⟨hafter | hadjacent, hbefore⟩
    · refine hnone ⟨i, hi, hbefore, Or.inr ⟨hafter, not_lt.1 fun hlt => ?_⟩⟩
      exact Bool.noConfusion (((hmeets i).2 ⟨⟨hafter, hbefore⟩, hlt⟩).symm.trans (hapart i hi))
    · exact hnone ⟨i, hi, hbefore, Or.inl hadjacent⟩
  · rintro ⟨hfree, i, hi, hbefore, hwrong⟩ hiff
    have hapart := (hiff.2 hfree).2 i hi
    rw [← Bool.not_eq_true, overlaps_iff hs htried (hdated i hi)] at hapart
    refine hapart ⟨?_, hbefore⟩
    rcases hwrong with hadjacent | ⟨hafter, -⟩
    · exact Or.inr hadjacent
    · exact Or.inl hafter

end Misjudged

/-! ## A slot next to an all-day event -/

section Sample

theorem utc_offset (t : Int) : (fun _ => 0 : Int → Int) t ∈ [(0 : Int)] :=
  List.mem_singleton.2 rfl

/-- A zone without an offset. -/
def utc : Zone := ⟨fun _ => 0, [0], utc_offset⟩

theorem utc_possibleInstants {n t : Int} (h : t ∈ utc.possibleInstants n) : t = n := by
  have hshows : t + 0 = n := Zone.mem_possibleInstants.1 h
  rwa [add_zero] at hshows

theorem utc_nearUTC : NearUTC utc := by
  intro n disambiguation t h
  have heq : t = n := by
    have hgap : utc.offset (n + 86400) - utc.offset (n - 86400) = 0 := rfl
    unfold zonedDateTime at h
    simp only [hgap, sub_zero, add_zero] at h
    split at h
    · rename_i hone
      cases h
      exact utc_possibleInstants (by rw [hone]; exact .head _)
    · cases h
    · exact utc_possibleInstants (List.mem_of_mem_head? h)
    · exact utc_possibleInstants (List.mem_of_mem_getLast? h)
    · rename_i hcons
      cases h
      exact utc_possibleInstants (by rw [hcons]; exact .head _)
    · exact utc_possibleInstants (List.mem_of_mem_getLast? h)
  omega

def utcZones (name : String) : Option Zone := if name = "UTC" then some utc else none

/-- A meeting of an hour on Mondays, in the first hour of the day. -/
def midnightMeeting : SmartMeetingDraft where
  name := "Handover"
  targetCalendarId := "calendar"
  timezone := "UTC"
  startDate := "1970-01-05"
  weekdays := [1]
  windowStart := "00:00:00"
  windowEnd := "01:00:00"
  preferredTime := "00:00:00"
  cadenceWeeks := 1
  occurrenceCount := 1
  minimumDurationMinutes := 60
  maximumDurationMinutes := 60
  startStepMinutes := 60
  attendees := []
  availabilityCalendarIds := ["calendar"]
  conflictPolicy := .suggest
  lockBeforeMinutes := 0
  description := none
  location := none
  visibility := .default_

/-- A meeting of an hour, or of half an hour where there is no hour, on Mondays and Tuesdays between
nine and eleven, best at ten. -/
def reviewMeeting : SmartMeetingDraft :=
  { midnightMeeting with
    name := "Review"
    weekdays := [1, 2]
    windowStart := "09:00:00"
    windowEnd := "11:00:00"
    preferredTime := "10:00:00"
    occurrenceCount := 2
    minimumDurationMinutes := 30
    startStepMinutes := 30
    lockBeforeMinutes := 60 }

/-- In the first week, Monday from half past nine to half past ten and Tuesday from a quarter past nine
to half past ten, which is written without milliseconds. -/
def firstWeek : List PlanningBusyInterval :=
  [⟨⟨toISOString 379800000, toISOString 383400000⟩, "calendar"⟩,
    ⟨⟨instantString 465300000, instantString 469800000⟩, "calendar"⟩]

/-- No hour is left, and of the half hours Monday's last is chosen: Tuesday's last, which is misjudged,
comes after it. -/
theorem chooses_best_review :
    ChoosesBest utc reviewMeeting
        (materializeHours utcZones (meetingProfile reviewMeeting) "1970-01-05"
          "1970-01-12").concreteIntervals firstWeek [] 0 ∧
      Misjudged reviewMeeting firstWeek [] 0 ⟨469800000, 30⟩ := by
  have hdraft : reviewMeeting.accepted = true := by decide +kernel
  constructor
  · refine (chooses_best_iff utcZones utc reviewMeeting "1970-01-05" "1970-01-12" firstWeek [] 0
      hdraft rfl utc_nearUTC).2 ((misjudgesWorse_iff hdraft).2 ?_)
    decide +kernel
  · decide +kernel

/-- The Sunday before, as a busy interval that ends with or without milliseconds. -/
def sunday (milliseconds : Bool) : PlanningBusyInterval :=
  ⟨⟨⟨259200000, milliseconds⟩, ⟨345600000, milliseconds⟩⟩, "calendar"⟩

def midnightWindows : List TextInterval :=
  (materializeHours utcZones (meetingProfile midnightMeeting) "1970-01-05" "1970-01-12").concreteIntervals

theorem midnightWindows_eq :
    midnightWindows = [⟨instantString 345600000, instantString 349200000⟩] := by
  decide +kernel

theorem midnight_start (start : Int) (hstart : 345600000 ≤ start)
    (hfinish : start + (60 : Nat) * 60000 ≤ 349200000) : start = 345600000 := by
  omega

theorem tried_midnight_iff {s : Slot} :
    Tried midnightMeeting midnightWindows s ↔ s = ⟨345600000, 60⟩ := by
  rw [midnightWindows_eq]
  constructor
  · rintro ⟨hduration, -, w, hw, hstart, hfinish⟩
    rw [List.mem_singleton] at hw
    subst hw
    obtain ⟨start, duration⟩ := s
    have hsixty : duration = 60 := by
      rcases hduration with ⟨n, hn, hmin⟩ | h
      · exact le_antisymm (Nat.le.intro hn) hmin
      · exact h
    subst hsixty
    rw [midnight_start start hstart hfinish]
  · rintro rfl
    exact ⟨Or.inr rfl, by decide, _, .head _, by decide⟩

/-- **A free slot that is not found**: an all-day event is written without milliseconds, and the slot
that starts where it ends counts as taken. -/
theorem allDay_takes_next_slot :
    ¬ ChoosesBest utc midnightMeeting midnightWindows [sunday false] [] 0 := by
  intro h
  have hnone : chooseMeetingSlot utc midnightMeeting midnightWindows [sunday false] [] 0 = none := by
    decide +kernel
  unfold ChoosesBest at h
  rw [hnone] at h
  exact h ⟨345600000, 60⟩ (tried_midnight_iff.2 rfl) (by decide +kernel)

end Sample

end Planipus.Planning

import Planipus.Planning.Verify.Choice

/-!
# Sound plans

Every slot that is scheduled has passed the comparisons of texts, with the busy intervals and with
the slots of the cycles before, and is the best that has. So a plan is sound exactly if each slot that
the comparisons overlook, one that is taken or too early, is worse in its cycle than a free one
(`plan_sound_iff`). In the years 0 to 9999 nothing is overlooked (`overlooksWorse_of_withinYears`).
From the year 10000 on texts begin with a sign that comes before every digit: a busy interval that
reaches there overlaps nothing.
-/

namespace Planipus.Planning

open CalendarSync Library

/-! ## Soundness -/

section Sound

variable (zones : String → Option Zone) (draft : SmartMeetingDraft)
  (busy : List PlanningBusyInterval) (now : Instant)

/-- The first date of the cycle `k`, if the first one begins with `start`. -/
def cycleFrom : String → Nat → Option String
  | start, 0 => some start
  | start, k + 1 => (addLocalDays start (7 * draft.cadenceWeeks)).bind fun next => cycleFrom next k

/-- The interval lies in a window of the cycle that begins with `start`. -/
def InWindow (start : String) (i : TextInterval) : Prop :=
  ∃ next, addLocalDays start (7 * draft.cadenceWeeks) = some next ∧
    ∃ w ∈ (materializeHours zones (meetingProfile draft) start next).concreteIntervals,
      w.start.instant ≤ i.start.instant ∧ i.finish.instant ≤ w.finish.instant

/-- What a scheduled interval of the cycle that begins with `start` has to satisfy on its own. -/
structure SoundSlot (start : String) (i : TextInterval) : Prop where
  window : InWindow zones draft start i
  earliest : now + draft.lockBeforeMinutes * 60000 ≤ i.start.instant
  minimum : i.start.instant + draft.minimumDurationMinutes * 60000 ≤ i.finish.instant
  maximum : i.finish.instant ≤ i.start.instant + draft.maximumDurationMinutes * 60000
  busy : ∀ b ∈ busy, meets i b.toTextInterval = false

/-- Every scheduled occurrence is sound and shares no instant with another one. -/
def SoundPlan (occurrences : List PlannedOccurrenceTemplate) : Prop :=
  ∀ k occurrence, occurrences[k]? = some occurrence → occurrence.decision = .schedule →
    ∃ start i, cycleFrom draft draft.startDate k = some start ∧ occurrence.interval? = some i ∧
      SoundSlot zones draft busy now start i ∧
      ∀ j other i', j ≠ k → occurrences[j]? = some other → other.decision = .schedule →
        other.interval? = some i' → meets i i' = false

/-- Every slot that the comparisons of texts find free, and that is not, is worse than a free one that
they find. -/
def OverlooksWorse (z : Zone) (windows used : List TextInterval) : Prop :=
  ∀ s, Tried draft windows s → Unconflicted draft busy used now s → ¬ Free draft busy used now s →
    ∃ s', Tried draft windows s' ∧ Unconflicted draft busy used now s' ∧
      Free draft busy used now s' ∧ s'.Better z draft s

/-- The windows of a cycle, which begins with `start`. -/
def windowsFrom (start : String) : List TextInterval :=
  match addLocalDays start (7 * draft.cadenceWeeks) with
  | some next => (materializeHours zones (meetingProfile draft) start next).concreteIntervals
  | none => []

/-- The windows of the cycle `k` of the plan. -/
def cycleWindows (k : Nat) : List TextInterval :=
  match cycleFrom draft draft.startDate k with
  | some start => windowsFrom zones draft start
  | none => []

/-- The slots that the cycles before `k` have taken. -/
def takenBefore (occurrences : List PlannedOccurrenceTemplate) (k : Nat) : List TextInterval :=
  (occurrences.take k).filterMap PlannedOccurrenceTemplate.interval?

/-- The clock plus the lock is in the years 0 to 9999, and no busy interval reaches from there into
the year 10000. -/
structure WithinYears : Prop where
  earliest : yearZero ≤ earliestStart draft now ∧ earliestStart draft now < yearTenThousand
  busy : ∀ b ∈ busy, b.finish.instant < yearTenThousand ∨ yearTenThousand ≤ b.start.instant

end Sound

theorem meets_comm (a b : TextInterval) : meets a b = meets b a := by
  simp only [meets, max_comm, min_comm]

/-! ## One cycle -/

section Cycle

variable {zones : String → Option Zone} {z : Zone} {draft : SmartMeetingDraft}
  {windows : List TextInterval} {busy : List PlanningBusyInterval} {used : List TextInterval}
  {now : Instant} {s : Slot} {c : Candidate}

/-- An interval that slots are compared with rightly. -/
structure Placed (i : TextInterval) : Prop where
  milliseconds : i.start.milliseconds = true ∧ i.finish.milliseconds = true
  ordinary : Ordinary i.start.instant ∧ Ordinary i.finish.instant

theorem Tried.placed (h : Tried draft windows s) (hwindows : OrdinaryWindows windows) :
    Placed s.interval :=
  ⟨⟨rfl, rfl⟩, h.ordinary hwindows⟩

/-- The slots of the cycles before are never overlooked. -/
theorem Placed.overlaps {i j : TextInterval} (hi : Placed i) (hj : Placed j)
    (h : meets i j = true) : overlaps i j = true := by
  obtain ⟨⟨a, milliseconds⟩, ⟨a', milliseconds'⟩⟩ := i
  obtain ⟨⟨b, milliseconds⟩, ⟨b', milliseconds'⟩⟩ := j
  obtain ⟨⟨rfl, rfl⟩, ha, ha'⟩ := hi
  obtain ⟨⟨rfl, rfl⟩, hb, hb'⟩ := hj
  simp only [meets, decide_eq_true_eq, max_lt_iff, lt_min_iff] at h
  obtain ⟨⟨-, hafter⟩, hbefore, -⟩ := h
  rw [Planning.overlaps, Bool.and_eq_true]
  exact ⟨(before_toISOString ha hb').2 hbefore, (before_toISOString hb ha').2 hafter⟩

theorem apart_of_unconflicted (htried : Tried draft windows s) (hwindows : OrdinaryWindows windows)
    (hfree : Unconflicted draft busy used now s) {u : TextInterval} (hu : u ∈ used)
    (hplaced : Placed u) : meets s.interval u = false := by
  rw [← Bool.not_eq_true]
  intro hmeets
  have hapart := (unconflicted_iff.1 hfree).2 u (List.mem_append_right _ hu)
  exact Bool.noConfusion (((htried.placed hwindows).overlaps hplaced hmeets).symm.trans hapart)

/-- The chosen slot is one that the search finds free. -/
theorem chosen_unconflicted (hdraft : draft.accepted = true) (hwindows : OrdinaryWindows windows)
    (hchosen : chooseMeetingSlot z draft windows busy used now = some c) :
    c.interval = c.slot.interval ∧ IsBest (Slot.Better z draft)
      (fun s => Tried draft windows s ∧ Unconflicted draft busy used now s) c.slot := by
  obtain ⟨hchooses, hinterval⟩ :
      Chooses (Slot.Better z draft)
        (fun s => Tried draft windows s ∧ Unconflicted draft busy used now s)
        ((chooseMeetingSlot z draft windows busy used now).map Candidate.slot) ∧ _ :=
    chooses_unconflicted hdraft hwindows
  rw [hchosen] at hchooses
  exact ⟨hinterval c hchosen, hchooses⟩

/-- **What is chosen is free** exactly if nothing that is overlooked comes first. -/
theorem overlooksWorse_iff (hdraft : draft.accepted = true) (hwindows : OrdinaryWindows windows) :
    OverlooksWorse draft busy now z windows used ↔
      ∀ c, chooseMeetingSlot z draft windows busy used now = some c →
        Free draft busy used now c.slot := by
  constructor
  · intro hworse c hchosen
    obtain ⟨-, ⟨htried, hfound⟩, hbest⟩ := chosen_unconflicted hdraft hwindows hchosen
    by_contra hfree
    obtain ⟨s', htried', hfound', -, hbetter⟩ := hworse c.slot htried hfound hfree
    rcases hbest s' ⟨htried', hfound'⟩ with rfl | hafter
    · exact Slot.Better.irrefl _ hbetter
    · exact Slot.Better.irrefl _ (Slot.Better.trans _ _ _ hafter hbetter)
  · intro hfree s htried hfound htaken
    cases hchosen : chooseMeetingSlot z draft windows busy used now with
    | none =>
      have hnone : Chooses (Slot.Better z draft)
          (fun s => Tried draft windows s ∧ Unconflicted draft busy used now s)
          ((chooseMeetingSlot z draft windows busy used now).map Candidate.slot) :=
        (chooses_unconflicted hdraft hwindows).1
      rw [hchosen] at hnone
      exact absurd ⟨htried, hfound⟩ (hnone s)
    | some c =>
      obtain ⟨-, ⟨htried', hfound'⟩, hbest⟩ := chosen_unconflicted hdraft hwindows hchosen
      refine ⟨c.slot, htried', hfound', hfree c hchosen, ?_⟩
      refine (hbest s ⟨htried, hfound⟩).resolve_left ?_
      rintro rfl
      exact htaken (hfree c hchosen)

/-- The slots that are tried in a cycle have their place and their length. -/
theorem soundSlot_iff {start next : String} (hdraft : draft.accepted = true)
    (hnext : addLocalDays start (7 * draft.cadenceWeeks) = some next)
    (htried : Tried draft
      (materializeHours zones (meetingProfile draft) start next).concreteIntervals s) :
    SoundSlot zones draft busy now start s.interval ↔
      earliestStart draft now ≤ s.start ∧
        ∀ b ∈ busy, meets s.interval b.toTextInterval = false := by
  constructor
  · exact fun h => ⟨h.earliest, h.busy⟩
  · rintro ⟨hearliest, hbusy⟩
    obtain ⟨w, hw, hstart, hfinish⟩ := htried.window
    have hduration : draft.minimumDurationMinutes ≤ s.duration ∧
        s.duration ≤ draft.maximumDurationMinutes := by
      obtain ⟨-, hle, -⟩ := SmartMeetingDraft.accepted.durations hdraft
      rcases htried.duration with ⟨n, hn, hmin⟩ | hmin
      · exact ⟨hmin, Nat.le.intro hn⟩
      · exact ⟨hmin.ge, hmin.le.trans hle⟩
    refine ⟨⟨next, hnext, w, hw, hstart, hfinish⟩, hearliest, ?_, ?_, hbusy⟩
    · exact Int.add_le_add_left (Int.mul_le_mul_of_nonneg_right (Int.ofNat_le.2 hduration.1)
        (by decide)) _
    · exact Int.add_le_add_left (Int.mul_le_mul_of_nonneg_right (Int.ofNat_le.2 hduration.2)
        (by decide)) _

/-- In the years 0 to 9999 no slot is overlooked. -/
theorem overlooksWorse_of_withinYears (hyears : WithinYears draft busy now)
    (hwritten : ∀ b ∈ busy, b.start.written = true ∧ b.finish.written = true)
    (hwindows : OrdinaryWindows windows) (hused : ∀ u ∈ used, Placed u) :
    OverlooksWorse draft busy now z windows used := by
  intro s htried hfound htaken
  refine absurd ?_ htaken
  obtain ⟨hstart, hapart⟩ := unconflicted_iff.1 hfound
  obtain ⟨hord, hordend⟩ := htried.ordinary hwindows
  have hlow : yearZero - 86400000 ≤ yearZero := by decide
  have hearliest : earliestStart draft now ≤ s.start := by
    rw [← Bool.not_eq_true, before_toISOString hord
      ⟨le_trans hlow hyears.earliest.1, hyears.earliest.2⟩] at hstart
    exact not_lt.1 hstart
  have hin : InYears s := ⟨le_trans hyears.earliest.1 hearliest, hordend.2⟩
  refine free_iff.2 ⟨hearliest, fun i hi => ?_⟩
  rcases List.mem_append.1 hi with hi' | hi'
  · obtain ⟨b, hb, rfl⟩ := List.mem_map.1 hi'
    rw [← Bool.not_eq_true]
    intro hmeets
    have hoverlaps := overlaps_of_meets hin htried (hwritten b hb) (hyears.busy b hb) hmeets
    exact Bool.noConfusion (hoverlaps.symm.trans (hapart _ hi))
  · exact apart_of_unconflicted htried hwindows hfound hi' (hused i hi')

/-- An occurrence is scheduled with the slot that is chosen. -/
theorem meetingOccurrence_scheduled {windows : List TextInterval} {start : String}
    (h : (meetingOccurrence z draft windows busy used now start).decision = .schedule) :
    ∃ c, chooseMeetingSlot z draft windows busy used now = some c ∧
      (meetingOccurrence z draft windows busy used now start).interval? = some c.interval := by
  unfold meetingOccurrence at h ⊢
  cases hchosen : chooseMeetingSlot z draft windows busy used now with
  | none =>
    rw [hchosen] at h
    cases h
  | some c => exact ⟨c, rfl, rfl⟩

theorem meetingOccurrence_interval {windows : List TextInterval} {start : String} {i : TextInterval}
    (h : (meetingOccurrence z draft windows busy used now start).interval? = some i) :
    ∃ c, chooseMeetingSlot z draft windows busy used now = some c ∧ i = c.interval := by
  unfold meetingOccurrence at h
  cases hchosen : chooseMeetingSlot z draft windows busy used now with
  | none =>
    rw [hchosen] at h
    cases h
  | some c =>
    rw [hchosen] at h
    cases h
    exact ⟨c, rfl, rfl⟩

end Cycle

/-! ## The plan -/

section Plan

variable {zones : String → Option Zone} {z : Zone} {draft : SmartMeetingDraft}
  {busy : List PlanningBusyInterval} {now : Instant} {input : PlanningInput} {result : PlanningResult}

theorem takenBefore_succ (occurrence : PlannedOccurrenceTemplate)
    (occurrences : List PlannedOccurrenceTemplate) (k : Nat) :
    takenBefore (occurrence :: occurrences) (k + 1) =
      occurrence.interval?.toList ++ takenBefore occurrences k := by
  rw [takenBefore, List.take_succ_cons, List.filterMap_cons]
  cases occurrence.interval? <;> rfl

/-- Every occurrence is that of its cycle, with the slots of the cycles before it taken. -/
theorem planCycles_getElem (count : Nat) (start : String) (used : List TextInterval)
    (warnings warnings' : List PlanningWarning) (occurrences : List PlannedOccurrenceTemplate)
    (h : planCycles zones z draft (meetingProfile draft) busy now count start used warnings =
      some (occurrences, warnings')) (k : Nat) (occurrence : PlannedOccurrenceTemplate)
    (hk : occurrences[k]? = some occurrence) :
    ∃ first next, cycleFrom draft start k = some first ∧
      addLocalDays first (7 * draft.cadenceWeeks) = some next ∧
      occurrence = meetingOccurrence z draft (windowsFrom zones draft first) busy
        (used ++ takenBefore occurrences k) now first := by
  induction count generalizing start used warnings occurrences k with
  | zero =>
    cases h
    cases hk
  | succ count ih =>
    unfold planCycles at h
    cases hnext : addLocalDays start (7 * draft.cadenceWeeks) with
    | none => rw [hnext] at h; cases h
    | some next =>
      rw [hnext] at h
      dsimp only [bind, Option.bind] at h
      split at h
      · cases h
      rename_i planned hplanned
      obtain ⟨rest, warnings''⟩ := planned
      cases h
      cases k with
      | zero =>
        rw [List.getElem?_cons_zero, Option.some.injEq] at hk
        refine ⟨start, next, rfl, hnext, ?_⟩
        rw [← hk, takenBefore, List.take_zero, List.filterMap_nil, List.append_nil, windowsFrom, hnext]
      | succ k =>
        rw [List.getElem?_cons_succ] at hk
        obtain ⟨first, next', hfirst, hnext', hoccurrence⟩ := ih next _ _ _ hplanned k hk
        refine ⟨first, next', ?_, hnext', ?_⟩
        · rw [cycleFrom, hnext]
          exact hfirst
        · rw [hoccurrence, takenBefore_succ, List.append_assoc]

theorem planCycles_length (count : Nat) (start : String) (used : List TextInterval)
    (warnings warnings' : List PlanningWarning) (occurrences : List PlannedOccurrenceTemplate)
    (h : planCycles zones z draft (meetingProfile draft) busy now count start used warnings =
      some (occurrences, warnings')) : occurrences.length = count := by
  induction count generalizing start used warnings occurrences with
  | zero =>
    cases h
    rfl
  | succ count ih =>
    unfold planCycles at h
    cases hnext : addLocalDays start (7 * draft.cadenceWeeks) with
    | none => rw [hnext] at h; cases h
    | some next =>
      rw [hnext] at h
      dsimp only [bind, Option.bind] at h
      split at h
      · cases h
      rename_i planned hplanned
      obtain ⟨rest, warnings''⟩ := planned
      cases h
      rw [List.length_cons, ih next _ _ _ hplanned]

theorem planSmartMeeting_cycles (hzone : zones draft.timezone = some z)
    (h : planSmartMeeting zones draft input = some result) : ∃ warnings,
      planCycles zones z draft (meetingProfile draft) input.busy input.now draft.occurrenceCount
        draft.startDate [] (meetingWarnings draft input.knownAvailabilityCalendarIds) =
          some (result.occurrences, warnings) := by
  unfold planSmartMeeting at h
  rw [hzone] at h
  dsimp only [bind, Option.bind] at h
  split at h
  · cases h
  rename_i planned hplanned
  obtain ⟨occurrences, warnings⟩ := planned
  cases h
  exact ⟨warnings, hplanned⟩

/-- Every occurrence of a plan is that of its cycle. -/
theorem planSmartMeeting_getElem (hzone : zones draft.timezone = some z)
    (h : planSmartMeeting zones draft input = some result) {k : Nat}
    {occurrence : PlannedOccurrenceTemplate} (hk : result.occurrences[k]? = some occurrence) :
    ∃ start next, cycleFrom draft draft.startDate k = some start ∧
      addLocalDays start (7 * draft.cadenceWeeks) = some next ∧
      cycleWindows zones draft k =
        (materializeHours zones (meetingProfile draft) start next).concreteIntervals ∧
      occurrence = meetingOccurrence z draft (cycleWindows zones draft k) input.busy
        (takenBefore result.occurrences k) input.now start := by
  obtain ⟨warnings, hplanned⟩ := planSmartMeeting_cycles hzone h
  obtain ⟨start, next, hstart, hnext, hoccurrence⟩ :=
    planCycles_getElem _ _ _ _ _ _ hplanned k occurrence hk
  have hwindows : cycleWindows zones draft k = windowsFrom zones draft start := by
    rw [cycleWindows, hstart]
  refine ⟨start, next, hstart, hnext, ?_, ?_⟩
  · rw [hwindows, windowsFrom, hnext]
  · rw [hoccurrence, hwindows, List.nil_append]

theorem cycleWindows_ordinary (hdraft : draft.accepted = true)
    (hz : ∀ z, zones draft.timezone = some z → NearUTC z) (k : Nat) :
    OrdinaryWindows (cycleWindows zones draft k) := by
  unfold cycleWindows windowsFrom
  split
  · split
    · exact meetingWindows_ordinary hdraft hz _ _
    · exact fun w hw => by cases hw
  · exact fun w hw => by cases hw

theorem mem_takenBefore {occurrences : List PlannedOccurrenceTemplate} {k : Nat}
    {u : TextInterval} : u ∈ takenBefore occurrences k ↔
      ∃ j < k, ∃ occurrence, occurrences[j]? = some occurrence ∧ occurrence.interval? = some u := by
  simp only [takenBefore, List.mem_filterMap, List.mem_take_iff_getElem, List.getElem?_eq_some_iff]
  constructor
  · rintro ⟨occurrence, ⟨j, hj, rfl⟩, hu⟩
    exact ⟨j, (lt_min_iff.1 hj).1, _, ⟨(lt_min_iff.1 hj).2, rfl⟩, hu⟩
  · rintro ⟨j, hj, occurrence, ⟨hlength, rfl⟩, hu⟩
    exact ⟨_, ⟨j, lt_min_iff.2 ⟨hj, hlength⟩, rfl⟩, hu⟩

/-- The interval of an occurrence is a slot of its cycle that the search finds free. -/
theorem interval_slot (hdraft : draft.accepted = true) (hzone : zones draft.timezone = some z)
    (hz : ∀ z, zones draft.timezone = some z → NearUTC z)
    (h : planSmartMeeting zones draft input = some result) {k : Nat}
    {occurrence : PlannedOccurrenceTemplate} {i : TextInterval}
    (hk : result.occurrences[k]? = some occurrence) (hi : occurrence.interval? = some i) :
    ∃ c, chooseMeetingSlot z draft (cycleWindows zones draft k) input.busy
        (takenBefore result.occurrences k) input.now = some c ∧
      i = c.slot.interval ∧ Tried draft (cycleWindows zones draft k) c.slot ∧
      Unconflicted draft input.busy (takenBefore result.occurrences k) input.now c.slot := by
  obtain ⟨start, next, -, -, -, rfl⟩ := planSmartMeeting_getElem hzone h hk
  obtain ⟨c, hchosen, rfl⟩ := meetingOccurrence_interval hi
  obtain ⟨hinterval, ⟨htried, hfound⟩, -⟩ :=
    chosen_unconflicted hdraft (cycleWindows_ordinary hdraft hz k) hchosen
  exact ⟨c, hchosen, hinterval, htried, hfound⟩

theorem placed_of_taken (hdraft : draft.accepted = true) (hzone : zones draft.timezone = some z)
    (hz : ∀ z, zones draft.timezone = some z → NearUTC z)
    (h : planSmartMeeting zones draft input = some result) {k : Nat} {u : TextInterval}
    (hu : u ∈ takenBefore result.occurrences k) : Placed u := by
  obtain ⟨j, -, occurrence, hj, hinterval⟩ := mem_takenBefore.1 hu
  obtain ⟨c, -, rfl, htried, -⟩ := interval_slot hdraft hzone hz h hj hinterval
  exact htried.placed (cycleWindows_ordinary hdraft hz j)

/-- Occurrences never share an instant. -/
theorem occurrences_apart (hdraft : draft.accepted = true) (hzone : zones draft.timezone = some z)
    (hz : ∀ z, zones draft.timezone = some z → NearUTC z)
    (h : planSmartMeeting zones draft input = some result) {j k : Nat} (hjk : j < k)
    {occurrence other : PlannedOccurrenceTemplate} {i i' : TextInterval}
    (hk : result.occurrences[k]? = some occurrence) (hi : occurrence.interval? = some i)
    (hj : result.occurrences[j]? = some other) (hi' : other.interval? = some i') :
    meets i i' = false := by
  obtain ⟨c, -, rfl, htried, hfound⟩ := interval_slot hdraft hzone hz h hk hi
  have htaken : i' ∈ takenBefore result.occurrences k := mem_takenBefore.2 ⟨j, hjk, other, hj, hi'⟩
  exact apart_of_unconflicted htried (cycleWindows_ordinary hdraft hz k) hfound htaken
    (placed_of_taken hdraft hzone hz h htaken)

end Plan

/-- **When a plan is sound**: for every accepted draft, exactly if in each cycle the slots that the
comparisons of texts overlook are worse than a free one that they find. -/
theorem plan_sound_iff (zones : String → Option Zone) (draft : SmartMeetingDraft)
    (input : PlanningInput) (result : PlanningResult) (z : Zone) (hdraft : draft.accepted = true)
    (hzone : zones draft.timezone = some z) (hz : NearUTC z)
    (h : planSmartMeeting zones draft input = some result) :
    SoundPlan zones draft input.busy input.now result.occurrences ↔
      ∀ k < draft.occurrenceCount, OverlooksWorse draft input.busy input.now z
        (cycleWindows zones draft k) (takenBefore result.occurrences k) := by
  have hnear := nearUTC_of_zone hzone hz
  have hcount : result.occurrences.length = draft.occurrenceCount := by
    obtain ⟨warnings, hplanned⟩ := planSmartMeeting_cycles hzone h
    exact planCycles_length _ _ _ _ _ _ hplanned
  constructor
  · intro hsound k hk
    rw [overlooksWorse_iff hdraft (cycleWindows_ordinary hdraft hnear k)]
    intro c hchosen
    obtain ⟨occurrence, hoccurrence⟩ : ∃ occurrence, result.occurrences[k]? = some occurrence :=
      ⟨_, List.getElem?_eq_getElem (hcount ▸ hk)⟩
    obtain ⟨start, next, hstart, hnext, hwindows, hthis⟩ :=
      planSmartMeeting_getElem hzone h hoccurrence
    obtain ⟨hinterval, ⟨htried, hfound⟩, -⟩ :=
      chosen_unconflicted hdraft (cycleWindows_ordinary hdraft hnear k) hchosen
    have hscheduled : occurrence.decision = .schedule ∧
        occurrence.interval? = some c.slot.interval := by
      rw [hthis, meetingOccurrence, hchosen, ← hinterval]
      exact ⟨rfl, rfl⟩
    obtain ⟨start', i, hstart', hi, hslot, -⟩ := hsound k occurrence hoccurrence hscheduled.1
    obtain rfl := Option.some.inj (hstart.symm.trans hstart')
    obtain rfl := Option.some.inj (hscheduled.2.symm.trans hi)
    refine free_iff.2 ⟨hslot.earliest, fun j hj => ?_⟩
    rcases List.mem_append.1 hj with hj | hj
    · obtain ⟨b, hb, rfl⟩ := List.mem_map.1 hj
      exact hslot.busy b hb
    · exact apart_of_unconflicted htried (cycleWindows_ordinary hdraft hnear k) hfound hj
        (placed_of_taken hdraft hzone hnear h hj)
  · intro hworse k occurrence hk hscheduled
    obtain ⟨start, next, hstart, hnext, hwindows, hthis⟩ := planSmartMeeting_getElem hzone h hk
    obtain ⟨c, hchosen, hi⟩ := meetingOccurrence_scheduled (hthis ▸ hscheduled)
    rw [← hthis] at hi
    obtain ⟨hinterval, ⟨htried, -⟩, -⟩ :=
      chosen_unconflicted hdraft (cycleWindows_ordinary hdraft hnear k) hchosen
    have hlt : k < draft.occurrenceCount := hcount ▸ (List.getElem?_eq_some_iff.1 hk).1
    have hfree := (overlooksWorse_iff hdraft (cycleWindows_ordinary hdraft hnear k)).1
      (hworse k hlt) c hchosen
    obtain ⟨hearliest, hapart⟩ := free_iff.1 hfree
    refine ⟨start, c.interval, hstart, hi, ?_, ?_⟩
    · rw [hinterval]
      refine (soundSlot_iff hdraft hnext (hwindows ▸ htried)).2 ⟨hearliest, fun b hb => ?_⟩
      exact hapart _ (List.mem_append_left _ (List.mem_map_of_mem hb))
    · intro j other i' hne hj _ hi'
      rcases Nat.lt_or_gt_of_ne hne with hlt | hgt
      · exact occurrences_apart hdraft hzone hnear h hlt hk hi hj hi'
      · rw [meets_comm]
        exact occurrences_apart hdraft hzone hnear h hgt hj hi' hk hi

section Sample

theorem utcZones_near {name : String} (z : Zone) (h : utcZones name = some z) : NearUTC z := by
  unfold utcZones at h
  split at h
  · cases h
    exact utc_nearUTC
  · cases h

def midnightInput (draft : SmartMeetingDraft) (busy : List PlanningBusyInterval) : PlanningInput :=
  ⟨.smartMeeting draft, 0, busy, ["calendar"]⟩

theorem plan_sound_review :
    ∃ result, planSmartMeeting utcZones reviewMeeting (midnightInput reviewMeeting firstWeek) =
        some result ∧
      result.occurrences.map (·.interval?) =
        [some (Slot.interval ⟨383400000, 30⟩), some (Slot.interval ⟨986400000, 60⟩)] ∧
      SoundPlan utcZones reviewMeeting firstWeek 0 result.occurrences := by
  have hdraft : reviewMeeting.accepted = true := by decide +kernel
  have hplanned : (planSmartMeeting utcZones reviewMeeting
      (midnightInput reviewMeeting firstWeek)).map
        (fun result => result.occurrences.map (·.interval?)) =
      some [some (Slot.interval ⟨383400000, 30⟩), some (Slot.interval ⟨986400000, 60⟩)] := by
    decide +kernel
  obtain ⟨result, hresult, hintervals⟩ := Option.map_eq_some_iff.1 hplanned
  refine ⟨result, hresult, hintervals, ?_⟩
  refine (plan_sound_iff utcZones reviewMeeting _ result utc hdraft rfl utc_nearUTC hresult).2
    fun k hk => ?_
  exact overlooksWorse_of_withinYears ⟨by decide, by decide⟩ (by decide)
    (cycleWindows_ordinary hdraft utcZones_near k)
    fun u hu => placed_of_taken hdraft rfl utcZones_near hresult hu

/-- A meeting on the second Monday before the end of the year 9999. -/
def lastMeeting : SmartMeetingDraft := { midnightMeeting with startDate := "9999-12-20" }

/-- Busy from the start of December 9999 to the second of January 10000. -/
def newYear : PlanningBusyInterval :=
  ⟨⟨toISOString 253399622400000, toISOString 253402387200000⟩, "calendar"⟩

/-- **A meeting inside a busy interval**: the end of the interval is written with a sign, and comes
before every slot. -/
theorem newYear_overlaps :
    lastMeeting.accepted = true ∧ (∀ z, utcZones lastMeeting.timezone = some z → NearUTC z) ∧
      (newYear.start.written = true ∧ newYear.finish.written = true) ∧
      ∃ result, planSmartMeeting utcZones lastMeeting (midnightInput lastMeeting [newYear]) =
          some result ∧
        ¬ SoundPlan utcZones lastMeeting [newYear] 0 result.occurrences := by
  refine ⟨by decide +kernel, utcZones_near, by decide, ?_⟩
  obtain ⟨result, hresult⟩ : ∃ result, planSmartMeeting utcZones lastMeeting
      (midnightInput lastMeeting [newYear]) = some result :=
    Option.isSome_iff_exists.1 (by decide +kernel)
  refine ⟨result, hresult, fun hsound => ?_⟩
  have hplanned : (planSmartMeeting utcZones lastMeeting (midnightInput lastMeeting [newYear])).map
      (fun result => result.occurrences.map fun occurrence =>
        (occurrence.decision, occurrence.interval?)) =
      some [(.schedule, some (Slot.interval ⟨253401264000000, 60⟩))] := by
    decide +kernel
  rw [hresult, Option.map_some, Option.some.injEq, List.map_eq_cons_iff] at hplanned
  obtain ⟨occurrence, rest, hoccurrences, hoccurrence, -⟩ := hplanned
  obtain ⟨hdecision, hinterval⟩ := Prod.mk.inj hoccurrence
  obtain ⟨start, i, -, hi, hslot, -⟩ := hsound 0 occurrence (by rw [hoccurrences]; rfl) hdecision
  rw [hinterval, Option.some.injEq] at hi
  subst hi
  have hmeets : meets (Slot.interval ⟨253401264000000, 60⟩) newYear.toTextInterval = true := by
    decide
  exact Bool.noConfusion (hmeets.symm.trans (hslot.busy newYear (.head _)))

end Sample

end Planipus.Planning

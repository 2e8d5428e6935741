import Planipus.Planning.Verify.Plans

/-!
# The reason of a scheduled occurrence

`planSmartMeeting` names the reason by the number of slots that were rejected before the chosen one
was tried, while the choice is made by sorting afterwards. `rejectedBefore_eq` relates the two for
every pattern of busy intervals, and `plan_truthful_iff` says when the reason is true: a slot at the
preferred time may be tried after slots that are taken, and a slot at another time before any.
-/

namespace Planipus.Planning

open CalendarSync Library

/-! ## Reasons -/

section Reasons

variable (z : Zone) (draft : SmartMeetingDraft) (windows : List TextInterval)
  (busy : List PlanningBusyInterval) (used : List TextInterval) (now : Instant)

/-- The slot starts in the minute of the preferred time. -/
def Slot.AtPreferred (s : Slot) : Prop :=
  localMinuteOfDay z s.start = clockMinutes draft.preferredTime

/-- The reason of a scheduled occurrence is true of its slot. -/
def Truthful (occurrence : PlannedOccurrenceTemplate) : Prop :=
  ∀ s : Slot, occurrence.interval? = some s.interval →
    (occurrence.reasonCode = "preferred_time_available" ↔ s.AtPreferred z draft) ∧
      (occurrence.reasonCode = "closest_mutual_opening" ↔
        ∀ s', Tried draft windows s' → s'.duration = s.duration → s'.AtPreferred z draft →
          ¬ Unconflicted draft busy used now s')

/-- The slots that are tried before a slot: the longer ones, and those of its length that come in an
earlier window or start earlier. -/
def triedBefore (s : Slot) : List Slot :=
  (slots draft windows (durations draft)).takeWhile (· ≠ s)

/-- The best slot that is not taken starts at the preferred time exactly if no slot that is tried
before it is taken. -/
def Explains : Prop :=
  ∀ s, IsBest (Slot.Better z draft)
      (fun s => Tried draft windows s ∧ Unconflicted draft busy used now s) s →
    (s.AtPreferred z draft ↔
      ∀ s' ∈ triedBefore draft windows s, Unconflicted draft busy used now s')

instance (s : Slot) : Decidable (s.AtPreferred z draft) :=
  inferInstanceAs (Decidable (_ = _))

end Reasons

/-! ## The count of rejected slots -/

section Count

variable {z : Zone} {draft : SmartMeetingDraft} {conflict : TextInterval → Bool} {duration : Nat}

/-- The number of the slots that are rejected. -/
def rejections (conflict : TextInterval → Bool) (slots : List Slot) : Nat :=
  slots.countP fun s => conflict s.interval

theorem rejections_cons_of_pos {s : Slot} {slots : List Slot} (h : conflict s.interval = true) :
    rejections conflict (s :: slots) = rejections conflict slots + 1 :=
  List.countP_cons_of_pos h

theorem rejections_cons_of_neg {s : Slot} {slots : List Slot} (h : conflict s.interval = false) :
    rejections conflict (s :: slots) = rejections conflict slots :=
  List.countP_cons_of_neg (by rw [h]; decide)

/-- The candidate that a slot becomes after some rejections. -/
def candidateOf (z : Zone) (draft : SmartMeetingDraft) (rejected : Nat) (s : Slot) : Candidate where
  interval := s.interval
  score := s.distance z draft + ((draft.maximumDurationMinutes : Int) - s.duration) * 5
  rejectedBefore := rejected

theorem candidateOf_madeFrom {rejected : Nat} {s : Slot} :
    MadeFrom z draft (candidateOf z draft rejected s) s :=
  ⟨rfl, rfl⟩

/-- Where a candidate comes from, among the slots in their order: what was rejected before it is its
count, and what was not has become an earlier candidate. -/
def Located (z : Zone) (draft : SmartMeetingDraft) (conflict : TextInterval → Bool) (rejected : Nat)
    (slots : List Slot) (pre : List Candidate) (c : Candidate) : Prop :=
  ∃ before s after, slots = before ++ s :: after ∧ MadeFrom z draft c s ∧
    conflict s.interval = false ∧ c.rejectedBefore = rejected + rejections conflict before ∧
    ∀ s' ∈ before, conflict s'.interval = false → ∃ c' ∈ pre, MadeFrom z draft c' s'

section Located

variable {rejected : Nat} {slots : List Slot} {pre : List Candidate} {c : Candidate} {s : Slot}

theorem located_head (h : conflict s.interval = false) :
    Located z draft conflict rejected (s :: slots) [] (candidateOf z draft rejected s) :=
  ⟨[], s, slots, rfl, candidateOf_madeFrom, h, rfl, fun _ hs' => by cases hs'⟩

theorem Located.cons_rejected (h : Located z draft conflict (rejected + 1) slots pre c)
    (hs : conflict s.interval = true) : Located z draft conflict rejected (s :: slots) pre c := by
  obtain ⟨before, s', after, hsplit, hmade, hfree, hcount, hearlier⟩ := h
  refine ⟨s :: before, s', after, congrArg _ hsplit, hmade, hfree, ?_, fun other hother hother' => ?_⟩
  · rw [hcount, rejections_cons_of_pos hs]
    omega
  · rcases List.mem_cons.1 hother with rfl | hother
    · rw [hs] at hother'
      cases hother'
    · exact hearlier other hother hother'

theorem Located.cons_candidate (h : Located z draft conflict rejected slots pre c)
    (hs : conflict s.interval = false) :
    Located z draft conflict rejected (s :: slots) (candidateOf z draft rejected s :: pre) c := by
  obtain ⟨before, s', after, hsplit, hmade, hfree, hcount, hearlier⟩ := h
  refine ⟨s :: before, s', after, congrArg _ hsplit, hmade, hfree, ?_, fun other hother hother' => ?_⟩
  · rw [hcount, rejections_cons_of_neg hs]
  · rcases List.mem_cons.1 hother with rfl | hother
    · exact ⟨_, List.mem_cons_self, candidateOf_madeFrom⟩
    · obtain ⟨c', hc', hmade'⟩ := hearlier other hother hother'
      exact ⟨c', List.mem_cons_of_mem _ hc', hmade'⟩

theorem Located.append_left {longer : List Slot}
    (h : Located z draft conflict (rejected + rejections conflict longer) slots pre c)
    (hlonger : ∀ s ∈ longer, conflict s.interval = true) :
    Located z draft conflict rejected (longer ++ slots) pre c := by
  induction longer generalizing rejected with
  | nil => exact h
  | cons s longer ih =>
    have hs := hlonger s List.mem_cons_self
    rw [rejections_cons_of_pos hs, ← Nat.add_assoc, Nat.add_right_comm] at h
    exact (ih h fun s' hs' => hlonger s' (List.mem_cons_of_mem _ hs')).cons_rejected hs

theorem Located.append_right {shorter : List Slot} (h : Located z draft conflict rejected slots pre c) :
    Located z draft conflict rejected (slots ++ shorter) pre c := by
  obtain ⟨before, s, after, rfl, hrest⟩ := h
  exact ⟨before, s, after ++ shorter, by simp, hrest⟩

end Located

theorem tryCursor_free {cursor : Int} {rejected : Nat} {acc : List Candidate}
    (h : conflict (Slot.interval ⟨cursor, duration⟩) = false) :
    tryCursor z draft conflict duration (rejected, acc) cursor =
      (rejected, acc ++ [candidateOf z draft rejected ⟨cursor, duration⟩]) := by
  have hfree : conflict ⟨toISOString cursor, toISOString (cursor + duration * 60000)⟩ = false := h
  unfold tryCursor
  simp only [hfree, Bool.false_eq_true, if_false]
  rfl

variable (z draft conflict duration) in
/-- The innermost loop: what is tried is counted or appended. -/
theorem foldl_tryCursor_located (cursors : List Int) (rejected : Nat) (acc : List Candidate) :
    ∃ new, cursors.foldl (tryCursor z draft conflict duration) (rejected, acc) =
        (rejected + rejections conflict (cursors.map (Slot.mk · duration)), acc ++ new) ∧
      (new = [] → ∀ s ∈ cursors.map (Slot.mk · duration), conflict s.interval = true) ∧
      ∀ pre c post, new = pre ++ c :: post →
        Located z draft conflict rejected (cursors.map (Slot.mk · duration)) pre c := by
  induction cursors generalizing rejected acc with
  | nil =>
    refine ⟨[], by simp [rejections], fun _ s hs => (by cases hs), fun pre c post h => ?_⟩
    exact absurd h.symm (List.append_ne_nil_of_right_ne_nil _ (List.cons_ne_nil _ _))
  | cons cursor cursors ih =>
    rw [List.foldl_cons, List.map_cons]
    cases hconflict : conflict (Slot.interval ⟨cursor, duration⟩) with
    | true =>
      have hstep : tryCursor z draft conflict duration (rejected, acc) cursor =
          (rejected + 1, acc) := if_pos hconflict
      obtain ⟨new, hfold, hnone, hlocated⟩ := ih (rejected + 1) acc
      refine ⟨new, ?_, fun hnew s hs => ?_, fun pre c post hnew => ?_⟩
      · rw [hstep, hfold, rejections_cons_of_pos hconflict, Nat.add_right_comm, Nat.add_assoc]
      · rcases List.mem_cons.1 hs with rfl | hs
        · exact hconflict
        · exact hnone hnew s hs
      · exact (hlocated pre c post hnew).cons_rejected hconflict
    | false =>
      obtain ⟨new, hfold, -, hlocated⟩ :=
        ih rejected (acc ++ [candidateOf z draft rejected ⟨cursor, duration⟩])
      refine ⟨candidateOf z draft rejected ⟨cursor, duration⟩ :: new, ?_, (fun hnew => by cases hnew),
        fun pre c post hnew => ?_⟩
      · rw [tryCursor_free hconflict, hfold, rejections_cons_of_neg hconflict, List.append_assoc]
        rfl
      · rcases List.append_eq_cons_iff.1 hnew.symm with ⟨rfl, hhead⟩ | ⟨pre', rfl, hrest⟩
        · obtain ⟨rfl, -⟩ := List.cons.inj hhead
          exact located_head hconflict
        · exact (hlocated pre' c post hrest).cons_candidate hconflict

/-- The loop over the durations: the candidates are those of the slots in their order. -/
theorem scanDurations_located (windows : List TextInterval) (durations : List Nat) (rejected : Nat)
    {pre post : List Candidate} {c : Candidate}
    (h : scanDurations z draft windows conflict durations rejected = pre ++ c :: post) :
    Located z draft conflict rejected (slots draft windows durations) pre c := by
  induction durations generalizing rejected with
  | nil => exact absurd h.symm (List.append_ne_nil_of_right_ne_nil _ (List.cons_ne_nil _ _))
  | cons duration durations ih =>
    obtain ⟨new, hfold, hnone, hlocated⟩ := foldl_tryCursor_located z draft conflict
      duration (windows.flatMap (cursors draft · duration)) rejected []
    unfold scanDurations at h
    rw [hfold, List.nil_append] at h
    dsimp only at h
    rw [slots, List.flatMap_cons]
    cases hnew : new with
    | nil =>
      rw [hnew, List.isEmpty_nil, if_pos rfl] at h
      exact (ih _ h).append_left (hnone hnew)
    | cons first new' =>
      rw [hnew, List.isEmpty_cons, if_neg Bool.false_ne_true] at h
      exact (hlocated pre c post (hnew.trans h)).append_right

end Count

/-! ## The chosen slot -/

section Chosen

variable {z : Zone} {draft : SmartMeetingDraft} {windows : List TextInterval}
  {busy : List PlanningBusyInterval} {used : List TextInterval} {now : Instant}

/-- **The count of rejected slots**: the chosen candidate counts the taken slots among those that are
tried before its slot, wherever sorting has found it. -/
theorem rejectedBefore_eq {c : Candidate} (hdraft : draft.accepted = true)
    (hwindows : OrdinaryWindows windows)
    (hchosen : chooseMeetingSlot z draft windows busy used now = some c) :
    c.rejectedBefore =
      rejections (conflicts (toISOString (earliestStart draft now)) busy used)
        (triedBefore draft windows c.slot) := by
  unfold chooseMeetingSlot at hchosen
  obtain ⟨pre, post, hsplit, hpre⟩ := head?_insertionSort_split _ hchosen
  obtain ⟨before, s, after, hslots, hmade, hfree, hcount, hearlier⟩ :=
    scanDurations_located _ _ _ hsplit
  have htried : ∀ s' ∈ before ++ s :: after, Tried draft windows s' := fun s' hs' =>
    (mem_slots_iff hdraft).1 (hslots ▸ hs')
  have hs : Tried draft windows s := htried s (by simp)
  -- A slot that was tried earlier in another window would have come first in the sorted list.
  have hfirst : ∀ s' ∈ before, s' ≠ s := by
    rintro s' hs' rfl
    obtain ⟨c', hc', hmade'⟩ := hearlier s' hs' hfree
    exact hpre c' hc' ((before_iff_of_madeFrom hmade' hmade rfl hs hs hwindows).2
      (Or.inr ⟨rfl, le_refl _⟩))
  have hbefore : triedBefore draft windows s = before := by
    rw [triedBefore, hslots, List.takeWhile_append_of_pos]
    · simp
    · exact fun s' hs' => decide_eq_true (hfirst s' hs')
  rw [Candidate.slot_of_interval hmade.interval, hbefore, hcount, Nat.zero_add]
  rfl

theorem rejectedBefore_eq_zero_iff {c : Candidate} (hdraft : draft.accepted = true)
    (hwindows : OrdinaryWindows windows)
    (hchosen : chooseMeetingSlot z draft windows busy used now = some c) :
    c.rejectedBefore = 0 ↔
      ∀ s ∈ triedBefore draft windows c.slot, Unconflicted draft busy used now s := by
  rw [rejectedBefore_eq hdraft hwindows hchosen, rejections, List.countP_eq_zero]
  exact forall_congr' fun s => imp_congr_right fun _ => Bool.eq_false_iff.symm

theorem atPreferred_iff {s : Slot} : s.AtPreferred z draft ↔ s.distance z draft = 0 := by
  rw [Slot.distance, Int.natAbs_eq_zero, sub_eq_zero, Slot.AtPreferred]

/-- The best slot starts at the preferred time exactly if some slot of its length that is not taken
does. -/
theorem best_atPreferred_iff {s : Slot} (h : IsBest (Slot.Better z draft)
    (fun s => Tried draft windows s ∧ Unconflicted draft busy used now s) s) :
    s.AtPreferred z draft ↔ ¬ ∀ s', Tried draft windows s' → s'.duration = s.duration →
      s'.AtPreferred z draft → ¬ Unconflicted draft busy used now s' := by
  constructor
  · exact fun hs hnone => hnone s h.1.1 rfl hs h.1.2
  · intro hsome
    obtain ⟨s', htried, hduration, hpreferred, hfree⟩ : ∃ s', Tried draft windows s' ∧
        s'.duration = s.duration ∧ s'.AtPreferred z draft ∧
          Unconflicted draft busy used now s' := by
      by_contra hnone
      exact hsome fun s' htried hduration hpreferred hfree =>
        hnone ⟨s', htried, hduration, hpreferred, hfree⟩
    rcases h.2 s' ⟨htried, hfree⟩ with rfl | hbetter
    · exact hpreferred
    · rw [atPreferred_iff] at hpreferred ⊢
      rcases hbetter with hlonger | ⟨-, hcloser | ⟨hsame, -⟩⟩
      · exact absurd hduration (Nat.ne_of_lt hlonger)
      · rw [hpreferred] at hcloser
        exact absurd hcloser (Nat.not_lt_zero _)
      · rw [hsame, hpreferred]

/-- The condition is about the slot that is chosen. -/
theorem explains_iff {c : Candidate} (hdraft : draft.accepted = true)
    (hwindows : OrdinaryWindows windows)
    (hchosen : chooseMeetingSlot z draft windows busy used now = some c)
    (hbest : IsBest (Slot.Better z draft)
      (fun s => Tried draft windows s ∧ Unconflicted draft busy used now s) c.slot) :
    Explains z draft windows busy used now ↔
      (c.rejectedBefore = 0 ↔ c.slot.AtPreferred z draft) := by
  rw [rejectedBefore_eq_zero_iff hdraft hwindows hchosen]
  constructor
  · exact fun h => (h c.slot hbest).symm
  · intro h s hs
    rw [hbest.unique hs Slot.Better.irrefl fun _ _ _ => Slot.Better.trans _ _ _]
    exact h.symm

/-- The condition, on the list of the slots that are tried. -/
theorem explains_slots_iff (hdraft : draft.accepted = true) :
    Explains z draft windows busy used now ↔
      ∀ s ∈ slots draft windows (durations draft), Unconflicted draft busy used now s →
        (∀ s' ∈ slots draft windows (durations draft), Unconflicted draft busy used now s' →
          s' = s ∨ s.Better z draft s') →
        (s.AtPreferred z draft ↔
          ∀ s' ∈ triedBefore draft windows s, Unconflicted draft busy used now s') := by
  simp only [Explains, IsBest, mem_slots_iff hdraft, and_imp]

/-- The reason of one cycle. -/
theorem meetingOccurrence_truthful_iff {start : String} (hdraft : draft.accepted = true)
    (hwindows : OrdinaryWindows windows)
    (hscheduled : (meetingOccurrence z draft windows busy used now start).decision = .schedule) :
    Truthful z draft windows busy used now
        (meetingOccurrence z draft windows busy used now start) ↔
      Explains z draft windows busy used now := by
  obtain ⟨c, hchosen, hinterval⟩ := meetingOccurrence_scheduled hscheduled
  obtain ⟨hchooses, hslot⟩ :
      Chooses (Slot.Better z draft)
        (fun s => Tried draft windows s ∧ Unconflicted draft busy used now s)
        ((chooseMeetingSlot z draft windows busy used now).map Candidate.slot) ∧ _ :=
    chooses_unconflicted hdraft hwindows
  rw [hchosen] at hchooses
  have hbest : IsBest (Slot.Better z draft)
      (fun s => Tried draft windows s ∧ Unconflicted draft busy used now s) c.slot := hchooses
  have hreason : (meetingOccurrence z draft windows busy used now start).reasonCode =
      if c.rejectedBefore > 0 then "closest_mutual_opening" else "preferred_time_available" := by
    rw [meetingOccurrence, hchosen]
  have hreasons : ((meetingOccurrence z draft windows busy used now start).reasonCode =
      "preferred_time_available" ↔ c.rejectedBefore = 0) ∧
        ((meetingOccurrence z draft windows busy used now start).reasonCode =
          "closest_mutual_opening" ↔ ¬ c.rejectedBefore = 0) := by
    rw [hreason]
    by_cases hnone : c.rejectedBefore = 0
    · simp [hnone]
    · simp [hnone, Nat.pos_of_ne_zero hnone]
  rw [explains_iff hdraft hwindows hchosen hbest, Truthful, hinterval, hreasons.1, hreasons.2]
  constructor
  · exact fun h => (h c.slot (congrArg some (hslot c hchosen))).1
  · intro h s hs
    rw [← Candidate.slot_of_interval (Option.some.inj hs)]
    exact ⟨h, (not_congr h).trans ((not_congr (best_atPreferred_iff hbest)).trans not_not)⟩

end Chosen

/-- **When the reason is true**: of every scheduled occurrence, exactly if the best slot of its cycle
that is not taken starts at the preferred time just when no slot tried before it is taken. -/
theorem plan_truthful_iff (zones : String → Option Zone) (draft : SmartMeetingDraft)
    (input : PlanningInput) (result : PlanningResult) (z : Zone) (hdraft : draft.accepted = true)
    (hzone : zones draft.timezone = some z) (hz : NearUTC z)
    (h : planSmartMeeting zones draft input = some result) (k : Nat)
    (occurrence : PlannedOccurrenceTemplate) (hk : result.occurrences[k]? = some occurrence)
    (hscheduled : occurrence.decision = .schedule) :
    Truthful z draft (cycleWindows zones draft k) input.busy (takenBefore result.occurrences k)
        input.now occurrence ↔
      Explains z draft (cycleWindows zones draft k) input.busy (takenBefore result.occurrences k)
        input.now := by
  obtain ⟨start, next, -, -, -, rfl⟩ := planSmartMeeting_getElem hzone h hk
  exact meetingOccurrence_truthful_iff hdraft
    (cycleWindows_ordinary hdraft (nearUTC_of_zone hzone hz) k) hscheduled

section Sample

/-- In the first week the preferred time is taken on both days, and the slot half an hour later is
the closest opening after eight rejections; in the second week the preferred time is open. -/
theorem plan_truthful_review :
    ∃ result first second, planSmartMeeting utcZones reviewMeeting
        (midnightInput reviewMeeting firstWeek) = some result ∧
      result.occurrences = [first, second] ∧
      (first.reasonCode, first.rejectedCandidateCount) = ("closest_mutual_opening", 8) ∧
      (second.reasonCode, second.rejectedCandidateCount) = ("preferred_time_available", 0) ∧
      Truthful utc reviewMeeting (cycleWindows utcZones reviewMeeting 0) firstWeek
        (takenBefore result.occurrences 0) 0 first ∧
      Truthful utc reviewMeeting (cycleWindows utcZones reviewMeeting 1) firstWeek
        (takenBefore result.occurrences 1) 0 second := by
  have hdraft : reviewMeeting.accepted = true := by decide +kernel
  have hplanned : (planSmartMeeting utcZones reviewMeeting
      (midnightInput reviewMeeting firstWeek)).map (fun result => result.occurrences.map
        fun occurrence => (occurrence.decision, occurrence.interval?, occurrence.reasonCode,
          occurrence.rejectedCandidateCount)) =
      some [(.schedule, some (Slot.interval ⟨383400000, 30⟩), "closest_mutual_opening", 8),
        (.schedule, some (Slot.interval ⟨986400000, 60⟩), "preferred_time_available", 0)] := by
    decide +kernel
  obtain ⟨result, hresult, hall⟩ := Option.map_eq_some_iff.1 hplanned
  obtain ⟨first, rest, hoccurrences, hfirst, hrest⟩ := List.map_eq_cons_iff.1 hall
  obtain ⟨second, rest', rfl, hsecond, hnil⟩ := List.map_eq_cons_iff.1 hrest
  obtain rfl := List.map_eq_nil_iff.1 hnil
  simp only [Prod.mk.injEq] at hfirst hsecond
  obtain ⟨hscheduled, hinterval, hreason, hcount⟩ := hfirst
  obtain ⟨hscheduled', -, hreason', hcount'⟩ := hsecond
  refine ⟨result, first, second, hresult, hoccurrences, by rw [hreason, hcount],
    by rw [hreason', hcount'], ?_, ?_⟩
  · refine (plan_truthful_iff utcZones reviewMeeting _ result utc hdraft rfl utc_nearUTC hresult 0
      first (by rw [hoccurrences]; rfl) hscheduled).2 ((explains_slots_iff hdraft).2 ?_)
    rw [takenBefore, List.take_zero, List.filterMap_nil]
    decide +kernel
  · refine (plan_truthful_iff utcZones reviewMeeting _ result utc hdraft rfl utc_nearUTC hresult 1
      second (by rw [hoccurrences]; rfl) hscheduled').2 ((explains_slots_iff hdraft).2 ?_)
    have htaken : takenBefore result.occurrences 1 = [Slot.interval ⟨383400000, 30⟩] := by
      rw [hoccurrences, takenBefore, List.take_one, List.head?_cons, Option.toList_some,
        List.filterMap_cons, hinterval, List.filterMap_nil]
    rw [htaken]
    decide +kernel

/-- A meeting of an hour in the first two hours of Monday, best in the second. -/
def secondHour : SmartMeetingDraft :=
  { midnightMeeting with windowEnd := "02:00:00", preferredTime := "01:00:00" }

/-- The first half hour of that Monday. -/
def mondayMorning : PlanningBusyInterval :=
  ⟨⟨toISOString 345600000, toISOString 347400000⟩, "calendar"⟩

/-- **The preferred time is open, and the reason denies it**: the first hour is tried, and rejected,
before the second. -/
theorem preferred_called_closest :
    secondHour.accepted = true ∧
      ∃ result occurrence, planSmartMeeting utcZones secondHour
          (midnightInput secondHour [mondayMorning]) = some result ∧
        result.occurrences[0]? = some occurrence ∧ occurrence.decision = .schedule ∧
        ¬ Truthful utc secondHour (cycleWindows utcZones secondHour 0) [mondayMorning]
          (takenBefore result.occurrences 0) 0 occurrence := by
  refine ⟨by decide +kernel, ?_⟩
  obtain ⟨result, hresult⟩ : ∃ result, planSmartMeeting utcZones secondHour
      (midnightInput secondHour [mondayMorning]) = some result :=
    Option.isSome_iff_exists.1 (by decide +kernel)
  have hfirst : ((planSmartMeeting utcZones secondHour
      (midnightInput secondHour [mondayMorning])).bind fun result =>
        result.occurrences[0]?.map fun occurrence =>
          (occurrence.decision, occurrence.reasonCode, occurrence.interval?)) =
      some (.schedule, "closest_mutual_opening", some (Slot.interval ⟨349200000, 60⟩)) := by
    decide +kernel
  rw [hresult, Option.bind_some, Option.map_eq_some_iff] at hfirst
  obtain ⟨occurrence, hoccurrence, hparts⟩ := hfirst
  obtain ⟨hscheduled, hparts⟩ := Prod.mk.inj hparts
  obtain ⟨hreason, hinterval⟩ := Prod.mk.inj hparts
  refine ⟨result, occurrence, hresult, hoccurrence, hscheduled, fun htruthful => ?_⟩
  have hpreferred := (htruthful _ hinterval).1.2 (by decide +kernel)
  rw [hreason] at hpreferred
  exact absurd hpreferred (by decide)

end Sample

end Planipus.Planning

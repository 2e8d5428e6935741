import Mathlib.Order.CompletePartialOrder
import Planipus.CalendarSync.Verify.Dates
import Planipus.CalendarSync.Verify.Days
import Planipus.Library.Cuts
import Planipus.Planning.Validation

/-!
# The fences of an availability boundary

A date is cut at its resolved midnight, start and end of work, and at the next midnight. Where the cuts
of the dates are in order (`OrderedOn`), what lies between them tiles the dates: the fences of a date are
cells of it, and so is the working interval. A local time that a zone skips may be moved past the next
cut; then fences overlap.
-/

namespace Planipus.Planning

open CalendarSync Library

/-! ## Cuts -/

/-- The instant of a local time on a date, with the rules of `hoursProfile`. -/
def boundaryAt (z : Zone) (date : Day) (text : String) : Option Instant :=
  (resolveLocal z (hoursProfile "" "" []) date text).toOption.map fun r => r.instant * 1000

/-- The resolved working interval of a date. -/
def workingOn (z : Zone) (draft : AvailabilityBoundaryDraft) (date : Day) : Set Instant :=
  {t | ∃ start finish, boundaryAt z date draft.workdayStart = some start ∧
    boundaryAt z date draft.workdayEnd = some finish ∧ start ≤ t ∧ t < finish}

/-- The cuts of a date. -/
structure CutsOn (z : Zone) (draft : AvailabilityBoundaryDraft) (date : Day)
    (midnight start finish next : Instant) : Prop where
  midnight : boundaryAt z date "00:00:00" = some midnight
  start : boundaryAt z date draft.workdayStart = some start
  finish : boundaryAt z date draft.workdayEnd = some finish
  next : boundaryAt z (date + 1) "00:00:00" = some next

/-- The cuts of the date are in order; on a day off, only the midnights matter. -/
def OrderedOn (z : Zone) (draft : AvailabilityBoundaryDraft) (date : Day) : Prop :=
  ∃ midnight start finish next, CutsOn z draft date midnight start finish next ∧ midnight ≤ next ∧
    (dayOfWeek date ∈ draft.workingDays → midnight ≤ start ∧ start ≤ finish ∧ finish ≤ next)

/-! ## The local intervals of a date -/

/-- What the profile of a boundary has on a day of the week. -/
def fencesOf (draft : AvailabilityBoundaryDraft) (weekday : Nat) : List LocalInterval :=
  if weekday ∉ draft.workingDays then
    if draft.protectClosedDays then [⟨"00:00:00", "00:00:00", 1⟩] else []
  else
    (if draft.protectBeforeWork && draft.workdayStart ≠ "00:00:00" then
      [⟨"00:00:00", draft.workdayStart, 0⟩]
    else []) ++
    (if draft.protectAfterWork && draft.workdayEnd ≠ "00:00:00" then
      [⟨draft.workdayEnd, "00:00:00", 1⟩]
    else [])

/-- The profile of a boundary. -/
def boundaryProfile (draft : AvailabilityBoundaryDraft) : HoursProfile :=
  hoursProfile "availability-boundary-preview" draft.timezone (boundaryWeekly draft)

theorem dayOfWeek_bounds (date : Day) : 1 ≤ dayOfWeek date ∧ dayOfWeek date ≤ 7 := by
  unfold dayOfWeek
  obtain ⟨d, hd⟩ : ∃ d : Int, d = date := ⟨date, rfl⟩
  rw [← hd]
  omega

theorem boundaryWeekly_eq (draft : AvailabilityBoundaryDraft) :
    boundaryWeekly draft = [1, 2, 3, 4, 5, 6, 7].flatMap fun weekday =>
      (fencesOf draft weekday).map fun fence => { fence with weekday } := by
  unfold boundaryWeekly fencesOf
  refine List.flatMap_congr fun weekday _ => ?_
  split_ifs <;> rfl

theorem weeklyOn_boundary (draft : AvailabilityBoundaryDraft) (date : Day) :
    (boundaryProfile draft).weeklyOn date = fencesOf draft (dayOfWeek date) := by
  have hbounds := dayOfWeek_bounds date
  have hday : ∀ weekday, (((fencesOf draft weekday).map fun fence =>
      ({ fence with weekday } : WeeklyInterval)).filter fun item =>
        item.weekday = dayOfWeek date).map (·.toLocalInterval) =
      if weekday = dayOfWeek date then fencesOf draft weekday else [] := by
    intro weekday
    rw [List.filter_map, List.map_map]
    split_ifs with h
    · have hall : ∀ fence ∈ fencesOf draft weekday, decide (weekday = dayOfWeek date) = true :=
        fun _ _ => decide_eq_true h
      exact (congrArg _ (List.filter_eq_self.2 hall)).trans (List.map_id' _)
    · have hnone : ∀ fence ∈ fencesOf draft weekday, ¬decide (weekday = dayOfWeek date) = true :=
        fun _ _ hd => h (of_decide_eq_true hd)
      exact congrArg _ (List.filter_eq_nil_iff.2 hnone)
  have hweekly : (boundaryProfile draft).weeklyOn date =
      [1, 2, 3, 4, 5, 6, 7].flatMap fun weekday =>
        if weekday = dayOfWeek date then fencesOf draft weekday else [] := by
    rw [HoursProfile.weeklyOn, boundaryProfile, hoursProfile, boundaryWeekly_eq, List.filter_flatMap,
      List.map_flatMap]
    exact List.flatMap_congr fun weekday _ => hday weekday
  rw [hweekly]
  generalize dayOfWeek date = weekday at hbounds ⊢
  obtain ⟨hlow, hhigh⟩ := hbounds
  interval_cases weekday <;> simp

/-! ## Concrete fences -/

section Concrete

variable {z : Zone} {draft : AvailabilityBoundaryDraft} {date : Day}

theorem resolveLocal_of_boundaryAt (draft : AvailabilityBoundaryDraft) {text : String} {t : Instant} (h : boundaryAt z date text = some t) :
    ∃ r, resolveLocal z (boundaryProfile draft) date text = .ok r ∧ r.instant * 1000 = t := by
  unfold boundaryAt at h
  have hrules : resolveLocal z (boundaryProfile draft) date text =
      resolveLocal z (hoursProfile "" "" []) date text := rfl
  rw [hrules]
  cases hr : resolveLocal z (hoursProfile "" "" []) date text with
  | error e => rw [hr] at h; cases h
  | ok r =>
    rw [hr] at h
    exact ⟨r, rfl, Option.some.inj h⟩

theorem millis_lt_iff {s t : Int} : s * 1000 < t * 1000 ↔ ¬t ≤ s := by omega

/-- A local interval becomes the interval between its cuts, unless that is empty. -/
theorem materialize_boundary (draft : AvailabilityBoundaryDraft) {value : LocalInterval} {a b : Instant}
    (hstart : boundaryAt z date value.start = some a)
    (hfinish : boundaryAt z (date + value.endDayOffset) value.finish = some b) :
    ∃ diagnostics, materialize z (boundaryProfile draft) date value =
      .ok (if a < b then [⟨a, b⟩] else [], diagnostics) := by
  obtain ⟨start, hs, rfl⟩ := resolveLocal_of_boundaryAt draft hstart
  obtain ⟨finish, hf, rfl⟩ := resolveLocal_of_boundaryAt draft hfinish
  refine ⟨start.diagnostic.toList ++ finish.diagnostic.toList, ?_⟩
  rw [materialize, hs, hf]
  simp only [bind, Except.bind]
  by_cases hle : finish.instant ≤ start.instant
  · rw [if_pos hle, if_neg fun hlt => millis_lt_iff.1 hlt hle]
    rfl
  · rw [if_neg hle, if_pos (millis_lt_iff.2 hle)]
    rfl

theorem intervalsForDate_boundary : intervalsForDate z (boundaryProfile draft) date =
    materializeAll z (boundaryProfile draft) date (fencesOf draft (dayOfWeek date)) := by
  rw [← weeklyOn_boundary]
  rfl

/-- The cells of a date that the draft protects. -/
inductive FenceOn (draft : AvailabilityBoundaryDraft) (date : Day)
    (midnight start finish next : Instant) : InstantInterval → Prop
  | closed : dayOfWeek date ∉ draft.workingDays → draft.protectClosedDays = true →
      FenceOn draft date midnight start finish next ⟨midnight, next⟩
  | before : dayOfWeek date ∈ draft.workingDays → draft.protectBeforeWork = true →
      draft.workdayStart ≠ "00:00:00" → FenceOn draft date midnight start finish next ⟨midnight, start⟩
  | after : dayOfWeek date ∈ draft.workingDays → draft.protectAfterWork = true →
      draft.workdayEnd ≠ "00:00:00" → FenceOn draft date midnight start finish next ⟨finish, next⟩

variable {midnight start finish next : Instant} {f : InstantInterval}

/-- The local intervals of a date have cuts of it as their ends. -/
theorem fence_of_mem (hcuts : CutsOn z draft date midnight start finish next)
    {value : LocalInterval} (hvalue : value ∈ fencesOf draft (dayOfWeek date)) :
    ∃ a b, boundaryAt z date value.start = some a ∧
      boundaryAt z (date + value.endDayOffset) value.finish = some b ∧
        FenceOn draft date midnight start finish next ⟨a, b⟩ := by
  unfold fencesOf at hvalue
  by_cases hday : dayOfWeek date ∈ draft.workingDays
  · rw [if_neg (not_not.2 hday)] at hvalue
    rcases List.mem_append.1 hvalue with hvalue | hvalue
    · split_ifs at hvalue with hbefore
      · rw [Bool.and_eq_true, decide_eq_true_eq] at hbefore
        obtain rfl := List.mem_singleton.1 hvalue
        refine ⟨midnight, start, hcuts.midnight, ?_, .before hday hbefore.1 hbefore.2⟩
        rw [Nat.cast_zero, add_zero]
        exact hcuts.start
      · cases hvalue
    · split_ifs at hvalue with hafter
      · rw [Bool.and_eq_true, decide_eq_true_eq] at hafter
        obtain rfl := List.mem_singleton.1 hvalue
        exact ⟨finish, next, hcuts.finish, hcuts.next, .after hday hafter.1 hafter.2⟩
      · cases hvalue
  · rw [if_pos hday] at hvalue
    split_ifs at hvalue with hclosed
    · obtain rfl := List.mem_singleton.1 hvalue
      exact ⟨midnight, next, hcuts.midnight, hcuts.next, .closed hday hclosed⟩
    · cases hvalue

theorem FenceOn.mem (hcuts : CutsOn z draft date midnight start finish next)
    (hf : FenceOn draft date midnight start finish next f) :
    ∃ value ∈ fencesOf draft (dayOfWeek date), boundaryAt z date value.start = some f.start ∧
      boundaryAt z (date + value.endDayOffset) value.finish = some f.finish := by
  unfold fencesOf
  cases hf with
  | closed hday hclosed =>
    rw [if_pos hday, if_pos hclosed]
    exact ⟨_, List.mem_singleton_self _, hcuts.midnight, hcuts.next⟩
  | before hday hbefore hne =>
    rw [if_neg (not_not.2 hday), if_pos (by rw [hbefore, decide_eq_true hne]; rfl)]
    refine ⟨_, List.mem_append_left _ (List.mem_singleton_self _), hcuts.midnight, ?_⟩
    rw [Nat.cast_zero, add_zero]
    exact hcuts.start
  | after hday hafter hne =>
    rw [if_neg (not_not.2 hday)]
    refine ⟨⟨draft.workdayEnd, "00:00:00", 1⟩, List.mem_append_right _ ?_, hcuts.finish, hcuts.next⟩
    rw [if_pos (by rw [hafter, decide_eq_true hne]; rfl)]
    exact List.mem_singleton_self _

theorem intervalsForDate_ok (hcuts : CutsOn z draft date midnight start finish next) :
    ∃ r, intervalsForDate z (boundaryProfile draft) date = .ok r := by
  rw [intervalsForDate_boundary]
  refine materializeAll_isOk_iff.2 fun value hvalue => ?_
  obtain ⟨a, b, ha, hb, -⟩ := fence_of_mem hcuts hvalue
  obtain ⟨diagnostics, h⟩ := materialize_boundary draft ha hb
  exact ⟨_, h⟩

/-- **The concrete fences of a date** are the cells that the draft protects and that are not empty. -/
theorem concreteOn_iff (hcuts : CutsOn z draft date midnight start finish next) :
    ConcreteOn z (boundaryProfile draft) date f ↔
      FenceOn draft date midnight start finish next f ∧ f.start < f.finish := by
  constructor
  · rintro ⟨r, hr, hf⟩
    rw [intervalsForDate_boundary] at hr
    obtain ⟨value, hvalue, r', hr', hf'⟩ := (mem_materializeAll_iff hr).1 hf
    obtain ⟨a, b, ha, hb, hfence⟩ := fence_of_mem hcuts hvalue
    obtain ⟨diagnostics, hvalue'⟩ := materialize_boundary draft ha hb
    rw [hvalue'] at hr'
    cases hr'
    split_ifs at hf' with hlt
    · obtain rfl := List.mem_singleton.1 hf'
      exact ⟨hfence, hlt⟩
    · cases hf'
  · rintro ⟨hfence, hlt⟩
    obtain ⟨value, hvalue, hstart, hfinish⟩ := hfence.mem hcuts
    obtain ⟨diagnostics, hvalue'⟩ := materialize_boundary draft hstart hfinish
    obtain ⟨r, hr⟩ := intervalsForDate_ok hcuts
    refine ⟨r, hr, ?_⟩
    rw [intervalsForDate_boundary] at hr
    refine (mem_materializeAll_iff hr).2 ⟨value, hvalue, _, hvalue', ?_⟩
    rw [if_pos hlt]
    exact List.mem_singleton_self _

end Concrete

/-! ## Order -/

section Order

variable {z : Zone} {draft : AvailabilityBoundaryDraft} {lo hi date date' : Day}
  {midnight start finish next : Instant} {f g : InstantInterval}

/-- The cuts are in order on the dates from the one on to before the other one. -/
def OrderedDates (z : Zone) (draft : AvailabilityBoundaryDraft) (lo hi : Day) : Prop :=
  ∀ date, lo ≤ date → date < hi → OrderedOn z draft date

theorem OrderedDates.rising (hordered : OrderedDates z draft lo hi) :
    Rising (fun date => boundaryAt z date "00:00:00") lo hi := by
  intro date hlo hhi
  obtain ⟨m, s, e, n, hcuts, hle, -⟩ := hordered date hlo hhi
  exact ⟨m, n, hcuts.midnight, hcuts.next, hle⟩

theorem next_le {d d' : Int} (h : d < d') : d + 1 ≤ d' := h

theorem le_next {d lo : Int} (h : lo ≤ d) : lo ≤ d + 1 := by omega

/-- The midnight after a date is not later than those of later dates. -/
theorem midnight_mono (hordered : OrderedDates z draft lo hi) {a b : Instant} (hlo : lo ≤ date)
    (hlt : date < date') (hhi : date' ≤ hi) (ha : boundaryAt z (date + 1) "00:00:00" = some a)
    (hb : boundaryAt z date' "00:00:00" = some b) : a ≤ b :=
  hordered.rising.mono (le_next hlo) (next_le hlt) hhi ha hb

theorem disjoint_of_le (h : f.finish ≤ g.start) : Disjoint f.instants g.instants :=
  Set.disjoint_left.2 fun _ hf hg => (hf.2.trans_le (h.trans hg.1)).false

/-- A fence lies between the midnights of its date. -/
theorem FenceOn.bounds (hfence : FenceOn draft date midnight start finish next f)
    (hwork : dayOfWeek date ∈ draft.workingDays →
      midnight ≤ start ∧ start ≤ finish ∧ finish ≤ next) :
    midnight ≤ f.start ∧ f.finish ≤ next := by
  cases hfence with
  | closed hday _ => exact ⟨le_refl _, le_refl _⟩
  | before hday _ _ =>
    obtain ⟨-, h, h'⟩ := hwork hday
    exact ⟨le_refl _, h.trans h'⟩
  | after hday _ _ =>
    obtain ⟨h, h', -⟩ := hwork hday
    exact ⟨h.trans h', le_refl _⟩

/-- Fences of one date are one or disjoint. -/
theorem FenceOn.disjoint (hf : FenceOn draft date midnight start finish next f)
    (hg : FenceOn draft date midnight start finish next g) (hne : f ≠ g)
    (hwork : dayOfWeek date ∈ draft.workingDays → start ≤ finish) :
    Disjoint f.instants g.instants := by
  cases hf with
  | closed hday _ =>
    cases hg with
    | closed _ _ => exact absurd rfl hne
    | before hday' _ _ => exact absurd hday' hday
    | after hday' _ _ => exact absurd hday' hday
  | before hday _ _ =>
    cases hg with
    | closed hday' _ => exact absurd hday hday'
    | before _ _ _ => exact absurd rfl hne
    | after _ _ _ => exact disjoint_of_le (hwork hday)
  | after hday _ _ =>
    cases hg with
    | closed hday' _ => exact absurd hday hday'
    | before _ _ _ => exact (disjoint_of_le (hwork hday)).symm
    | after _ _ _ => exact absurd rfl hne

/-- Fences of dates in order are disjoint. -/
theorem fences_disjoint_of_lt (hordered : OrderedDates z draft lo hi) (hlo : lo ≤ date)
    (hlt : date < date') (hhi : date' < hi)
    (hf : ConcreteOn z (boundaryProfile draft) date f)
    (hg : ConcreteOn z (boundaryProfile draft) date' g) : f.finish ≤ g.start := by
  obtain ⟨m, s, e, n, hcuts, -, hwork⟩ := hordered date hlo (hlt.trans hhi)
  obtain ⟨m', s', e', n', hcuts', -, hwork'⟩ := hordered date' (hlo.trans hlt.le) hhi
  have hbounds := ((concreteOn_iff hcuts).1 hf).1.bounds hwork
  have hbounds' := ((concreteOn_iff hcuts').1 hg).1.bounds hwork'
  have hmidnights : n ≤ m' := midnight_mono hordered hlo hlt hhi.le hcuts.next hcuts'.midnight
  exact hbounds.2.trans (hmidnights.trans hbounds'.1)

theorem fences_disjoint (hordered : OrderedDates z draft lo hi)
    (hdate : lo ≤ date ∧ date < hi) (hdate' : lo ≤ date' ∧ date' < hi)
    (hf : ConcreteOn z (boundaryProfile draft) date f)
    (hg : ConcreteOn z (boundaryProfile draft) date' g) (hne : f ≠ g) :
    Disjoint f.instants g.instants := by
  rcases lt_trichotomy date date' with hlt | rfl | hlt
  · exact disjoint_of_le (fences_disjoint_of_lt hordered hdate.1 hlt hdate'.2 hf hg)
  · obtain ⟨m, s, e, n, hcuts, -, hwork⟩ := hordered date hdate.1 hdate.2
    exact ((concreteOn_iff hcuts).1 hf).1.disjoint ((concreteOn_iff hcuts).1 hg).1 hne
      fun hday => (hwork hday).2.1
  · exact (disjoint_of_le (fences_disjoint_of_lt hordered hdate'.1 hlt hdate.2 hg hf)).symm

/-- A fence does not meet the working interval of a working day. -/
theorem fence_working_disjoint (hordered : OrderedDates z draft lo hi)
    (hdate : lo ≤ date ∧ date < hi) (hdate' : lo ≤ date' ∧ date' < hi)
    (hf : ConcreteOn z (boundaryProfile draft) date f)
    (hday : dayOfWeek date' ∈ draft.workingDays) : Disjoint f.instants (workingOn z draft date') := by
  obtain ⟨m, s, e, n, hcuts, -, hwork⟩ := hordered date hdate.1 hdate.2
  obtain ⟨m', s', e', n', hcuts', -, hwork'⟩ := hordered date' hdate'.1 hdate'.2
  have hfence := ((concreteOn_iff hcuts).1 hf).1
  have hbounds := hfence.bounds hwork
  obtain ⟨hms, hse, hen⟩ := hwork' hday
  refine Set.disjoint_left.2 ?_
  rintro t ⟨hft, hft'⟩ ⟨start, finish, hstart, hfinish, ht, ht'⟩
  rw [hcuts'.start] at hstart
  rw [hcuts'.finish] at hfinish
  obtain rfl := Option.some.inj hstart
  obtain rfl := Option.some.inj hfinish
  rcases lt_trichotomy date date' with hlt | rfl | hlt
  · have hmidnights : n ≤ m' := midnight_mono hordered hdate.1 hlt hdate'.2.le hcuts.next hcuts'.midnight
    exact (hft'.trans_le (hbounds.2.trans (hmidnights.trans (hms.trans ht)))).false
  · obtain ⟨hs, he⟩ : s' = s ∧ e' = e :=
      ⟨Option.some.inj (hcuts'.start.symm.trans hcuts.start),
        Option.some.inj (hcuts'.finish.symm.trans hcuts.finish)⟩
    subst hs he
    cases hfence with
    | closed hday' _ => exact hday' hday
    | before _ _ _ => exact (hft'.trans_le ht).false
    | after _ _ _ => exact (ht'.trans_le hft).false
  · have hmidnights : n' ≤ m := midnight_mono hordered hdate'.1 hlt hdate.2.le hcuts'.next hcuts.midnight
    exact (ht'.trans_le (hen.trans (hmidnights.trans (hbounds.1.trans hft)))).false

end Order

/-! ## Keys -/

theorem toList_secondText (t : Instant) :
    (secondText t).toList = (dateText (t / 1000 / 86400)).toList ++
      ('T' :: ((padded 2 ((t / 1000 % 86400).toNat / 3600)).toList ++
        ':' :: ((padded 2 ((t / 1000 % 86400).toNat / 60 % 60)).toList ++
          ':' :: ((padded 2 ((t / 1000 % 86400).toNat % 60)).toList ++ ['Z'])))) := by
  simp [secondText]

theorem length_clock {n : Nat} (h : n < 60) : (padded 2 n).toList.length = 2 :=
  length_padded (by decide) (by omega)

theorem second_of_clock {s s' : Int} (hs : 0 ≤ s) (hs' : 0 ≤ s')
    (hhour : s.toNat / 3600 = s'.toNat / 3600) (hminute : s.toNat / 60 % 60 = s'.toNat / 60 % 60)
    (hsecond : s.toNat % 60 = s'.toNat % 60) : s = s' := by
  omega

theorem clock_bounds (s : Int) : 0 ≤ s % 86400 ∧ (s % 86400).toNat / 3600 < 60 ∧
    (s % 86400).toNat / 60 % 60 < 60 ∧ (s % 86400).toNat % 60 < 60 := by
  omega

/-- Different seconds have different texts. -/
theorem secondText_inj {t t' : Instant} (h : secondText t = secondText t') :
    t / 1000 = t' / 1000 := by
  have hlists := congrArg String.toList h
  obtain ⟨hpos, hh, hm, hs⟩ := clock_bounds (t / 1000)
  obtain ⟨hpos', hh', hm', hs'⟩ := clock_bounds (t' / 1000)
  rw [toList_secondText, toList_secondText] at hlists
  obtain ⟨hdate, hclock⟩ := List.append_inj' hlists (by
    simp [length_clock hh, length_clock hm, length_clock hs, length_clock hh', length_clock hm',
      length_clock hs'])
  obtain ⟨hhour, hrest⟩ := List.append_inj (List.cons_eq_cons.1 hclock).2 (by
    rw [length_clock hh, length_clock hh'])
  obtain ⟨hminute, hrest⟩ := List.append_inj (List.cons_eq_cons.1 hrest).2 (by
    rw [length_clock hm, length_clock hm'])
  obtain ⟨hsecond, -⟩ := List.append_inj (List.cons_eq_cons.1 hrest).2 (by
    rw [length_clock hs, length_clock hs'])
  have hday := dateText_inj (String.toList_inj.1 hdate)
  have htime := second_of_clock hpos hpos' (padded_inj hhour) (padded_inj hminute)
    (padded_inj hsecond)
  rw [← Int.mul_ediv_add_emod (t / 1000) 86400, ← Int.mul_ediv_add_emod (t' / 1000) 86400, hday, htime]

/-! ## Occurrences -/

def instantsOf (i : TextInterval) : InstantInterval := ⟨i.start.instant, i.finish.instant⟩

/-- The intervals of the occurrences. -/
def PlanningResult.intervals (result : PlanningResult) : List InstantInterval :=
  result.occurrences.filterMap fun occurrence => occurrence.interval?.map instantsOf

/-- The first local date of the horizon. -/
def horizonStart (z : Zone) (now : Instant) : Day := z.localDay (now / 1000)

/-- The date after the horizon. -/
def horizonEnd (z : Zone) (draft : AvailabilityBoundaryDraft) (now : Instant) : Day :=
  horizonStart z now + draft.horizonDays

section Plan

variable {zones : String → Option Zone} {draft : AvailabilityBoundaryDraft} {now : Instant}
  {result : PlanningResult}

def textOf (i : InstantInterval) : TextInterval := ⟨instantString i.start, instantString i.finish⟩

/-- What is materialized are the concrete intervals of the visited dates, or nothing. -/
theorem materializeHours_cases (zones : String → Option Zone) (profile : HoursProfile) (startDate endDate : String) :
    (materializeHours zones profile startDate endDate).concreteIntervals = [] ∨
      ∃ first last z r, localDate? startDate = some first ∧ localDate? endDate = some last ∧
        zones profile.timezone = some z ∧ visitDates z profile (last - 1) maxDates first = .ok r ∧
        (materializeHours zones profile startDate endDate).concreteIntervals =
          (deduplicateAndSort r.1).map textOf := by
  unfold materializeHours
  split
  · rename_i first last z hfirst hlast hz
    split
    · exact Or.inl rfl
    split
    · exact Or.inl rfl
    · rename_i concrete diagnostics hvisit
      exact Or.inr ⟨first, last, z, _, hfirst, hlast, hz, hvisit, rfl⟩
  · exact Or.inl rfl

/-- The occurrences of a plan are those of the materialized intervals. -/
theorem plan_occurrences (hplan : planAvailabilityBoundary zones draft now = some result) :
    ∃ z endDate, zones draft.timezone = some z ∧
      addLocalDays (localDateAt z now) draft.horizonDays = some endDate ∧
      result.intervals = ((materializeHours zones (boundaryProfile draft) (localDateAt z now)
        endDate).concreteIntervals.map instantsOf) ∧
      result.occurrences.map (·.occurrenceKey) = ((materializeHours zones (boundaryProfile draft)
        (localDateAt z now) endDate).concreteIntervals.map fun i =>
          "boundary:" ++ secondText i.start.instant) := by
  unfold planAvailabilityBoundary at hplan
  cases hz : zones draft.timezone with
  | none => rw [hz] at hplan; cases hplan
  | some z =>
    rw [hz] at hplan
    dsimp only [bind, Option.bind] at hplan
    cases hend : addLocalDays (localDateAt z now) draft.horizonDays with
    | none => rw [hend] at hplan; cases hplan
    | some endDate =>
      rw [hend] at hplan
      cases hplan
      refine ⟨z, endDate, rfl, hend, ?_, ?_⟩
      · rw [PlanningResult.intervals, List.filterMap_map]
        exact congrFun (List.filterMap_eq_map (f := instantsOf)) _
      · rw [List.map_map]
        rfl

/-- The dates that the horizon is read back as. -/
theorem horizon_read {z : Zone} {endDate : String} {first last : Day}
    (hend : addLocalDays (localDateAt z now) draft.horizonDays = some endDate)
    (hfirst : localDate? (localDateAt z now) = some first) (hlast : localDate? endDate = some last) :
    first = horizonStart z now ∧ last = horizonEnd z draft now := by
  have hstart : first = horizonStart z now := localDate?_dateText_eq hfirst
  rw [addLocalDays, hfirst] at hend
  obtain rfl := Option.some.inj hend
  rw [hstart] at hlast
  exact ⟨hstart, localDate?_take_eq hlast⟩

/-- **The occurrences are fences of the horizon**, each one once. -/
theorem plan_fences (hplan : planAvailabilityBoundary zones draft now = some result) :
    ∃ z, zones draft.timezone = some z ∧
      result.occurrences.map (·.occurrenceKey) =
        (result.intervals.map fun f => "boundary:" ++ secondText f.start) ∧
      result.intervals.Nodup ∧
      ∀ f ∈ result.intervals, ∃ date, horizonStart z now ≤ date ∧ date < horizonEnd z draft now ∧
        ConcreteOn z (boundaryProfile draft) date f := by
  obtain ⟨z, endDate, hz, hend, hintervals, hkeys⟩ := plan_occurrences hplan
  have htexts : result.occurrences.map (·.occurrenceKey) =
      (result.intervals.map fun f => "boundary:" ++ secondText f.start) := by
    rw [hkeys, hintervals, List.map_map]
    rfl
  refine ⟨z, hz, htexts, ?_⟩
  rcases materializeHours_cases zones (boundaryProfile draft) (localDateAt z now) endDate
    with hnone | ⟨first, last, z', r, hfirst, hlast, hz', hvisit, hconcrete⟩
  · rw [hintervals, hnone]
    exact ⟨List.nodup_nil, fun f hf => by cases hf⟩
  · obtain rfl : z' = z := Option.some.inj (hz'.symm.trans hz)
    obtain ⟨rfl, rfl⟩ := horizon_read hend hfirst hlast
    have hlist : result.intervals = deduplicateAndSort r.1 := by
      rw [hintervals, hconcrete, List.map_map]
      exact List.map_id' _
    have hdistinct := distinct_spec r.1
    rw [hlist]
    refine ⟨(List.perm_insertionSort _ _).nodup_iff.2 hdistinct.1, fun f hf => ?_⟩
    rw [deduplicateAndSort, List.mem_insertionSort, hdistinct.2, mem_visitDates_iff hvisit] at hf
    obtain ⟨date, hdate, hdate', hf⟩ := hf
    exact ⟨date, hdate, Int.lt_of_le_sub_one hdate', hf⟩

theorem materializeHours_ok {profile : HoursProfile} {startDate endDate : String} {first last : Day}
    {z : Zone} {r : Materialized} (hfirst : localDate? startDate = some first)
    (hlast : localDate? endDate = some last) (hz : zones profile.timezone = some z)
    (hlt : first < last) (hvisit : visitDates z profile (last - 1) maxDates first = .ok r) :
    (materializeHours zones profile startDate endDate).concreteIntervals =
      (deduplicateAndSort r.1).map textOf := by
  unfold materializeHours
  rw [hfirst, hlast, hz]
  dsimp only
  rw [if_neg (Int.not_le.2 hlt), hvisit]
  rfl

/-- The date that days are added to is one of a year with four digits. -/
theorem plainYear_of_addLocalDays {d : Day} {days : Nat} {text : String}
    (h : addLocalDays (dateText d) days = some text) : PlainYear d := by
  by_contra hyear
  have hlen := length_dateText_signed hyear
  rcases dateText_cases d with hplain | ⟨c, rest, htext, hc⟩
  · exact hyear hplain
  · have hmonth : expandedMonth? (dateText d) = none := by
      unfold expandedMonth?
      split
      · rename_i heq
        rw [heq] at hlen
        simp only [List.length_cons, List.length_nil] at hlen
        omega
      · rfl
    rw [addLocalDays, localDate?_of_sign htext hc, hmonth] at h
    cases h

theorem day_before {first last : Int} {days : Nat} (hlast : last = first + days) (hlow : 1 ≤ days)
    (hhigh : days ≤ 60) : first < last ∧ last - 1 < first + (371 : Nat) := by
  omega

/-- Every fence of the horizon is an occurrence, unless the horizon ends after the year 9999. -/
theorem plan_complete {z : Zone} (hplan : planAvailabilityBoundary zones draft now = some result)
    (hz : zones draft.timezone = some z) (haccepted : draft.accepted = true)
    (hyear : PlainYear (horizonEnd z draft now))
    (hdates : ∀ date, horizonStart z now ≤ date → date < horizonEnd z draft now →
      ∃ r, intervalsForDate z (boundaryProfile draft) date = .ok r)
    {date : Day} {f : InstantInterval} (hlo : horizonStart z now ≤ date)
    (hhi : date < horizonEnd z draft now) (hf : ConcreteOn z (boundaryProfile draft) date f) :
    f ∈ result.intervals := by
  obtain ⟨z', endDate, hz', hend, hintervals, -⟩ := plan_occurrences hplan
  obtain rfl : z' = z := Option.some.inj (hz'.symm.trans hz)
  have hfirst : localDate? (localDateAt z' now) = some (horizonStart z' now) :=
    localDate?_dateText (plainYear_of_addLocalDays hend)
  have htext : endDate = dateText (horizonEnd z' draft now) := by
    rw [addLocalDays, hfirst] at hend
    exact (Option.some.inj hend).symm.trans (take_dateText hyear)
  have hlast : localDate? endDate = some (horizonEnd z' draft now) := by
    rw [htext]
    exact localDate?_dateText hyear
  obtain ⟨hlow, hhigh⟩ := AvailabilityBoundaryDraft.accepted.horizon haccepted
  obtain ⟨hlt, hmax⟩ := day_before rfl hlow hhigh
  have hvisits : ∃ r, visitDates z' (boundaryProfile draft) (horizonEnd z' draft now - 1) maxDates
      (horizonStart z' now) = .ok r :=
    visitDates_ok (fun d hd hd' => hdates d hd (Int.lt_of_le_sub_one hd')) hmax
  obtain ⟨r, hvisit⟩ := hvisits
  rw [hintervals, materializeHours_ok hfirst hlast hz hlt hvisit, List.map_map]
  refine List.mem_map.2 ⟨f, ?_, rfl⟩
  rw [deduplicateAndSort, List.mem_insertionSort, (distinct_spec r.1).2, mem_visitDates_iff hvisit]
  exact ⟨date, hlo, Int.le_sub_one_of_lt hhi, hf⟩

end Plan

/-! ## The tiling -/

section Tiling

variable {z : Zone} {draft : AvailabilityBoundaryDraft} {date : Day}
  {midnight start finish next : Instant}

/-- No time of a day is before midnight. -/
theorem not_before_midnight {text : String} {time : Nat} (h : localTime? text = some time) :
    ¬text < "00:00:00" := by
  have digit : ∀ c : Char, c.isDigit → ¬c < '0' := by
    intro c hc hlt
    have hrange := isDigit_toNat hc
    have hless : c.toNat < 48 := UInt32.lt_iff_toNat_lt.1 hlt
    omega
  change ¬text.toList < ['0', '0', ':', '0', '0', ':', '0', '0']
  unfold localTime? at h
  split at h
  · rename_i h₁ h₂ m₁ m₂ s₁ s₂ htext
    split at h
    · rename_i hours minutes seconds hh hm hs
      have hhour := (digits?_eq_some.1 hh).1
      have hminute := (digits?_eq_some.1 hm).1
      have hsecond := (digits?_eq_some.1 hs).1
      simp only [List.forall_mem_cons] at hhour hminute hsecond
      have hcolon : ¬(':' < ':') := by decide
      rw [htext]
      simp only [List.cons_lt_cons_iff, digit h₁ hhour.1, digit h₂ hhour.2.1, digit m₁ hminute.1,
        digit m₂ hminute.2.1, digit s₁ hsecond.1, digit s₂ hsecond.2.1, List.not_lt_nil,
        hcolon, false_or, and_false, not_false_eq_true]
    · cases h
  · cases h

/-- A workday does not end at midnight. -/
theorem workdayEnd_ne (haccepted : draft.accepted = true) : draft.workdayEnd ≠ "00:00:00" := by
  obtain ⟨⟨time, htime⟩, hlt⟩ := AvailabilityBoundaryDraft.accepted.workday haccepted
  intro h
  rw [h] at hlt
  exact not_before_midnight htime hlt

/-- With every protection on, the fences of a date and its working interval leave nothing out. -/
theorem day_covered (haccepted : draft.accepted = true)
    (hprotect : draft.protectBeforeWork = true ∧ draft.protectAfterWork = true ∧
      draft.protectClosedDays = true)
    (hcuts : CutsOn z draft date midnight start finish next) {t : Instant} (hlow : midnight ≤ t)
    (hhigh : t < next) :
    (∃ f, ConcreteOn z (boundaryProfile draft) date f ∧ t ∈ f.instants) ∨
      dayOfWeek date ∈ draft.workingDays ∧ t ∈ workingOn z draft date := by
  obtain ⟨hbefore, hafter, hclosed⟩ := hprotect
  by_cases hday : dayOfWeek date ∈ draft.workingDays
  · by_cases hstart : t < start
    · -- A workday that starts at midnight has no time before it.
      have hne : draft.workdayStart ≠ "00:00:00" := by
        intro h
        have hsame := hcuts.start
        rw [h, hcuts.midnight] at hsame
        exact (hlow.trans_lt hstart).ne (Option.some.inj hsame)
      exact Or.inl ⟨⟨midnight, start⟩, (concreteOn_iff hcuts).2
        ⟨.before hday hbefore hne, hlow.trans_lt hstart⟩, hlow, hstart⟩
    · by_cases hfinish : t < finish
      · exact Or.inr ⟨hday, start, finish, hcuts.start, hcuts.finish, not_lt.1 hstart, hfinish⟩
      · have hlate := not_lt.1 hfinish
        exact Or.inl ⟨⟨finish, next⟩, (concreteOn_iff hcuts).2
          ⟨.after hday hafter (workdayEnd_ne haccepted), hlate.trans_lt hhigh⟩, hlate, hhigh⟩
  · exact Or.inl ⟨⟨midnight, next⟩, (concreteOn_iff hcuts).2
      ⟨.closed hday hclosed, hlow.trans_lt hhigh⟩, hlow, hhigh⟩

end Tiling

/-- What the fences of a plan have to be, where the cuts of the dates from `lo` to `hi` are in order. -/
structure Tiles (z : Zone) (draft : AvailabilityBoundaryDraft) (now : Instant) (lo hi : Day)
    (result : PlanningResult) : Prop where
  keys : (result.occurrences.map (·.occurrenceKey)).Nodup
  disjoint : result.intervals.Pairwise fun f g => Disjoint f.instants g.instants
  working : ∀ f ∈ result.intervals, ∀ date, lo ≤ date → date < hi →
    dayOfWeek date ∈ draft.workingDays → Disjoint f.instants (workingOn z draft date)
  covers : draft.protectBeforeWork = true ∧ draft.protectAfterWork = true ∧
      draft.protectClosedDays = true → PlainYear (horizonEnd z draft now) →
    ∀ first last t, boundaryAt z (horizonStart z now) "00:00:00" = some first →
      boundaryAt z (horizonEnd z draft now) "00:00:00" = some last → first ≤ t → t < last →
      (∃ f ∈ result.intervals, t ∈ f.instants) ∨
        ∃ date, horizonStart z now ≤ date ∧ date < horizonEnd z draft now ∧
          dayOfWeek date ∈ draft.workingDays ∧ t ∈ workingOn z draft date

section Result

variable {zones : String → Option Zone} {draft : AvailabilityBoundaryDraft} {now : Instant}
  {result : PlanningResult} {z : Zone} {lo hi : Day}

theorem boundaryAt_millis {date : Day} {text : String} {t : Instant}
    (h : boundaryAt z date text = some t) : ∃ second : Int, t = second * 1000 := by
  obtain ⟨r, -, hr⟩ := Option.map_eq_some_iff.1 h
  exact ⟨r.instant, hr.symm⟩

/-- A fence starts at a second. -/
theorem concrete_millis {f : InstantInterval} {date : Day} (hordered : OrderedOn z draft date)
    (hf : ConcreteOn z (boundaryProfile draft) date f) : ∃ second : Int, f.start = second * 1000 := by
  obtain ⟨m, s, e, n, hcuts, -⟩ := hordered
  cases ((concreteOn_iff hcuts).1 hf).1 with
  | closed _ _ => exact boundaryAt_millis hcuts.midnight
  | before _ _ _ => exact boundaryAt_millis hcuts.midnight
  | after _ _ _ => exact boundaryAt_millis hcuts.finish

theorem second_eq {a b s s' : Int} (h : a / 1000 = b / 1000) (ha : a = s * 1000) (hb : b = s' * 1000) :
    a = b := by
  omega

/-- Disjoint fences have different keys. -/
theorem keys_nodup {fences : List InstantInterval}
    (hdisjoint : fences.Pairwise fun f g => Disjoint f.instants g.instants)
    (hmillis : ∀ f ∈ fences, ∃ second : Int, f.start = second * 1000)
    (hnonempty : ∀ f ∈ fences, f.start < f.finish) :
    (fences.map fun f => "boundary:" ++ secondText f.start).Nodup := by
  rw [List.Nodup, List.pairwise_map]
  refine hdisjoint.imp_of_mem fun {f g} hf hg hfg hkey => ?_
  obtain ⟨s, hs⟩ := hmillis f hf
  obtain ⟨s', hs'⟩ := hmillis g hg
  have hstart : f.start = g.start :=
    second_eq (secondText_inj (String.append_right_inj _ |>.1 hkey)) hs hs'
  exact Set.disjoint_left.1 hfg ⟨le_refl _, hnonempty f hf⟩
    ⟨hstart.ge, hstart.trans_lt (hnonempty g hg)⟩

/-- Where the cuts are in order, the fences of the plan are what they have to be. -/
theorem tiles_of_ordered (haccepted : draft.accepted = true)
    (hplan : planAvailabilityBoundary zones draft now = some result)
    (hz : zones draft.timezone = some z) (hordered : OrderedDates z draft lo hi)
    (hlo : lo ≤ horizonStart z now) (hhi : horizonEnd z draft now ≤ hi) :
    Tiles z draft now lo hi result := by
  obtain ⟨z', hz', hkeys, hnodup, hfences⟩ := plan_fences hplan
  obtain rfl : z' = z := Option.some.inj (hz'.symm.trans hz)
  have hdisjoint : result.intervals.Pairwise fun f g => Disjoint f.instants g.instants := by
    refine hnodup.imp_of_mem fun {f g} hf hg hne => ?_
    obtain ⟨date, hdate, hdate', hfdate⟩ := hfences f hf
    obtain ⟨date₂, hdate₂, hdate₂', hgdate⟩ := hfences g hg
    exact fences_disjoint hordered ⟨hlo.trans hdate, hdate'.trans_le hhi⟩
      ⟨hlo.trans hdate₂, hdate₂'.trans_le hhi⟩ hfdate hgdate hne
  refine ⟨?_, hdisjoint, ?_, ?_⟩
  · rw [hkeys]
    refine keys_nodup hdisjoint (fun f hf => ?_) fun f hf => ?_
    · obtain ⟨date, hdate, hdate', hfdate⟩ := hfences f hf
      exact concrete_millis (hordered date (hlo.trans hdate) (hdate'.trans_le hhi)) hfdate
    · obtain ⟨date, -, -, r, hr, hmem⟩ := hfences f hf
      exact intervalsForDate_nonempty hr f hmem
  · intro f hf date' hlow hhigh hday
    obtain ⟨date, hdate, hdate', hfdate⟩ := hfences f hf
    exact fence_working_disjoint hordered ⟨hlo.trans hdate, hdate'.trans_le hhi⟩ ⟨hlow, hhigh⟩ hfdate
      hday
  · intro hprotect hyear first last t hfirst hlast hlow hhigh
    have hhorizon : horizonStart z' now ≤ horizonEnd z' draft now :=
      Int.le_add_of_nonneg_right (Int.natCast_nonneg _)
    obtain ⟨date, m, n, hdate, hdate', hm, hn, hmt, htn⟩ :=
      hordered.rising.cell hlo hhi hfirst hlast hhorizon hlow hhigh
    obtain ⟨m', s, e, n', hcuts, -, -⟩ := hordered date (hlo.trans hdate) (hdate'.trans_le hhi)
    obtain rfl := Option.some.inj (hcuts.midnight.symm.trans hm)
    obtain rfl := Option.some.inj (hcuts.next.symm.trans hn)
    rcases day_covered haccepted hprotect hcuts hmt htn with ⟨f, hf, ht⟩ | ⟨hday, ht⟩
    · refine Or.inl ⟨f, ?_, ht⟩
      refine plan_complete hplan hz haccepted hyear (fun d hd hd' => ?_) hdate hdate' hf
      obtain ⟨_, _, _, _, hcuts', -⟩ := hordered d (hlo.trans hd) (hd'.trans_le hhi)
      exact intervalsForDate_ok hcuts'
    · exact Or.inr ⟨date, hdate, hdate', hday, ht⟩

/-- **The fences of an availability boundary tile the closed time.** Every occurrence has an interval
that is not empty; and where the cuts of the dates are in order, the fences are apart from each other and
from the working intervals, and leave nothing out if every protection is on. -/
theorem availability_fences_tile (haccepted : draft.accepted = true)
    (hplan : planAvailabilityBoundary zones draft now = some result) :
    (result.intervals.length = result.occurrences.length ∧
      ∀ f ∈ result.intervals, f.start < f.finish) ∧
      ∀ z lo hi, zones draft.timezone = some z → OrderedDates z draft lo hi →
        lo ≤ horizonStart z now → horizonEnd z draft now ≤ hi → Tiles z draft now lo hi result := by
  refine ⟨⟨?_, ?_⟩, fun z lo hi => tiles_of_ordered haccepted hplan⟩
  · obtain ⟨z, -, hkeys, -⟩ := plan_fences hplan
    have hlength := congrArg List.length hkeys
    rw [List.length_map, List.length_map] at hlength
    exact hlength.symm
  · intro f hf
    obtain ⟨z, -, -, -, hfences⟩ := plan_fences hplan
    obtain ⟨date, -, -, r, hr, hmem⟩ := hfences f hf
    exact intervalsForDate_nonempty hr f hmem

end Result

/-! ## When the cuts are in order -/

section Reached

variable {z : Zone} {draft : AvailabilityBoundaryDraft} {n n' t t' : Int}

theorem millis_le_iff {s t : Int} : s * 1000 ≤ t * 1000 ↔ s ≤ t := by omega

theorem naive_le {date : Int} {time time' : Nat} (h : time ≤ time') :
    naive date time ≤ naive date time' := by
  unfold naive
  omega

theorem naive_le_next {date : Int} {time : Nat} (h : time < 86400) :
    naive date time ≤ naive (date + 1) 0 := by
  unfold naive
  omega

/-- The clock comes to the local date-time before it shows a later one. -/
def Reached (z : Zone) (n t : Int) : Prop := z.Shows t n ∧ ∀ t' < t, t' + z.offset t' < n

theorem Reached.mono (h : Reached z n t) (h' : Reached z n' t') (hle : n ≤ n') : t ≤ t' := by
  by_contra hlt
  have hbefore := h.2 t' (not_le.1 hlt)
  have hshows : t' + z.offset t' = n' := h'.1
  omega

/-- A local time that the clock comes to resolves to the instant at which it does. -/
theorem boundaryAt_reached {date : Day} {text : String} {time : Nat}
    (htime : localTime? text = some time) (h : Reached z (naive date time) t) :
    boundaryAt z date text = some (t * 1000) := by
  have hmem : t ∈ z.possibleInstants (naive date time) := Zone.mem_possibleInstants.2 h.1
  have hfirst : ∀ u ∈ z.possibleInstants (naive date time), t ≤ u := by
    intro u hu
    by_contra hlt
    have hbefore := h.2 u (not_le.1 hlt)
    have hshows : u + z.offset u = naive date time := Zone.mem_possibleInstants.1 hu
    omega
  have hsorted : (z.possibleInstants (naive date time)).Pairwise (· ≤ ·) :=
    List.pairwise_insertionSort _ _
  have hshows : ∀ u ∈ z.possibleInstants (naive date time), z.Shows u (naive date time) :=
    fun u hu => Zone.mem_possibleInstants.1 hu
  unfold boundaryAt resolveLocal
  rw [htime]
  dsimp only
  cases hp : z.possibleInstants (naive date time) with
  | nil =>
    rw [hp] at hmem
    cases hmem
  | cons u us =>
    rw [hp] at hmem hfirst hsorted hshows
    have hle : ∀ v ∈ u :: us, u ≤ v :=
      List.forall_mem_cons.2 ⟨le_refl u, (List.pairwise_cons.1 hsorted).1⟩
    obtain rfl : u = t := le_antisymm (hle t hmem) (hfirst u (.head _))
    cases us with
    | nil =>
      simp only [zonedDateTime, hp]
      rfl
    | cons v vs =>
      obtain ⟨last, hlast⟩ : ∃ last, (u :: v :: vs).getLast? = some last :=
        ⟨_, List.getLast?_eq_some_getLast (List.cons_ne_nil _ _)⟩
      simp only [zonedDateTime, hp, hlast]
      rw [if_pos ⟨hshows u (.head _), hshows last (List.mem_of_getLast? hlast)⟩]
      rfl

/-- Where the clock comes to every midnight and to every start and end of work, the cuts are in
order. -/
theorem orderedDates_of_reached {lo hi : Int} {startTime endTime : Nat}
    (hstart : localTime? draft.workdayStart = some startTime)
    (hend : localTime? draft.workdayEnd = some endTime) (hle : startTime ≤ endTime)
    (hreached : ∀ (date : Int) (time : Nat), lo ≤ date → date ≤ hi →
      time ∈ [0, startTime, endTime] → ∃ t, Reached z (naive date time) t) :
    OrderedDates z draft lo hi := by
  intro date hlo hhi
  have hzero : localTime? "00:00:00" = some 0 := by decide +kernel
  obtain ⟨m, hm⟩ := hreached date 0 hlo (le_of_lt hhi) (.head _)
  obtain ⟨s, hs⟩ := hreached date startTime hlo (le_of_lt hhi) (.tail _ (.head _))
  obtain ⟨e, he⟩ := hreached date endTime hlo (le_of_lt hhi) (.tail _ (.tail _ (.head _)))
  obtain ⟨n, hn⟩ := hreached (date + 1) 0 (le_next hlo) (next_le hhi) (.head _)
  have hlast := localTime?_lt hend
  refine ⟨m * 1000, s * 1000, e * 1000, n * 1000, ⟨boundaryAt_reached hzero hm,
    boundaryAt_reached hstart hs, boundaryAt_reached hend he, boundaryAt_reached hzero hn⟩, ?_, ?_⟩
  · exact millis_le_iff.2 (hm.mono hn (naive_le_next (by decide)))
  · intro _
    exact ⟨millis_le_iff.2 (hm.mono hs (naive_le (Nat.zero_le _))),
      millis_le_iff.2 (hs.mono he (naive_le hle)), millis_le_iff.2 (he.mono hn (naive_le_next hlast))⟩

end Reached

section Sample

/-- Office hours with everything else protected. -/
def officeDraft : AvailabilityBoundaryDraft where
  name := "Keep evenings quiet"
  targetCalendarId := "calendar"
  timezone := "UTC"
  workingDays := [1, 2, 3, 4, 5]
  workdayStart := "09:00:00"
  workdayEnd := "17:00:00"
  protectBeforeWork := true
  protectAfterWork := true
  protectClosedDays := true
  title := "Personal time"
  visibility := .private_
  horizonDays := 21

def officeZones : String → Option Zone := fun name => if name = "UTC" then some (fixedZone 0) else none

theorem fixedZone_reached (n : Int) : Reached (fixedZone 0) n n := by
  refine ⟨Int.add_zero n, fun t ht => ?_⟩
  rw [show (fixedZone 0).offset t = 0 from rfl]
  omega

/-- In UTC the fences of office hours tile the first three weeks of 1970. -/
theorem availability_fences_tile_office :
    ∃ result, planAvailabilityBoundary officeZones officeDraft 0 = some result ∧
      (∀ f ∈ result.intervals, f.start < f.finish) ∧ Tiles (fixedZone 0) officeDraft 0 0 21 result := by
  obtain ⟨result, hresult⟩ := Option.isSome_iff_exists.1
    (show (planAvailabilityBoundary officeZones officeDraft 0).isSome = true by decide +kernel)
  have htiles := availability_fences_tile (by decide +kernel) hresult
  refine ⟨result, hresult, htiles.1.2, htiles.2 (fixedZone 0) 0 21 rfl ?_ (by decide +kernel) (by decide +kernel)⟩
  exact orderedDates_of_reached (by decide +kernel : localTime? officeDraft.workdayStart = some 32400)
    (by decide +kernel : localTime? officeDraft.workdayEnd = some 61200) (by decide)
    fun date time _ _ _ => ⟨_, fixedZone_reached _⟩

theorem spring_offset (t : Int) :
    (if t < 1772964000 then -28800 else -25200 : Int) ∈ [(-28800 : Int), -25200] := by
  split <;> simp

/-- America/Vancouver around 2026-03-08, when 02:00 to 03:00 was skipped. -/
def vancouverSpring : Zone :=
  ⟨fun t => if t < 1772964000 then -28800 else -25200, [-28800, -25200], spring_offset⟩

def springZones : String → Option Zone :=
  fun name => if name = "America/Vancouver" then some vancouverSpring else none

/-- Work starts at a time that is skipped and ends at the first one that is not. -/
def nightDraft : AvailabilityBoundaryDraft :=
  { officeDraft with
    timezone := "America/Vancouver"
    workingDays := [7]
    workdayStart := "02:30:00"
    workdayEnd := "03:00:00"
    horizonDays := 1 }

/-- The start is moved to 03:30, behind the end: the time from 03:00 on is protected twice. -/
theorem nightDraft_overlaps : nightDraft.accepted = true ∧
    ∃ result, planAvailabilityBoundary springZones nightDraft 1772971200000 = some result ∧
      ¬result.intervals.Pairwise fun f g => Disjoint f.instants g.instants := by
  refine ⟨by decide +kernel, ?_⟩
  obtain ⟨result, hresult, hintervals⟩ : ∃ result,
      planAvailabilityBoundary springZones nightDraft 1772971200000 = some result ∧
        result.intervals = [⟨1772956800000, 1772965800000⟩, ⟨1772964000000, 1773039600000⟩] :=
    Option.map_eq_some_iff.1
      (show (planAvailabilityBoundary springZones nightDraft 1772971200000).map (·.intervals) =
        some [⟨1772956800000, 1772965800000⟩, ⟨1772964000000, 1773039600000⟩] by decide +kernel)
  refine ⟨result, hresult, fun hdisjoint => ?_⟩
  rw [hintervals, List.pairwise_cons] at hdisjoint
  exact Set.disjoint_left.1 (hdisjoint.1 _ (.head _))
    (show (1772964000000 : Instant) ∈ _ from ⟨by decide, by decide⟩) ⟨by decide, by decide⟩

end Sample

end Planipus.Planning

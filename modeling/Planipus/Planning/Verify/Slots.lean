import Mathlib.Algebra.Order.Ring.Int
import Mathlib.Tactic.Linarith
import Mathlib.Tactic.Ring
import Planipus.CalendarSync.Verify.Dates
import Planipus.CalendarSync.Verify.Intervals
import Planipus.Library.Best
import Planipus.Planning.Validation

/-!
# Slots

The search of `chooseMeetingSlot` is over the slots of a grid: a start on a multiple of the step and
a duration from the maximum downwards, inside a window. It stops at the first duration that has a
slot without a conflict, and sorts what it has found there. `chooses_unconflicted` says that this is
the best slot without a conflict, as long as the windows lie in years whose texts are in order
(`meetingWindows_ordinary`).
-/

namespace Planipus.Planning

open CalendarSync Library

/-! ## Slots -/

@[ext]
structure Slot where
  start : Instant
  duration : Nat
deriving DecidableEq

def Slot.interval (s : Slot) : TextInterval :=
  ⟨toISOString s.start, toISOString (s.start + s.duration * 60000)⟩

/-- From the maximum down by the step, and the minimum. -/
def TriedDuration (draft : SmartMeetingDraft) (duration : Nat) : Prop :=
  (∃ n, duration + n * draft.startStepMinutes = draft.maximumDurationMinutes ∧
    draft.minimumDurationMinutes ≤ duration) ∨ duration = draft.minimumDurationMinutes

/-- A slot of a tried duration that starts on the grid and lies in a window. -/
structure Tried (draft : SmartMeetingDraft) (windows : List TextInterval) (s : Slot) : Prop where
  duration : TriedDuration draft s.duration
  aligned : (draft.startStepMinutes * 60000 : Int) ∣ s.start
  window : ∃ w ∈ windows, w.start.instant ≤ s.start ∧
    s.start + s.duration * 60000 ≤ w.finish.instant

/-- The intervals share an instant. -/
def meets (a b : TextInterval) : Bool :=
  max a.start.instant b.start.instant < min a.finish.instant b.finish.instant

theorem meets_iff {a b : TextInterval} : meets a b = true ↔
    ∃ t, (a.start.instant ≤ t ∧ t < a.finish.instant) ∧
      b.start.instant ≤ t ∧ t < b.finish.instant := by
  simp only [meets, decide_eq_true_eq, max_lt_iff, lt_min_iff]
  constructor
  · intro h
    refine ⟨max a.start.instant b.start.instant, ⟨le_max_left _ _, ?_⟩, le_max_right _ _, ?_⟩
    · exact max_lt h.1.1 h.1.2
    · exact max_lt h.2.1 h.2.2
  · rintro ⟨t, ⟨ha, ha'⟩, hb, hb'⟩
    exact ⟨⟨lt_of_le_of_lt ha ha', lt_of_le_of_lt hb ha'⟩, lt_of_le_of_lt ha hb',
      lt_of_le_of_lt hb hb'⟩

/-- The slot starts no earlier than `earliest` and shares no instant with another interval. -/
def free (earliest : Instant) (busy : List PlanningBusyInterval) (used : List TextInterval)
    (slot : TextInterval) : Bool :=
  decide (earliest ≤ slot.start.instant) &&
    busy.all (fun interval => !meets slot interval.toTextInterval) &&
    used.all fun interval => !meets slot interval

section Order

variable (z : Zone) (draft : SmartMeetingDraft)

/-- How far the local start is from the preferred time, in minutes. -/
def Slot.distance (s : Slot) : Nat :=
  (localMinuteOfDay z s.start - clockMinutes draft.preferredTime).natAbs

/-- Longer, or as long and closer to the preferred time, or as close and earlier. -/
def Slot.Better (s s' : Slot) : Prop :=
  s'.duration < s.duration ∨ s.duration = s'.duration ∧
    (s.distance z draft < s'.distance z draft ∨
      s.distance z draft = s'.distance z draft ∧ s.start < s'.start)

instance (s s' : Slot) : Decidable (s.Better z draft s') :=
  inferInstanceAs (Decidable (_ ∨ _ ∧ _))

variable {z draft}

theorem Slot.Better.irrefl (s : Slot) : ¬ s.Better z draft s := by
  simp [Slot.Better]

theorem Slot.Better.trans (a b c : Slot) (hab : a.Better z draft b) (hbc : b.Better z draft c) :
    a.Better z draft c := by
  unfold Slot.Better at *
  rcases hab with hab | ⟨hd, hab⟩
  · rcases hbc with hbc | ⟨hd', -⟩
    · exact Or.inl (lt_trans hbc hab)
    · exact Or.inl (hd' ▸ hab)
  · rcases hbc with hbc | ⟨hd', hbc⟩
    · exact Or.inl (hd ▸ hbc)
    · refine Or.inr ⟨hd.trans hd', ?_⟩
      rcases hab with hab | ⟨he, hab⟩
      · rcases hbc with hbc | ⟨he', -⟩
        · exact Or.inl (lt_trans hab hbc)
        · exact Or.inl (he' ▸ hab)
      · rcases hbc with hbc | ⟨he', hbc⟩
        · exact Or.inl (he ▸ hbc)
        · exact Or.inr ⟨he.trans he', lt_trans hab hbc⟩

end Order

/-! ## The grid -/

section Grid

variable {draft : SmartMeetingDraft}

theorem mem_durations_iff (hstep : 0 < draft.startStepMinutes)
    (hle : draft.minimumDurationMinutes ≤ draft.maximumDurationMinutes) {duration : Nat} :
    duration ∈ durations draft ↔ TriedDuration draft duration := by
  have hstepped : ∀ d, d ∈ (List.range ((draft.maximumDurationMinutes -
      draft.minimumDurationMinutes) / draft.startStepMinutes + 1)).map
        (fun n => draft.maximumDurationMinutes - n * draft.startStepMinutes) ↔
      ∃ n, d + n * draft.startStepMinutes = draft.maximumDurationMinutes ∧
        draft.minimumDurationMinutes ≤ d := by
    intro d
    simp only [List.mem_map, List.mem_range, Nat.lt_succ_iff, Nat.le_div_iff_mul_le hstep]
    constructor
    · rintro ⟨n, hn, rfl⟩
      exact ⟨n, by omega, by omega⟩
    · rintro ⟨n, hn, hd⟩
      exact ⟨n, by omega, by omega⟩
  unfold durations TriedDuration
  simp only [if_neg (Nat.not_lt.2 hle)]
  split
  · rename_i hmem
    rw [hstepped]
    constructor
    · exact Or.inl
    · rintro (h | rfl)
      · exact h
      · exact (hstepped _).1 hmem
  · rw [List.mem_append, hstepped, List.mem_singleton]

/-- The durations are tried from the longest to the shortest. -/
theorem durations_decreasing (hstep : 0 < draft.startStepMinutes)
    (hle : draft.minimumDurationMinutes ≤ draft.maximumDurationMinutes) :
    (durations draft).Pairwise (· > ·) := by
  have hstepped : ((List.range ((draft.maximumDurationMinutes - draft.minimumDurationMinutes) /
      draft.startStepMinutes + 1)).map
        (fun n => draft.maximumDurationMinutes - n * draft.startStepMinutes)).Pairwise (· > ·) := by
    rw [List.pairwise_map]
    refine List.pairwise_lt_range.imp_of_mem fun {m n} hm hn hmn => ?_
    rw [List.mem_range, Nat.lt_succ_iff, Nat.le_div_iff_mul_le hstep] at hn
    have hlt : m * draft.startStepMinutes < n * draft.startStepMinutes :=
      Nat.mul_lt_mul_of_pos_right hmn hstep
    omega
  unfold durations
  simp only [if_neg (Nat.not_lt.2 hle)]
  split
  · exact hstepped
  · rename_i hmem
    rw [List.pairwise_append]
    refine ⟨hstepped, List.pairwise_singleton _ _, fun d hd e he => ?_⟩
    rw [List.mem_singleton] at he
    subst he
    -- A stepped duration is at least the minimum, and is not the minimum.
    have hge : draft.minimumDurationMinutes ≤ d := by
      obtain ⟨n, hn, rfl⟩ := List.mem_map.1 hd
      rw [List.mem_range, Nat.lt_succ_iff, Nat.le_div_iff_mul_le hstep] at hn
      omega
    have hne : d ≠ draft.minimumDurationMinutes := by
      rintro rfl
      exact hmem hd
    omega

/-- The first multiple of the step from `m` on. -/
theorem alignToStep_spec {step : Nat} (hstep : 0 < step) (m c : Int)
    (hc : (step * 60000 : Int) ∣ c) : alignToStep m step ≤ c ↔ m ≤ c := by
  unfold alignToStep
  dsimp only
  obtain ⟨k, rfl⟩ := hc
  have hpos : (0 : Int) < step * 60000 := by omega
  have hk : -((-m) / (step * 60000 : Int)) ≤ k ↔ m ≤ (step * 60000 : Int) * k := by
    rw [neg_le, Int.le_ediv_iff_mul_le hpos]
    constructor
    · intro h
      linarith
    · intro h
      linarith
  rw [← hk, mul_comm (step * 60000 : Int) k]
  exact mul_le_mul_iff_left₀ hpos

theorem dvd_alignToStep (m : Int) (step : Nat) : (step * 60000 : Int) ∣ alignToStep m step :=
  Dvd.intro_left _ rfl

theorem mem_cursors_iff (hstep : 0 < draft.startStepMinutes) {window : TextInterval}
    {duration : Nat} {cursor : Int} :
    cursor ∈ cursors draft window duration ↔
      (draft.startStepMinutes * 60000 : Int) ∣ cursor ∧ window.start.instant ≤ cursor ∧
        cursor + duration * 60000 ≤ window.finish.instant := by
  have hpos : (0 : Int) < draft.startStepMinutes * 60000 := by omega
  have hmem : cursor ∈ cursors draft window duration ↔ ∃ n : Nat,
      n < ((window.finish.instant - duration * 60000 -
        alignToStep window.start.instant draft.startStepMinutes) /
          (draft.startStepMinutes * 60000 : Int) + 1).toNat ∧
      alignToStep window.start.instant draft.startStepMinutes +
        n * (draft.startStepMinutes * 60000 : Int) = cursor := by
    simp [cursors]
  rw [hmem]
  constructor
  · rintro ⟨n, hn, rfl⟩
    have hdvd : (draft.startStepMinutes * 60000 : Int) ∣
        alignToStep window.start.instant draft.startStepMinutes +
          n * (draft.startStepMinutes * 60000 : Int) :=
      Int.dvd_add (dvd_alignToStep _ _) (Dvd.intro_left _ rfl)
    refine ⟨hdvd, ?_, ?_⟩
    · rw [← alignToStep_spec hstep _ _ hdvd]
      have : (0 : Int) ≤ n * (draft.startStepMinutes * 60000 : Int) :=
        mul_nonneg (Int.natCast_nonneg n) hpos.le
      linarith
    · rw [Int.lt_toNat, Int.lt_add_one_iff, Int.le_ediv_iff_mul_le hpos] at hn
      linarith
  · rintro ⟨hdvd, hstart, hfinish⟩
    rw [← alignToStep_spec hstep _ _ hdvd] at hstart
    obtain ⟨k, hk⟩ := Int.dvd_sub hdvd (dvd_alignToStep window.start.instant draft.startStepMinutes)
    have hk0 : 0 ≤ k := by
      by_contra hneg
      have : (draft.startStepMinutes * 60000 : Int) * k < 0 :=
        mul_neg_of_pos_of_neg hpos (not_le.1 hneg)
      linarith
    refine ⟨k.toNat, ?_, ?_⟩
    · rw [Int.lt_toNat, Int.lt_add_one_iff, Int.le_ediv_iff_mul_le hpos, Int.toNat_of_nonneg hk0]
      linarith
    · rw [Int.toNat_of_nonneg hk0]
      linarith

/-- The slots that the loops visit are the tried ones. -/
theorem tried_iff (hstep : 0 < draft.startStepMinutes)
    (hle : draft.minimumDurationMinutes ≤ draft.maximumDurationMinutes)
    {windows : List TextInterval} {s : Slot} :
    Tried draft windows s ↔ s.duration ∈ durations draft ∧
      s.start ∈ windows.flatMap (cursors draft · s.duration) := by
  rw [mem_durations_iff hstep hle]
  simp only [List.mem_flatMap, mem_cursors_iff hstep]
  constructor
  · rintro ⟨hduration, haligned, w, hw, hin⟩
    exact ⟨hduration, w, hw, haligned, hin⟩
  · rintro ⟨hduration, w, hw, haligned, hin⟩
    exact ⟨hduration, haligned, w, hw, hin⟩

/-- The slots of some durations in the order in which they are tried. -/
def slots (draft : SmartMeetingDraft) (windows : List TextInterval) (durations : List Nat) :
    List Slot :=
  durations.flatMap fun duration =>
    (windows.flatMap (cursors draft · duration)).map fun cursor => ⟨cursor, duration⟩

theorem mem_slots_iff (hdraft : draft.accepted = true) {windows : List TextInterval} {s : Slot} :
    s ∈ slots draft windows (durations draft) ↔ Tried draft windows s := by
  rw [tried_iff (SmartMeetingDraft.accepted.step hdraft)
    (SmartMeetingDraft.accepted.durations hdraft).2.1]
  simp only [slots, List.mem_flatMap, List.mem_map]
  constructor
  · rintro ⟨duration, hduration, cursor, hcursor, rfl⟩
    exact ⟨hduration, hcursor⟩
  · rintro ⟨hduration, hstart⟩
    exact ⟨s.duration, hduration, s.start, hstart, rfl⟩

end Grid

/-! ## The order of the texts -/

namespace InstantText

variable {a b : InstantText}

theorem sign_minus (h : a.instant < yearZero) : a.sign = 1 := by
  have hlt : a.instant < yearTenThousand := lt_trans h (by decide)
  rw [sign, if_neg (not_le.2 hlt), if_pos h]

theorem sign_digit (h : yearZero ≤ a.instant) (h' : a.instant < yearTenThousand) : a.sign = 2 := by
  rw [sign, if_neg (not_le.2 h'), if_neg (not_lt.2 h)]

theorem before_of_sign_lt (h : a.sign < b.sign) : a.before b = true := by
  simp [before, h]

theorem not_before_of_sign_gt (h : b.sign < a.sign) : a.before b = false := by
  simp [before, Nat.not_lt.2 h.le, Nat.ne_of_gt h]

/-- Texts with the same first character, and the same year after a `-`. -/
def Alike (a b : InstantText) : Prop := a.sign = b.sign ∧ (a.sign = 1 → a.year = b.year)

theorem second_lt_iff (m n : Int) : (m / 1000 < n / 1000 ∨ m / 1000 = n / 1000 ∧ m < n) ↔ m < n := by
  omega

theorem second_le_iff (m n : Int) : (m / 1000 < n / 1000 ∨ m / 1000 = n / 1000) ↔ m / 1000 ≤ n / 1000 := by
  omega

theorem before_alike (h : Alike a b) : a.before b = true ↔
    a.instant / 1000 < b.instant / 1000 ∨ a.instant / 1000 = b.instant / 1000 ∧
      a.milliseconds = true ∧ (b.milliseconds = true → a.instant < b.instant) := by
  have hyear : ¬ (a.sign = 1 ∧ a.year ≠ b.year) := fun h' => h'.2 (h.2 h'.1)
  obtain ⟨m, p⟩ := a
  obtain ⟨n, q⟩ := b
  unfold before
  rw [if_neg hyear]
  cases p <;> cases q <;> simp [h.1]

/-- A text with milliseconds before another one. -/
theorem before_alike_milliseconds (h : Alike a b) (ha : a.milliseconds = true) :
    a.before b = true ↔
      if b.milliseconds then a.instant < b.instant else a.instant / 1000 ≤ b.instant / 1000 := by
  rw [before_alike h]
  cases hb : b.milliseconds with
  | true => simpa [ha] using second_lt_iff a.instant b.instant
  | false => simpa [ha] using second_le_iff a.instant b.instant

theorem alike_digit (ha : yearZero ≤ a.instant) (ha' : a.instant < yearTenThousand)
    (hb : yearZero ≤ b.instant) (hb' : b.instant < yearTenThousand) : Alike a b := by
  rw [Alike, sign_digit ha ha', sign_digit hb hb']
  exact ⟨rfl, fun h => by cases h⟩

end InstantText

/-- From the last day before the year 0 to the end of the year 9999. -/
def Ordinary (t : Instant) : Prop := yearZero - 86400000 ≤ t ∧ t < yearTenThousand

theorem lastDay_div (t : Int) (h : -62167219200000 - 86400000 ≤ t) (h' : t < -62167219200000) :
    t / 86400000 = -719529 := by
  omega

/-- Before the year 0 there is one day left. -/
theorem year_of_minus {a : InstantText} (h : Ordinary a.instant) (h' : a.instant < yearZero) :
    a.year = (civilOfDay (-719529)).1 := by
  rw [InstantText.year, lastDay_div a.instant h.1 h']

/-- There the texts with milliseconds are ordered as the instants are. -/
theorem before_toISOString {a b : Instant} (ha : Ordinary a) (hb : Ordinary b) :
    (toISOString a).before (toISOString b) = true ↔ a < b := by
  have halike : InstantText.Alike (toISOString a) (toISOString b) →
      ((toISOString a).before (toISOString b) = true ↔ a < b) :=
    fun h => InstantText.before_alike_milliseconds h rfl
  by_cases ha' : a < yearZero
  · have hsign : (toISOString a).sign = 1 := InstantText.sign_minus ha'
    by_cases hb' : b < yearZero
    · refine halike ⟨?_, fun _ => ?_⟩
      · rw [hsign]
        exact (InstantText.sign_minus hb').symm
      · rw [year_of_minus (a := toISOString a) ha ha', year_of_minus (a := toISOString b) hb hb']
    · have hsign' : (toISOString b).sign = 2 := InstantText.sign_digit (not_lt.1 hb') hb.2
      have hlt : a < b := lt_of_lt_of_le ha' (not_lt.1 hb')
      simp only [hlt, iff_true]
      exact InstantText.before_of_sign_lt (by rw [hsign, hsign']; decide)
  · have hsign : (toISOString a).sign = 2 := InstantText.sign_digit (not_lt.1 ha') ha.2
    by_cases hb' : b < yearZero
    · have hsign' : (toISOString b).sign = 1 := InstantText.sign_minus hb'
      have hnlt : ¬ a < b := not_lt.2 (lt_of_lt_of_le hb' (not_lt.1 ha')).le
      simp only [hnlt, iff_false, Bool.not_eq_true]
      exact InstantText.not_before_of_sign_gt (by rw [hsign, hsign']; decide)
    · exact halike (InstantText.alike_digit (not_lt.1 ha') ha.2 (not_lt.1 hb') hb.2)

/-! ## The search -/

section Search

variable (z : Zone) (draft : SmartMeetingDraft) (conflict : TextInterval → Bool) (duration : Nat)

/-- The slot of a candidate. -/
def Candidate.slot (c : Candidate) : Slot :=
  ⟨c.interval.start.instant,
    ((c.interval.finish.instant - c.interval.start.instant) / 60000).toNat⟩

theorem Candidate.slot_of_interval {c : Candidate} {s : Slot} (h : c.interval = s.interval) :
    c.slot = s := by
  obtain ⟨start, duration⟩ := s
  simp only [Candidate.slot, h, Slot.interval, toISOString, Slot.mk.injEq, true_and]
  omega

/-- The candidate was made from the slot. -/
structure MadeFrom (z : Zone) (draft : SmartMeetingDraft) (c : Candidate) (s : Slot) : Prop where
  interval : c.interval = s.interval
  score : c.score =
    s.distance z draft + ((draft.maximumDurationMinutes : Int) - s.duration) * 5

/-- The candidates are made from the slots without a conflict. -/
theorem mem_foldl_tryCursor (cursors : List Int) (acc : Nat × List Candidate) (c : Candidate)
    (h : c ∈ (cursors.foldl (tryCursor z draft conflict duration) acc).2) :
    c ∈ acc.2 ∨ ∃ cursor ∈ cursors, conflict (Slot.interval ⟨cursor, duration⟩) = false ∧
      MadeFrom z draft c ⟨cursor, duration⟩ := by
  induction cursors generalizing acc with
  | nil => exact Or.inl h
  | cons cursor cursors ih =>
    rw [List.foldl_cons] at h
    rcases ih _ h with hacc | ⟨other, hother, hfree, hmade⟩
    · unfold tryCursor at hacc
      dsimp only at hacc
      split at hacc
      · exact Or.inl hacc
      · rename_i hfree
        rcases List.mem_append.1 hacc with hacc | hnew
        · exact Or.inl hacc
        · rw [List.mem_singleton] at hnew
          subst hnew
          exact Or.inr ⟨cursor, .head _, eq_false_of_ne_true hfree, rfl, rfl⟩
    · exact Or.inr ⟨other, .tail _ hother, hfree, hmade⟩

/-- Every slot without a conflict becomes a candidate. -/
theorem foldl_tryCursor_mem (cursors : List Int) (acc : Nat × List Candidate) :
    (∀ c ∈ acc.2, c ∈ (cursors.foldl (tryCursor z draft conflict duration) acc).2) ∧
      ∀ cursor ∈ cursors, conflict (Slot.interval ⟨cursor, duration⟩) = false →
        ∃ c ∈ (cursors.foldl (tryCursor z draft conflict duration) acc).2,
          MadeFrom z draft c ⟨cursor, duration⟩ := by
  induction cursors generalizing acc with
  | nil => exact ⟨fun _ h => h, fun _ h => by cases h⟩
  | cons first cursors ih =>
    rw [List.foldl_cons]
    obtain ⟨hkept, hmade⟩ := ih (tryCursor z draft conflict duration acc first)
    have hgrows : ∀ c ∈ acc.2, c ∈ (tryCursor z draft conflict duration acc first).2 := by
      intro c hc
      unfold tryCursor
      dsimp only
      split
      · exact hc
      · exact List.mem_append_left _ hc
    refine ⟨fun c hc => hkept c (hgrows c hc), fun cursor hcursor hfree => ?_⟩
    rcases List.mem_cons.1 hcursor with rfl | hcursor
    · have hnew : ∃ c ∈ (tryCursor z draft conflict duration acc cursor).2,
          MadeFrom z draft c ⟨cursor, duration⟩ := by
        have hfree' : conflict ⟨toISOString cursor, toISOString (cursor + duration * 60000)⟩ =
            false := hfree
        unfold tryCursor
        simp only [hfree', Bool.false_eq_true, if_false]
        exact ⟨_, List.mem_append_right _ (.head _), rfl, rfl⟩
      obtain ⟨c, hc, hfrom⟩ := hnew
      exact ⟨c, hkept c hc, hfrom⟩
    · exact hmade cursor hcursor hfree

/-- What the loop over the durations ends with: the candidates of the first duration that has
any. -/
inductive Scanned (z : Zone) (draft : SmartMeetingDraft) (windows : List TextInterval)
    (conflict : TextInterval → Bool) (durations : List Nat) : List Candidate → Prop
  | nothing (h : ∀ duration ∈ durations, ∀ cursor ∈ windows.flatMap (cursors draft · duration),
      conflict (Slot.interval ⟨cursor, duration⟩) = true) :
    Scanned z draft windows conflict durations []
  | first (longer : List Nat) (duration : Nat) (shorter : List Nat)
      (hsplit : durations = longer ++ duration :: shorter)
      (hlonger : ∀ longer' ∈ longer, ∀ cursor ∈ windows.flatMap (cursors draft · longer'),
        conflict (Slot.interval ⟨cursor, longer'⟩) = true)
      (candidates : List Candidate) (hne : candidates ≠ [])
      (hmade : ∀ c ∈ candidates, ∃ cursor ∈ windows.flatMap (cursors draft · duration),
        conflict (Slot.interval ⟨cursor, duration⟩) = false ∧
          MadeFrom z draft c ⟨cursor, duration⟩)
      (hall : ∀ cursor ∈ windows.flatMap (cursors draft · duration),
        conflict (Slot.interval ⟨cursor, duration⟩) = false →
          ∃ c ∈ candidates, MadeFrom z draft c ⟨cursor, duration⟩) :
    Scanned z draft windows conflict durations candidates

theorem scanDurations_scanned (windows : List TextInterval) (durations : List Nat)
    (rejected : Nat) :
    Scanned z draft windows conflict durations
      (scanDurations z draft windows conflict durations rejected) := by
  induction durations generalizing rejected with
  | nil => exact .nothing fun _ h => by cases h
  | cons duration durations ih =>
    unfold scanDurations
    dsimp only
    have hmem := mem_foldl_tryCursor z draft conflict duration
      (windows.flatMap (cursors draft · duration)) (rejected, [])
    obtain ⟨-, hall⟩ := foldl_tryCursor_mem z draft conflict duration
      (windows.flatMap (cursors draft · duration)) (rejected, [])
    generalize (windows.flatMap (cursors draft · duration)).foldl
      (tryCursor z draft conflict duration) (rejected, []) = result at hmem hall ⊢
    obtain ⟨count, candidates⟩ := result
    cases candidates with
    | nil =>
      have hconflict : ∀ cursor ∈ windows.flatMap (cursors draft · duration),
          conflict (Slot.interval ⟨cursor, duration⟩) = true := by
        intro cursor hcursor
        by_contra hfree
        obtain ⟨c, hc, -⟩ := hall cursor hcursor (by simpa using hfree)
        cases hc
      simp only [List.isEmpty_nil, if_true]
      have hrest := ih count
      generalize scanDurations z draft windows conflict durations count = rest at hrest ⊢
      cases hrest with
      | nothing h =>
        refine .nothing fun d hd => ?_
        rcases List.mem_cons.1 hd with rfl | hd
        · exact hconflict
        · exact h d hd
      | first longer d shorter hsplit hlonger candidates hne hmade hall =>
        refine .first (duration :: longer) d shorter (by rw [hsplit]; rfl) ?_ _ hne hmade hall
        intro d' hd'
        rcases List.mem_cons.1 hd' with rfl | hd'
        · exact hconflict
        · exact hlonger d' hd'
    | cons c candidates =>
      simp only [List.isEmpty_cons, Bool.false_eq_true, if_false]
      refine .first [] duration durations rfl (fun _ h => by cases h) _ (by simp) ?_ hall
      intro c' hc'
      exact (hmem c' hc').resolve_left List.not_mem_nil

end Search

/-! ## The choice -/

section Choice

variable {z : Zone} {draft : SmartMeetingDraft} {windows : List TextInterval}

/-- The windows lie between the last day before the year 0 and the end of the year 9999. -/
def OrdinaryWindows (windows : List TextInterval) : Prop :=
  ∀ w ∈ windows, yearZero - 86400000 ≤ w.start.instant ∧ w.finish.instant < yearTenThousand

theorem Tried.ordinary {s : Slot} (h : Tried draft windows s) (hwindows : OrdinaryWindows windows) :
    Ordinary s.start ∧ Ordinary (s.start + s.duration * 60000) := by
  obtain ⟨w, hw, hstart, hfinish⟩ := h.window
  obtain ⟨hlow, hhigh⟩ := hwindows w hw
  have hlength : s.start ≤ s.start + s.duration * 60000 :=
    Int.le_add_of_nonneg_right (Int.mul_nonneg (Int.natCast_nonneg _) (by decide))
  have hlow' : yearZero - 86400000 ≤ s.start := le_trans hlow hstart
  have hhigh' : s.start + s.duration * 60000 < yearTenThousand := lt_of_le_of_lt hfinish hhigh
  exact ⟨⟨hlow', lt_of_le_of_lt hlength hhigh'⟩, le_trans hlow' hlength, hhigh'⟩

/-- Candidates of one duration are sorted by their distance and their start. -/
theorem before_iff_of_madeFrom {a b : Candidate} {s s' : Slot} (ha : MadeFrom z draft a s)
    (hb : MadeFrom z draft b s') (hduration : s.duration = s'.duration)
    (hs : Tried draft windows s) (hs' : Tried draft windows s')
    (hwindows : OrdinaryWindows windows) :
    a.before b = true ↔ s.distance z draft < s'.distance z draft ∨
      s.distance z draft = s'.distance z draft ∧ s.start ≤ s'.start := by
  obtain ⟨hord, hordend⟩ := hs.ordinary hwindows
  obtain ⟨hord', hordend'⟩ := hs'.ordinary hwindows
  have hstart : a.interval.start.before b.interval.start = true ↔ s.start < s'.start := by
    rw [ha.interval, hb.interval]
    exact before_toISOString hord hord'
  have hsame : a.interval.start = b.interval.start ↔ s.start = s'.start := by
    rw [ha.interval, hb.interval]
    simp [Slot.interval, toISOString]
  have hfinish : s.start = s'.start → b.interval.finish.before a.interval.finish = false := by
    intro heq
    rw [ha.interval, hb.interval, ← Bool.not_eq_true]
    simp only [Slot.interval]
    rw [before_toISOString hordend' hordend, heq, hduration]
    exact lt_irrefl _
  have hscore : a.score < b.score ↔ s.distance z draft < s'.distance z draft := by
    rw [ha.score, hb.score, hduration, add_lt_add_iff_right, Int.ofNat_lt]
  have hscore' : a.score = b.score ↔ s.distance z draft = s'.distance z draft := by
    rw [ha.score, hb.score, hduration, add_left_inj, Int.ofNat_inj]
  simp only [Candidate.before, Bool.or_eq_true, Bool.and_eq_true, decide_eq_true_eq, hscore, hscore',
    hstart, hsame, le_iff_lt_or_eq]
  constructor
  · rintro (h | ⟨h, h' | ⟨h', -⟩⟩)
    · exact Or.inl h
    · exact Or.inr ⟨h, Or.inl h'⟩
    · exact Or.inr ⟨h, Or.inr h'⟩
  · rintro (h | ⟨h, h' | h'⟩)
    · exact Or.inl h
    · exact Or.inr ⟨h, Or.inl h'⟩
    · exact Or.inr ⟨h, Or.inr ⟨h', by rw [hfinish h']; rfl⟩⟩

/-- The first candidate of one duration is the closest, and of those the earliest. -/
theorem head?_candidates {candidates : List Candidate} {duration : Nat} {c : Candidate}
    (hwindows : OrdinaryWindows windows)
    (hmade : ∀ a ∈ candidates, a.slot.duration = duration ∧ Tried draft windows a.slot ∧
      MadeFrom z draft a a.slot)
    (hc : (candidates.insertionSort fun a b => a.before b).head? = some c) :
    c ∈ candidates ∧ ∀ b ∈ candidates, c.slot.distance z draft < b.slot.distance z draft ∨
      c.slot.distance z draft = b.slot.distance z draft ∧ c.slot.start ≤ b.slot.start := by
  have hrel : ∀ a ∈ candidates, ∀ b ∈ candidates, (a.before b = true ↔
      a.slot.distance z draft < b.slot.distance z draft ∨
        a.slot.distance z draft = b.slot.distance z draft ∧ a.slot.start ≤ b.slot.start) := by
    intro a ha b hb
    obtain ⟨hd, hs, hfrom⟩ := hmade a ha
    obtain ⟨hd', hs', hfrom'⟩ := hmade b hb
    exact before_iff_of_madeFrom hfrom hfrom' (hd.trans hd'.symm) hs hs' hwindows
  have htotal : ∀ a ∈ candidates, ∀ b ∈ candidates, a.before b = true ∨ b.before a = true := by
    intro a ha b hb
    rw [hrel a ha b hb, hrel b hb a ha]
    rcases lt_trichotomy (a.slot.distance z draft) (b.slot.distance z draft) with h | h | h
    · exact Or.inl (Or.inl h)
    · rcases le_total a.slot.start b.slot.start with h' | h'
      · exact Or.inl (Or.inr ⟨h, h'⟩)
      · exact Or.inr (Or.inr ⟨h.symm, h'⟩)
    · exact Or.inr (Or.inl h)
  have htrans : ∀ a ∈ candidates, ∀ b ∈ candidates, ∀ d ∈ candidates,
      a.before b = true → b.before d = true → a.before d = true := by
    intro a ha b hb d hd hab hbd
    rw [hrel a ha b hb] at hab
    rw [hrel b hb d hd] at hbd
    rw [hrel a ha d hd]
    rcases hab with hab | ⟨hab, hab'⟩
    · rcases hbd with hbd | ⟨hbd, -⟩
      · exact Or.inl (hab.trans hbd)
      · exact Or.inl (hbd ▸ hab)
    · rcases hbd with hbd | ⟨hbd, hbd'⟩
      · exact Or.inl (hab ▸ hbd)
      · exact Or.inr ⟨hab.trans hbd, hab'.trans hbd'⟩
  obtain ⟨hmem, hleast⟩ := head?_insertionSort candidates htotal htrans hc
  exact ⟨hmem, fun b hb => (hrel c hmem b hb).1 (hleast b hb)⟩

theorem head?_insertionSort_of_ne_nil {candidates : List Candidate} (hne : candidates ≠ []) :
    ∃ c, (candidates.insertionSort fun a b => a.before b).head? = some c := by
  cases hsorted : candidates.insertionSort fun a b => a.before b with
  | nil =>
    have hlength := List.length_insertionSort (fun a b : Candidate => a.before b) candidates
    rw [hsorted] at hlength
    exact absurd (List.length_eq_zero_iff.1 hlength.symm) hne
  | cons c sorted => exact ⟨c, rfl⟩

variable {busy : List PlanningBusyInterval} {used : List TextInterval} {now : Instant}

/-- The first instant at which a meeting may start. -/
def earliestStart (draft : SmartMeetingDraft) (now : Instant) : Instant :=
  now + draft.lockBeforeMinutes * 60000

/-- The code finds no conflict for the slot. -/
def Unconflicted (draft : SmartMeetingDraft) (busy : List PlanningBusyInterval)
    (used : List TextInterval) (now : Instant) (s : Slot) : Prop :=
  conflicts (toISOString (earliestStart draft now)) busy used s.interval = false

/-- **The search**: the best slot without a conflict is chosen. -/
theorem chooses_unconflicted (hdraft : draft.accepted = true)
    (hwindows : OrdinaryWindows windows) :
    Chooses (Slot.Better z draft)
        (fun s => Tried draft windows s ∧ Unconflicted draft busy used now s)
        ((chooseMeetingSlot z draft windows busy used now).map Candidate.slot) ∧
      ∀ c ∈ chooseMeetingSlot z draft windows busy used now, c.interval = c.slot.interval := by
  have hstep := SmartMeetingDraft.accepted.step hdraft
  obtain ⟨-, hle, -⟩ := SmartMeetingDraft.accepted.durations hdraft
  have hscanned := scanDurations_scanned z draft
    (conflicts (toISOString (earliestStart draft now)) busy used) windows (durations draft) 0
  unfold chooseMeetingSlot
  dsimp only
  change Chooses _ _ (((scanDurations z draft windows
    (conflicts (toISOString (earliestStart draft now)) busy used) (durations draft) 0).insertionSort
      (fun a b => a.before b)).head?.map Candidate.slot) ∧
    ∀ c ∈ ((scanDurations z draft windows
      (conflicts (toISOString (earliestStart draft now)) busy used) (durations draft) 0).insertionSort
        (fun a b => a.before b)).head?, c.interval = c.slot.interval
  generalize scanDurations z draft windows
    (conflicts (toISOString (earliestStart draft now)) busy used) (durations draft) 0 =
      candidates at hscanned ⊢
  cases hscanned with
  | nothing h =>
    refine ⟨fun s hs => ?_, fun c hc => by cases hc⟩
    obtain ⟨hduration, hstart⟩ := (tried_iff hstep hle).1 hs.1
    have hconflict := h s.duration hduration s.start hstart
    exact Bool.noConfusion (hconflict.symm.trans hs.2)
  | first longer duration shorter hsplit hlonger candidates hne hmade hall =>
    have hduration : duration ∈ durations draft := by
      rw [hsplit]
      exact List.mem_append_right _ (.head _)
    have htried : ∀ cursor ∈ windows.flatMap (cursors draft · duration),
        Tried draft windows ⟨cursor, duration⟩ :=
      fun cursor hcursor => (tried_iff hstep hle).2 ⟨hduration, hcursor⟩
    have hslot : ∀ c ∈ candidates, (c.slot.duration = duration ∧ Tried draft windows c.slot ∧
        MadeFrom z draft c c.slot) ∧ Unconflicted draft busy used now c.slot := by
      intro c hc
      obtain ⟨cursor, hcursor, hfree, hfrom⟩ := hmade c hc
      rw [Candidate.slot_of_interval hfrom.interval]
      exact ⟨⟨rfl, htried cursor hcursor, hfrom⟩, hfree⟩
    obtain ⟨c, hc⟩ := head?_insertionSort_of_ne_nil hne
    obtain ⟨hmem, hleast⟩ := head?_candidates hwindows (fun a ha => (hslot a ha).1) hc
    obtain ⟨⟨hcd, hctried, hcfrom⟩, hcfree⟩ := hslot c hmem
    rw [hc]
    refine ⟨⟨⟨hctried, hcfree⟩, ?_⟩, ?_⟩
    · rintro s ⟨hs, hfree⟩
      obtain ⟨hsd, hstart⟩ := (tried_iff hstep hle).1 hs
      have hdecreasing := durations_decreasing hstep hle
      rw [hsplit] at hsd hdecreasing
      rcases List.mem_append.1 hsd with hlong | hrest
      · have hconflict := hlonger s.duration hlong s.start hstart
        exact Bool.noConfusion (hconflict.symm.trans hfree)
      rcases List.mem_cons.1 hrest with heq | hshort
      · obtain ⟨c', hc', hfrom'⟩ := hall s.start (by rw [← heq]; exact hstart)
          (by rw [← heq]; exact hfree)
        have hslot' : c'.slot = s := by
          rw [Candidate.slot_of_interval hfrom'.interval, ← heq]
        have hle' := hleast c' hc'
        rw [hslot'] at hle'
        rcases hle' with hlt | ⟨hdist, hle'⟩
        · exact Or.inr (Or.inr ⟨hcd.trans heq.symm, Or.inl hlt⟩)
        · rcases hle'.lt_or_eq with hlt | hsame
          · exact Or.inr (Or.inr ⟨hcd.trans heq.symm, Or.inr ⟨hdist, hlt⟩⟩)
          · exact Or.inl (Slot.ext hsame.symm (heq.trans hcd.symm))
      · have hlt : s.duration < duration :=
          List.rel_of_pairwise_cons (List.pairwise_append.1 hdecreasing).2.1 hshort
        exact Or.inr (Or.inl (by rw [hcd]; exact hlt))
    · intro a ha
      cases ha
      exact hcfrom.interval

end Choice

/-! ## The windows -/

section Windows

variable {z : Zone} {zones : String → Option Zone} {draft : SmartMeetingDraft}

/-- A local time is less than a day from the instant it stands for, since no offset from UTC reaches
a day. -/
def NearUTC (z : Zone) : Prop :=
  ∀ n disambiguation t, zonedDateTime z n disambiguation = some t → n - 86400 < t ∧ t < n + 86400

theorem dayOfCivil_bounds {year month day : Nat} (hyear : year ≤ 9999) (hmonth : 1 ≤ month)
    (hmonth' : month ≤ 12) (hday : 1 ≤ day) (hday' : day ≤ 31) :
    ∃ d : Int, d = dayOfCivil year month day ∧ -719528 ≤ d ∧ d ≤ 2932896 := by
  refine ⟨_, rfl, ?_⟩
  unfold dayOfCivil
  dsimp only
  -- The first and the last year are the ones with dates at the bounds.
  split
  · rcases Nat.eq_zero_or_pos year with rfl | hpos
    · omega
    · by_cases hlast : year = 9999
      · subst hlast
        omega
      · omega
  · by_cases hlast : year = 9999
    · subst hlast
      omega
    · omega

/-- Dates of four-digit years lie between 0000-01-01 and 9999-12-31. -/
theorem localDate?_bounds {text : String} {date : Day} (h : localDate? text = some date) :
    ∃ d : Int, d = date ∧ -719528 ≤ d ∧ d ≤ 2932896 := by
  unfold localDate? at h
  split at h
  · split at h
    · rename_i year month day hyear hmonth hday
      split at h
      · rename_i hrange
        cases h
        have hlt := ofDigitChars_lt (digits?_eq_some.1 hyear).1 0
        rw [(digits?_eq_some.1 hyear).2] at hlt
        simp only [List.length_cons, List.length_nil] at hlt
        exact dayOfCivil_bounds (by omega) hrange.1 hrange.2.1 hrange.2.2.1
          (hrange.2.2.2.trans (daysInMonth_le year month))
      · cases h
    · cases h
  · cases h

/-- A resolved time is less than a day from its place in the local date. -/
theorem resolveLocal_near (hz : NearUTC z) {profile : HoursProfile} {date : Day} {text : String}
    {r : ResolvedInstant} (h : resolveLocal z profile date text = .ok r) :
    ∃ n : Int, (n - 86400 < r.instant ∧ r.instant < n + 86400) ∧
      date * 86400 ≤ n ∧ n < date * 86400 + 86400 := by
  unfold resolveLocal at h
  cases htime : localTime? text with
  | none => rw [htime] at h; cases h
  | some time =>
    rw [htime] at h
    dsimp only at h
    have hlt := localTime?_lt htime
    have hlocal : date * 86400 ≤ naive date time ∧ naive date time < date * 86400 + 86400 := by
      have hcast : (time : Int) < 86400 := by omega
      unfold naive
      exact ⟨Int.le_add_of_nonneg_right (Int.natCast_nonneg time), Int.add_lt_add_left hcast _⟩
    refine ⟨naive date time, ?_, hlocal⟩
    split at h
    · rename_i t ht
      cases h
      exact hz _ _ _ ht
    · split at h
      · rename_i earlier later hearlier hlater
        split at h
        · split at h
          · cases h
            exact hz _ _ _ hearlier
          · cases h
            exact hz _ _ _ hlater
        · split at h
          · cases h
          · cases h
            exact hz _ _ _ hlater
      · cases h

theorem seconds_bounds (start finish low high low' high' date : Int) (hdate : -719528 ≤ date)
    (hdate' : date ≤ 2932895) (hlow : low - 86400 < start) (hlow' : date * 86400 ≤ low)
    (hhigh : finish < high + 86400) (hhigh' : high < date * 86400 + 86400)
    (hlow'' : low' = -62167219200000 - 86400000) (hhigh'' : high' = 253402300800000) :
    low' ≤ start * 1000 ∧ finish * 1000 < high' := by
  omega

theorem nearUTC_of_zone {zones : String → Option Zone} {name : String}
    (hzone : zones name = some z) (hz : NearUTC z) (z' : Zone) (hz' : zones name = some z') :
    NearUTC z' := by
  rw [hzone] at hz'
  cases hz'
  exact hz

/-- **The windows of a meeting** lie between the last day before the year 0 and the end of the year
9999: the last date of a cycle is before the last of the year, or there are no windows. -/
theorem meetingWindows_ordinary (hdraft : draft.accepted = true)
    (hz : ∀ z, zones draft.timezone = some z → NearUTC z) (startDate endDate : String) :
    OrdinaryWindows
      (materializeHours zones (meetingProfile draft) startDate endDate).concreteIntervals := by
  unfold materializeHours
  split
  · rename_i start finish z hstart hfinish hzone
    split
    · exact fun w hw => by cases hw
    split
    · exact fun w hw => by cases hw
    rename_i concrete diagnostics hvisit
    have hnear : NearUTC z := hz z hzone
    have hall : ∀ i ∈ concrete, yearZero - 86400000 ≤ i.start ∧ i.finish < yearTenThousand := by
      refine visitDates_forall hvisit fun date hdate hdate' r hr => ?_
      refine materializeAll_forall hr fun value hvalue r hr => ?_
      -- The window does not cross midnight.
      have hoffset : value.endDayOffset = 0 := by
        simp only [HoursProfile.weeklyOn, meetingProfile, hoursProfile, List.mem_map,
          List.mem_filter] at hvalue
        obtain ⟨-, ⟨⟨day, -, rfl⟩, -⟩, rfl⟩ := hvalue
        exact if_pos (SmartMeetingDraft.accepted.window hdraft)
      intro i hi
      obtain ⟨s, f, hs, hf, -, rfl⟩ := mem_materialize hr hi
      obtain ⟨low, ⟨hlow, -⟩, hlow', -⟩ := resolveLocal_near hnear hs
      obtain ⟨high, ⟨-, hhigh⟩, -, hhigh'⟩ := resolveLocal_near hnear hf
      rw [hoffset, Nat.cast_zero, add_zero] at hhigh'
      obtain ⟨first, rfl, hfirst, -⟩ := localDate?_bounds hstart
      obtain ⟨last, rfl, -, hlast⟩ := localDate?_bounds hfinish
      exact seconds_bounds _ _ low high _ _ date (le_trans hfirst hdate)
        (le_trans hdate' (by omega)) hlow hlow' hhigh hhigh' rfl rfl
    intro w hw
    simp only [List.mem_map] at hw
    obtain ⟨i, hi, rfl⟩ := hw
    rw [deduplicateAndSort, List.mem_insertionSort, (distinct_spec concrete).2] at hi
    exact hall i hi
  · exact fun w hw => by cases hw

end Windows

/-! ## Comparing a slot with an interval -/

/-- Zero or three fractional digits: without them the instant is a whole second. -/
def InstantText.written (a : InstantText) : Bool := a.milliseconds || a.instant % 1000 = 0

theorem second_lt_of_written (m n : Int) (hm : m % 1000 = 0) (hn : n % 1000 = 0) :
    m / 1000 < n / 1000 ↔ m < n := by
  omega

/-- The text of a whole second before a text with milliseconds. -/
theorem InstantText.before_whole {a b : InstantText} (h : Alike a b) (ha : a.written = true)
    (hb : b.milliseconds = true) (hwhole : b.instant % 1000 = 0) :
    a.before b = true ↔ a.instant < b.instant := by
  cases hms : a.milliseconds with
  | true => rw [before_alike_milliseconds h hms, hb, if_pos rfl]
  | false =>
    have hsecond : a.instant % 1000 = 0 := by
      simpa [InstantText.written, hms] using ha
    rw [before_alike h, hms]
    simp only [Bool.false_eq_true, false_and, and_false, or_false]
    exact second_lt_of_written _ _ hsecond hwhole

section Compare

variable {draft : SmartMeetingDraft} {windows : List TextInterval} {s : Slot} {i : TextInterval}

theorem whole_of_dvd (start step duration : Int) (h : step * 60000 ∣ start) :
    start % 1000 = 0 ∧ (start + duration * 60000) % 1000 = 0 := by
  obtain ⟨k, rfl⟩ := h
  have hk : step * 60000 * k = 1000 * (step * 60 * k) := by ring
  rw [hk]
  omega

/-- A slot of the grid starts and ends with a whole second. -/
theorem Tried.whole (h : Tried draft windows s) :
    s.start % 1000 = 0 ∧ (s.start + s.duration * 60000) % 1000 = 0 :=
  whole_of_dvd s.start draft.startStepMinutes s.duration h.aligned

/-- A slot in the years 0 to 9999. -/
structure InYears (s : Slot) : Prop where
  start : yearZero ≤ s.start
  finish : s.start + s.duration * 60000 < yearTenThousand

theorem InYears.start_lt (h : InYears s) : s.start < yearTenThousand :=
  lt_of_le_of_lt (Int.le_add_of_nonneg_right (Int.mul_nonneg (Int.natCast_nonneg _) (by decide)))
    h.finish

theorem InYears.finish_le (h : InYears s) : yearZero ≤ s.start + s.duration * 60000 :=
  le_trans h.start (Int.le_add_of_nonneg_right (Int.mul_nonneg (Int.natCast_nonneg _) (by decide)))

/-- **No overlap goes unseen** between a slot and an interval that does not reach the year 10000. -/
theorem overlaps_of_meets (hs : InYears s) (htried : Tried draft windows s)
    (hwritten : i.start.written = true ∧ i.finish.written = true)
    (hi : i.finish.instant < yearTenThousand ∨ yearTenThousand ≤ i.start.instant)
    (h : meets s.interval i = true) : overlaps s.interval i = true := by
  obtain ⟨hwhole, hwhole'⟩ := htried.whole
  simp only [meets, decide_eq_true_eq, max_lt_iff, lt_min_iff] at h
  obtain ⟨⟨-, hbefore⟩, hafter, -⟩ := h
  have hbefore' : i.start.instant < s.start + s.duration * 60000 := hbefore
  have hafter' : s.start < i.finish.instant := hafter
  have hfinish : i.finish.instant < yearTenThousand := by
    rcases hi with hi | hi
    · exact hi
    · exact absurd (lt_trans hbefore' hs.finish) (not_lt.2 hi)
  simp only [overlaps, Bool.and_eq_true]
  constructor
  · have halike : InstantText.Alike (toISOString s.start) i.finish :=
      InstantText.alike_digit hs.start hs.start_lt (le_trans hs.start hafter'.le) hfinish
    refine (InstantText.before_alike_milliseconds halike rfl).2 ?_
    split
    · exact hafter'
    · exact Int.ediv_le_ediv (by decide) hafter'.le
  · by_cases hminus : i.start.instant < yearZero
    · apply InstantText.before_of_sign_lt
      rw [InstantText.sign_minus hminus]
      have hdigit : (toISOString (s.start + s.duration * 60000)).sign = 2 :=
        InstantText.sign_digit hs.finish_le hs.finish
      rw [show s.interval.finish = toISOString (s.start + s.duration * 60000) from rfl, hdigit]
      decide
    · have halike : InstantText.Alike i.start (toISOString (s.start + s.duration * 60000)) :=
        InstantText.alike_digit (not_lt.1 hminus) (lt_trans hbefore' hs.finish) hs.finish_le hs.finish
      exact (InstantText.before_whole halike hwritten.1 rfl hwhole').2 hbefore'

end Compare

end Planipus.Planning

import Mathlib.Tactic.IntervalCases
import Planipus.CalendarSync.LocalTime

/-!
# Dates and their texts

A day is read back from its civil date (`dayOfCivil_civilOfDay`) and from its text, if the year has four
digits (`localDate?_dateText`); all texts of days differ (`dateText_inj`).
-/

namespace Planipus.CalendarSync

/-! ## Civil dates -/

/-- The years of an era and the days before them. -/
theorem yearOfEra_spec {doe yoe : Int} (h0 : 0 ≤ doe) (h1 : doe < 146097)
    (hy : yoe = (doe - doe / 1460 + doe / 36524 - doe / 146096) / 365) :
    ∃ doy : Int, doe = 365 * yoe + yoe / 4 - yoe / 100 + doy ∧ 0 ≤ doy ∧ doy ≤ 365 ∧
      0 ≤ yoe ∧ yoe < 400 ∧
      (doy = 365 → (yoe + 1) % 4 = 0 ∧ ((yoe + 1) % 100 ≠ 0 ∨ (yoe + 1) % 400 = 0)) := by
  by_cases hlast : doe = 146096
  · subst hlast
    exact ⟨365, by omega, by omega, by omega, by omega, by omega, by omega⟩
  · -- Centuries, leap cycles, and the days in the last of these.
    obtain ⟨c, q, s, hdoe, hc, hc', hq, hq', hs, hs', hend⟩ : ∃ c q s : Int,
        doe = 36524 * c + 1461 * q + s ∧ 0 ≤ c ∧ c ≤ 3 ∧ 0 ≤ q ∧ q ≤ 24 ∧ 0 ≤ s ∧ s < 1461 ∧
          (q = 24 → s < 1460) :=
      ⟨doe / 36524, doe % 36524 / 1461, doe % 36524 % 1461, by omega, by omega, by omega, by omega,
        by omega, by omega, by omega, by omega⟩
    have hcentury : doe / 36524 = c := by omega
    have hcycle : doe / 1460 = 25 * c + q + (24 * c + q + s) / 1460 := by omega
    have hera : doe / 146096 = 0 := by omega
    rw [hcentury, hcycle, hera] at hy
    obtain ⟨e, he, he0, he1⟩ : ∃ e, e = (24 * c + q + s) / 1460 ∧ 0 ≤ e ∧ e ≤ 1 :=
      ⟨_, rfl, by omega, by omega⟩
    rw [← he] at hy
    obtain ⟨k, hk, hk0, hk3⟩ : ∃ k, k = (s - e) / 365 ∧ 0 ≤ k ∧ k ≤ 3 := ⟨_, rfl, by omega, by omega⟩
    have hyear : yoe = 100 * c + 4 * q + k := by omega
    have hleap : yoe / 4 = 25 * c + q := by omega
    have hhundred : yoe / 100 = c := by omega
    refine ⟨s - 365 * k, by omega, by omega, by omega, by omega, by omega, ?_⟩
    intro hdoy
    have hk3' : k = 3 := by omega
    have hq24 : q ≠ 24 := by omega
    omega

/-- The parts of a civil date: the era, the year of the era and the month, from March on, and the day of
the year. -/
theorem civilOfDay_parts (d : Int) :
    ∃ era yoe mp doy : Int, d = era * 146097 + (yoe * 365 + yoe / 4 - yoe / 100 + doy) - 719468 ∧
      (0 ≤ yoe ∧ yoe < 400) ∧ (0 ≤ doy ∧ doy ≤ 365) ∧ mp = (5 * doy + 2) / 153 ∧
      (doy = 365 → (yoe + 1) % 4 = 0 ∧ ((yoe + 1) % 100 ≠ 0 ∨ (yoe + 1) % 400 = 0)) ∧
      civilOfDay d =
        (yoe + era * 400 + (if (if mp < 10 then mp + 3 else mp - 9).toNat ≤ 2 then 1 else 0),
          (if mp < 10 then mp + 3 else mp - 9).toNat, (doy - (153 * mp + 2) / 5 + 1).toNat) := by
  obtain ⟨era, doe, hdoe, h0, h1⟩ : ∃ era doe : Int,
      d + 719468 = era * 146097 + doe ∧ 0 ≤ doe ∧ doe < 146097 :=
    ⟨(d + 719468) / 146097, (d + 719468) % 146097, by omega, by omega, by omega⟩
  have hera : (d + 719468) / 146097 = era := by omega
  have hoe : d + 719468 - era * 146097 = doe := by omega
  obtain ⟨yoe, hyoe⟩ : ∃ yoe : Int, yoe = (doe - doe / 1460 + doe / 36524 - doe / 146096) / 365 :=
    ⟨_, rfl⟩
  obtain ⟨doy, hdoy, hdoy0, hdoy1, hyoe0, hyoe1, hleap⟩ := yearOfEra_spec h0 h1 hyoe
  have hoy : doe - (365 * yoe + yoe / 4 - yoe / 100) = doy := by omega
  refine ⟨era, yoe, (5 * doy + 2) / 153, doy, by omega, ⟨hyoe0, hyoe1⟩, ⟨hdoy0, hdoy1⟩, rfl, hleap, ?_⟩
  unfold civilOfDay
  simp only
  rw [hera, hoe, ← hyoe, hoy]

theorem dayOfCivil_civilOfDay (d : Int) :
    dayOfCivil (civilOfDay d).1 (civilOfDay d).2.1 (civilOfDay d).2.2 = d := by
  obtain ⟨era, yoe, mp, doy, hd, hyoe, hdoy, hmp, -, hcivil⟩ := civilOfDay_parts d
  rw [hcivil, dayOfCivil]
  simp only
  change @Eq Int _ _
  by_cases hmonth : mp < 10
  · rw [if_pos hmonth, if_neg (by omega), if_neg (by omega)]
    have hmonths : (((mp + 3).toNat : Int) + 9) % 12 = mp := by omega
    rw [hmonths]
    omega
  · rw [if_neg hmonth, if_pos (by omega), if_pos (by omega)]
    have hmonths : (((mp - 9).toNat : Int) + 9) % 12 = mp := by omega
    rw [hmonths]
    omega

/-- The months but February, from March on. -/
theorem daysInMonth_eq (year : Int) {n : Nat} (hn : n < 11) :
    daysInMonth year (if n < 10 then n + 3 else n - 9) =
      (153 * (n + 1) + 2) / 5 - (153 * n + 2) / 5 := by
  interval_cases n <;> rfl

/-- The civil date of a day exists. -/
theorem civilOfDay_valid (d : Int) :
    1 ≤ (civilOfDay d).2.1 ∧ (civilOfDay d).2.1 ≤ 12 ∧ 1 ≤ (civilOfDay d).2.2 ∧
      (civilOfDay d).2.2 ≤ daysInMonth (civilOfDay d).1 (civilOfDay d).2.1 := by
  obtain ⟨era, yoe, mp, doy, hd, hyoe, hdoy, hmp, hleap, hcivil⟩ := civilOfDay_parts d
  rw [hcivil]
  simp only
  refine ⟨by split_ifs <;> omega, by split_ifs <;> omega, by omega, ?_⟩
  -- Only February, the last month, depends on the year.
  by_cases hlast : mp = 11
  · have hmonth : (if mp < 10 then mp + 3 else mp - 9).toNat = 2 := by
      rw [if_neg (by omega)]
      omega
    rw [hmonth, if_pos (by decide), daysInMonth, isLeapYear]
    split_ifs with hyear
    · omega
    · simp only [decide_eq_true_eq] at hyear
      omega
  · obtain ⟨n, hn, hlt⟩ : ∃ n : Nat, mp = n ∧ n < 11 := ⟨mp.toNat, by omega, by omega⟩
    subst hn
    have hmonth : (if (n : Int) < 10 then (n : Int) + 3 else n - 9).toNat = if n < 10 then n + 3 else n - 9 := by
      split_ifs <;> omega
    have hbefore : (153 * (n : Int) + 2) / 5 = ((153 * n + 2) / 5 : Nat) := by
      rw [Int.natCast_ediv]
      rfl
    rw [hmonth, daysInMonth_eq _ hlt, hbefore]
    omega


/-! ## Texts -/

theorem padded_inj {width n n' : Nat} (h : (padded width n).toList = (padded width n').toList) :
    n = n' := by
  rw [← ofDigitChars_padded width n, h, ofDigitChars_padded]

theorem daysInMonth_le (year : Int) (month : Nat) : daysInMonth year month ≤ 31 := by
  unfold daysInMonth
  split
  · split <;> decide
  · decide
  · decide
  · decide
  · decide
  · decide

/-- The year of a date, as its text has it. -/
def yearText (year : Int) : String :=
  if 0 ≤ year ∧ year ≤ 9999 then padded 4 year.toNat
  else (if year < 0 then "-" else "+") ++ padded 6 year.natAbs

theorem toList_dateText (d : Day) :
    (dateText d).toList = (yearText (civilOfDay d).1).toList ++
      ('-' :: (padded 2 (civilOfDay d).2.1).toList ++ '-' :: (padded 2 (civilOfDay d).2.2).toList) := by
  simp [dateText, yearText]

theorem length_month (d : Day) : (padded 2 (civilOfDay d).2.1).toList.length = 2 :=
  length_padded (by decide) (by have := civilOfDay_valid d; omega)

theorem length_day (d : Day) : (padded 2 (civilOfDay d).2.2).toList.length = 2 :=
  length_padded (by decide) (by
    have := civilOfDay_valid d
    have := daysInMonth_le (civilOfDay d).1 (civilOfDay d).2.1
    omega)

/-- Signed years start with a sign. -/
theorem yearText_cases (year : Int) :
    (∃ n : Nat, year = n ∧ n ≤ 9999 ∧ yearText year = padded 4 n) ∨
      (¬(0 ≤ year ∧ year ≤ 9999) ∧ ∃ c, (c = '-' ∧ year < 0 ∨ c = '+' ∧ 0 ≤ year) ∧
        (yearText year).toList = c :: (padded 6 year.natAbs).toList) := by
  by_cases h : 0 ≤ year ∧ year ≤ 9999
  · exact Or.inl ⟨year.toNat, by omega, by omega, if_pos h⟩
  · refine Or.inr ⟨h, ?_⟩
    by_cases hneg : year < 0
    · exact ⟨'-', Or.inl ⟨rfl, hneg⟩, by simp [yearText, h, hneg]⟩
    · exact ⟨'+', Or.inr ⟨rfl, by omega⟩, by simp [yearText, h, hneg]⟩

theorem yearText_inj {year year' : Int} (h : (yearText year).toList = (yearText year').toList) :
    year = year' := by
  -- A sign is no digit.
  have mixed : ∀ (n : Nat) (c : Char) (rest : List Char), n ≤ 9999 → c = '-' ∨ c = '+' →
      (padded 4 n).toList ≠ c :: rest := by
    rintro n c rest - hc heq
    have hdigit := @isDigit_padded 4 n c (heq ▸ List.mem_cons_self ..)
    rcases hc with rfl | rfl <;> cases hdigit
  rcases yearText_cases year with ⟨n, hn, hmax, htext⟩ | ⟨-, c, hc, htext⟩
  · rcases yearText_cases year' with ⟨n', hn', -, htext'⟩ | ⟨-, c', hc', htext'⟩
    · rw [htext, htext'] at h
      rw [hn, hn', padded_inj h]
    · rw [htext, htext'] at h
      exact absurd h (mixed n c' _ hmax (hc'.imp And.left And.left))
  · rcases yearText_cases year' with ⟨n', hn', hmax', htext'⟩ | ⟨-, c', hc', htext'⟩
    · rw [htext, htext'] at h
      exact absurd h.symm (mixed n' c _ hmax' (hc.imp And.left And.left))
    · rw [htext, htext'] at h
      obtain ⟨hsign, hdigits⟩ := List.cons_eq_cons.1 h
      have habs := padded_inj hdigits
      rcases hc with ⟨rfl, hc⟩ | ⟨rfl, hc⟩ <;> rcases hc' with ⟨rfl, hc'⟩ | ⟨rfl, hc'⟩
      · omega
      · cases hsign
      · cases hsign
      · omega

/-- The texts of different days differ. -/
theorem dateText_inj {d d' : Day} (h : dateText d = dateText d') : d = d' := by
  have hlists := congrArg String.toList h
  rw [toList_dateText, toList_dateText] at hlists
  obtain ⟨hyear, hrest⟩ := List.append_inj' hlists (by
    simp [length_month, length_day])
  obtain ⟨hmonth, hday⟩ := List.append_inj (List.cons_eq_cons.1 hrest).2 (by
    rw [length_month, length_month])
  rw [← dayOfCivil_civilOfDay d, ← dayOfCivil_civilOfDay d', yearText_inj hyear, padded_inj hmonth,
    padded_inj (List.cons_eq_cons.1 hday).2]

theorem digits?_padded (width n : Nat) : digits? (padded width n).toList = some n :=
  digits?_eq_some.2 ⟨isDigit_padded, ofDigitChars_padded width n⟩

/-- The year has at most four digits, and no sign. -/
def PlainYear (d : Day) : Prop := 0 ≤ (civilOfDay d).1 ∧ (civilOfDay d).1 ≤ 9999

instance (d : Day) : Decidable (PlainYear d) :=
  inferInstanceAs (Decidable (0 ≤ (civilOfDay d).1 ∧ (civilOfDay d).1 ≤ 9999))

/-- A date of a year with four digits is read back from its text. -/
theorem localDate?_dateText {d : Day} (h : PlainYear d) :
    localDate? (dateText d) = some d := by
  have hyear : yearText (civilOfDay d).1 = padded 4 (civilOfDay d).1.toNat := if_pos h
  have hvalid := civilOfDay_valid d
  obtain ⟨ys, hys⟩ : ∃ ys, ys = (padded 4 (civilOfDay d).1.toNat).toList := ⟨_, rfl⟩
  obtain ⟨ms, hms⟩ : ∃ ms, ms = (padded 2 (civilOfDay d).2.1).toList := ⟨_, rfl⟩
  obtain ⟨ds, hds⟩ : ∃ ds, ds = (padded 2 (civilOfDay d).2.2).toList := ⟨_, rfl⟩
  obtain ⟨hmin, hmax⟩ := h
  have hylen : ys.length = 4 := by
    rw [hys]
    exact length_padded (by decide) (by omega)
  have hmlen : ms.length = 2 := hms ▸ length_month d
  have hdlen : ds.length = 2 := hds ▸ length_day d
  have hydigits := digits?_padded 4 (civilOfDay d).1.toNat
  have hmdigits := digits?_padded 2 (civilOfDay d).2.1
  have hddigits := digits?_padded 2 (civilOfDay d).2.2
  have htext : (dateText d).toList = ys ++ ('-' :: ms ++ '-' :: ds) := by
    rw [toList_dateText, hyear, hys, hms, hds]
  rw [← hys] at hydigits
  rw [← hms] at hmdigits
  rw [← hds] at hddigits
  match ys, hylen, ms, hmlen, ds, hdlen with
  | [y₁, y₂, y₃, y₄], _, [m₁, m₂], _, [d₁, d₂], _ =>
    unfold localDate?
    rw [htext]
    simp only [List.cons_append, List.nil_append, hydigits, hmdigits, hddigits]
    rw [Int.toNat_of_nonneg hmin, if_pos hvalid, dayOfCivil_civilOfDay]

/-- A text that starts with no digit is no date. -/
theorem localDate?_of_sign {text : String} {c : Char} {rest : List Char}
    (htext : text.toList = c :: rest) (hc : c.isDigit = false) : localDate? text = none := by
  unfold localDate?
  rw [htext]
  split
  · rename_i y₁ y₂ y₃ y₄ m₁ m₂ d₁ d₂ heq
    obtain ⟨rfl, -⟩ := List.cons_eq_cons.1 heq
    have hnone : digits? [c, y₂, y₃, y₄] = none := by
      rw [Option.eq_none_iff_forall_ne_some]
      intro n hn
      have hdigit := (digits?_eq_some.1 hn).1 c (.head _)
      rw [hc] at hdigit
      cases hdigit
    rw [hnone]
  · rfl

/-- A year with four digits, or a text that starts with a sign. -/
theorem dateText_cases (d : Day) :
    PlainYear d ∨ ∃ c rest, (dateText d).toList = c :: rest ∧ c.isDigit = false := by
  rcases yearText_cases (civilOfDay d).1 with ⟨n, hn, hmax, -⟩ | ⟨-, c, hc, htext⟩
  · exact Or.inl ⟨by omega, by omega⟩
  · refine Or.inr ⟨c, _, by rw [toList_dateText, htext]; rfl, ?_⟩
    rcases hc with ⟨rfl, -⟩ | ⟨rfl, -⟩ <;> rfl

theorem localDate?_dateText_eq {d e : Day} (h : localDate? (dateText d) = some e) : e = d := by
  rcases dateText_cases d with hyear | ⟨c, rest, htext, hc⟩
  · rw [localDate?_dateText hyear] at h
    exact (Option.some.inj h).symm
  · rw [localDate?_of_sign htext hc] at h
    cases h

/-- The first ten characters are all, if the year has four digits. -/
theorem take_dateText {d : Day} (h : PlainYear d) :
    String.ofList ((dateText d).toList.take 10) = dateText d := by
  have hyear : yearText (civilOfDay d).1 = padded 4 (civilOfDay d).1.toNat := if_pos h
  obtain ⟨hmin, hmax⟩ := h
  have hylen : (padded 4 (civilOfDay d).1.toNat).toList.length = 4 :=
    length_padded (by decide) (by omega)
  have hlen : (dateText d).toList.length ≤ 10 := by
    rw [toList_dateText, hyear, List.length_append, List.length_append, List.length_cons,
      List.length_cons, hylen, length_month, length_day]
  rw [List.take_of_length_le hlen, String.ofList_toList]

theorem localDate?_take_eq {d e : Day}
    (h : localDate? (String.ofList ((dateText d).toList.take 10)) = some e) : e = d := by
  rcases dateText_cases d with hyear | ⟨c, rest, htext, hc⟩
  · rw [take_dateText hyear] at h
    exact localDate?_dateText_eq h
  · have htake : (String.ofList ((dateText d).toList.take 10)).toList = c :: rest.take 9 := by
      rw [htext, String.toList_ofList]
      rfl
    rw [localDate?_of_sign htake hc] at h
    cases h

/-- Texts of dates with signed years have at least thirteen characters. -/
theorem length_dateText_signed {d : Day} (h : ¬PlainYear d) : 13 ≤ (dateText d).toList.length := by
  rcases yearText_cases (civilOfDay d).1 with ⟨n, hn, hmax, -⟩ | ⟨-, c, -, htext⟩
  · exact absurd ⟨by omega, by omega⟩ h
  · have hpad : 6 ≤ (padded 6 (civilOfDay d).1.natAbs).toList.length := by
      rw [toList_padded, List.length_append, List.length_replicate]
      omega
    rw [toList_dateText, htext, List.length_append, List.length_append, List.length_cons,
      List.length_cons, List.length_cons, length_month, length_day]
    omega

end Planipus.CalendarSync

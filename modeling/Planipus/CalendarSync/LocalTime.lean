import Mathlib.Algebra.Group.Nat.Defs
import Mathlib.Data.List.Dedup
import Mathlib.Data.List.Sort
import Planipus.CalendarSync.Types

/-!
# Local dates and times

The texts `YYYY-MM-DD` and `HH:MM:SS` of hours profiles. A date is the number of its day since
1970-01-01 in the proleptic Gregorian calendar, and a time the number of its second in the day, so
that a local date-time is a number of seconds (`naive`), counted as if the zone were UTC.

A time zone is the offset that it has at every second. Temporal resolves a local date-time to the
instants that show it (`possibleInstants`), and `zonedDateTime` is what `ZonedDateTime.from` makes of
them under a disambiguation.
-/

namespace Planipus.CalendarSync

/-! ## Digits -/

def digit? (c : Char) : Option Nat := if c.isDigit then some (c.toNat - '0'.toNat) else none

/-- The number that the digits stand for. -/
def digits? : List Char → Option Nat
  | cs => cs.foldl (fun value c => value.bind fun n => (digit? c).map fun d => n * 10 + d) (some 0)

/-- The decimal digits of a number, with at least `width` of them. -/
def padded (width n : Nat) : String :=
  let text := toString n
  String.ofList (List.replicate (width - text.length) '0') ++ text

theorem digits?_eq_some {cs : List Char} {n : Nat} :
    digits? cs = some n ↔ (∀ c ∈ cs, c.isDigit) ∧ Nat.ofDigitChars 10 cs 0 = n := by
  have key : ∀ (cs : List Char) (a : Nat),
      cs.foldl (fun value c => value.bind fun n => (digit? c).map fun d => n * 10 + d) (some a) =
        if ∀ c ∈ cs, c.isDigit then some (Nat.ofDigitChars 10 cs a) else none := by
    intro cs
    induction cs with
    | nil => intro a; simp
    | cons c cs ih =>
      intro a
      by_cases hc : c.isDigit
      · have hstep : (some a).bind (fun n => (digit? c).map fun d => n * 10 + d) =
            some (10 * a + (c.toNat - '0'.toNat)) := by
          simp [digit?, hc, Nat.mul_comm]
        rw [List.foldl_cons, hstep, ih, Nat.ofDigitChars_cons]
        simp [hc]
      · have hstep : (some a).bind (fun n => (digit? c).map fun d => n * 10 + d) = none := by
          simp [digit?, hc]
        have hnone : cs.foldl
            (fun value c => value.bind fun n => (digit? c).map fun d => n * 10 + d) none = none := by
          clear ih
          induction cs with
          | nil => rfl
          | cons c cs ih => simpa using ih
        rw [List.foldl_cons, hstep, hnone]
        simp [hc]
  rw [digits?, key]
  split
  · rename_i h
    simp only [Option.some.injEq]
    exact ⟨fun hn => ⟨h, hn⟩, fun hn => hn.2⟩
  · rename_i h
    simp [h]

theorem isDigit_toNat {c : Char} (h : c.isDigit) : 48 ≤ c.toNat ∧ c.toNat ≤ 57 := by
  simp only [Char.isDigit, Bool.and_eq_true, decide_eq_true_eq] at h
  exact ⟨UInt32.le_iff_toNat_le.1 h.1, UInt32.le_iff_toNat_le.1 h.2⟩

/-- Digits of one length are determined by their number. -/
theorem ofDigitChars_inj {cs cs' : List Char} {a a' : Nat} (hlen : cs.length = cs'.length)
    (hcs : ∀ c ∈ cs, c.isDigit) (hcs' : ∀ c ∈ cs', c.isDigit)
    (h : Nat.ofDigitChars 10 cs a = Nat.ofDigitChars 10 cs' a') : a = a' ∧ cs = cs' := by
  induction cs generalizing a a' cs' with
  | nil =>
    obtain rfl : cs' = [] := List.length_eq_zero_iff.1 hlen.symm
    simpa using h
  | cons c cs ih =>
    cases cs' with
    | nil => cases hlen
    | cons c' cs' =>
      rw [Nat.ofDigitChars_cons, Nat.ofDigitChars_cons] at h
      obtain ⟨hacc, rfl⟩ := ih (by simpa using hlen) (fun x hx => hcs x (.tail _ hx))
        (fun x hx => hcs' x (.tail _ hx)) h
      have hc := isDigit_toNat (hcs c (.head _))
      have hc' := isDigit_toNat (hcs' c' (.head _))
      have hzero : '0'.toNat = 48 := rfl
      rw [hzero] at hacc
      have hchar : c.toNat = c'.toNat := by omega
      exact ⟨by omega, by rw [Char.toNat_inj.1 hchar]⟩

theorem ofDigitChars_lt {cs : List Char} (hcs : ∀ c ∈ cs, c.isDigit) (a : Nat) :
    Nat.ofDigitChars 10 cs a < (a + 1) * 10 ^ cs.length := by
  induction cs generalizing a with
  | nil => simp
  | cons c cs ih =>
    rw [Nat.ofDigitChars_cons, List.length_cons, Nat.pow_succ]
    have hc := isDigit_toNat (hcs c (.head _))
    have hzero : '0'.toNat = 48 := rfl
    calc Nat.ofDigitChars 10 cs (10 * a + (c.toNat - '0'.toNat))
        < (10 * a + (c.toNat - '0'.toNat) + 1) * 10 ^ cs.length :=
          ih (fun x hx => hcs x (.tail _ hx)) _
      _ ≤ ((a + 1) * 10) * 10 ^ cs.length := Nat.mul_le_mul_right _ (by omega)
      _ = (a + 1) * (10 ^ cs.length * 10) := by
          rw [Nat.mul_assoc, Nat.mul_comm 10]

theorem toList_padded (width n : Nat) :
    (padded width n).toList =
      List.replicate (width - (Nat.toDigits 10 n).length) '0' ++ Nat.toDigits 10 n := by
  have hlen : (toString n).length = (Nat.toDigits 10 n).length := by
    rw [Nat.toString_eq_ofList_toDigits, String.length_ofList]
  simp only [padded, String.toList_append, String.toList_ofList, hlen]
  rw [Nat.toString_eq_ofList_toDigits, String.toList_ofList]

theorem isDigit_padded {width n : Nat} : ∀ c ∈ (padded width n).toList, c.isDigit := by
  intro c hc
  rw [toList_padded, List.mem_append] at hc
  rcases hc with hc | hc
  · rw [(List.mem_replicate.1 hc).2]
    rfl
  · exact Nat.isDigit_of_mem_toDigits (by decide) (by decide) hc

theorem ofDigitChars_padded (width n : Nat) : Nat.ofDigitChars 10 (padded width n).toList 0 = n := by
  rw [toList_padded, Nat.ofDigitChars_append, Nat.ofDigitChars_replicate_zero, Nat.mul_zero,
    Nat.ofDigitChars_ten_toDigits]

theorem length_padded {width n : Nat} (hw : 0 < width) (hn : n < 10 ^ width) :
    (padded width n).toList.length = width := by
  have hlen := (Nat.length_toDigits_le_iff (b := 10) (by decide) hw).2 hn
  rw [toList_padded, List.length_append, List.length_replicate]
  omega

/-- The digits of a text are the padded digits of its number. -/
theorem padded_of_digits {cs : List Char} {n : Nat} (hcs : cs ≠ []) (h : digits? cs = some n) :
    (padded cs.length n).toList = cs := by
  obtain ⟨hdigits, rfl⟩ := digits?_eq_some.1 h
  have hpos : 0 < cs.length := List.length_pos_iff.2 hcs
  have hlt : Nat.ofDigitChars 10 cs 0 < 10 ^ cs.length := by
    simpa using ofDigitChars_lt hdigits 0
  exact (ofDigitChars_inj (length_padded hpos hlt) isDigit_padded hdigits
    (ofDigitChars_padded cs.length _)).2

/-! ## Times -/

/-- `HH:MM:SS` with two digits each, an hour up to 23 and minutes and seconds up to 59. -/
def localTime? (text : String) : Option Nat :=
  match text.toList with
  | [h₁, h₂, ':', m₁, m₂, ':', s₁, s₂] =>
    match digits? [h₁, h₂], digits? [m₁, m₂], digits? [s₁, s₂] with
    | some h, some m, some s => if h ≤ 23 ∧ m ≤ 59 ∧ s ≤ 59 then some (h * 3600 + m * 60 + s) else none
    | _, _, _ => none
  | _ => none

theorem localTime?_lt {text : String} {time : Nat} (h : localTime? text = some time) :
    time < 86400 := by
  unfold localTime? at h
  split at h
  · split at h
    · split at h
      · cases h
        omega
      · cases h
    · cases h
  · cases h

/-! ## Dates -/

/-- A day, counted from 1970-01-01. -/
abbrev Day := Int

def isLeapYear (year : Int) : Bool := (year % 4 = 0 ∧ year % 100 ≠ 0) ∨ year % 400 = 0

def daysInMonth (year : Int) (month : Nat) : Nat :=
  match month with
  | 2 => if isLeapYear year then 29 else 28
  | 4 | 6 | 9 | 11 => 30
  | _ => 31

/-- The day of a civil date. Years are counted from March, and eras have 400 years. -/
def dayOfCivil (year : Int) (month day : Nat) : Day :=
  let y : Int := if month ≤ 2 then year - 1 else year
  let era := y / 400
  let yearOfEra := y - era * 400
  let monthFromMarch : Int := (month + 9) % 12
  let dayOfYear : Int := (153 * monthFromMarch + 2) / 5 + day - 1
  era * 146097 + (yearOfEra * 365 + yearOfEra / 4 - yearOfEra / 100 + dayOfYear) - 719468

/-- The civil date of a day. -/
def civilOfDay (d : Day) : Int × Nat × Nat :=
  let z := d + 719468
  let era := z / 146097
  let dayOfEra := z - era * 146097
  let yearOfEra := (dayOfEra - dayOfEra / 1460 + dayOfEra / 36524 - dayOfEra / 146096) / 365
  let dayOfYear := dayOfEra - (365 * yearOfEra + yearOfEra / 4 - yearOfEra / 100)
  let monthFromMarch := (5 * dayOfYear + 2) / 153
  let day := (dayOfYear - (153 * monthFromMarch + 2) / 5 + 1).toNat
  let month := (if monthFromMarch < 10 then monthFromMarch + 3 else monthFromMarch - 9).toNat
  (yearOfEra + era * 400 + (if month ≤ 2 then 1 else 0), month, day)

/-- `PlainDate.toString`: years outside of 0 to 9999 have a sign and six digits. -/
def dateText (d : Day) : String :=
  let (year, month, day) := civilOfDay d
  let yearText :=
    if 0 ≤ year ∧ year ≤ 9999 then padded 4 year.toNat
    else (if year < 0 then "-" else "+") ++ padded 6 year.natAbs
  yearText ++ "-" ++ padded 2 month ++ "-" ++ padded 2 day

/-- Monday is 1 and Sunday is 7. -/
def dayOfWeek (d : Day) : Nat := ((d + 3) % 7).toNat + 1

/-- `YYYY-MM-DD` of a date that exists. -/
def localDate? (text : String) : Option Day :=
  match text.toList with
  | [y₁, y₂, y₃, y₄, '-', m₁, m₂, '-', d₁, d₂] =>
    match digits? [y₁, y₂, y₃, y₄], digits? [m₁, m₂], digits? [d₁, d₂] with
    | some year, some month, some day =>
      if 1 ≤ month ∧ month ≤ 12 ∧ 1 ≤ day ∧ day ≤ daysInMonth year month then
        some (dayOfCivil year month day)
      else none
    | _, _, _ => none
  | _ => none

example : localDate? "2026-07-21" = some 20655 ∧ dateText 20655 = "2026-07-21" ∧
    dayOfWeek 20655 = 2 := by
  decide +kernel

/-- A local date-time in seconds, as if it were in UTC. -/
def naive (d : Day) (secondOfDay : Nat) : Int := d * 86400 + secondOfDay

/-! ## Time zones -/

/-- A time zone has finitely many offsets, in seconds, one at every epoch second. -/
structure Zone where
  offset : Int → Int
  offsets : List Int
  offset_mem : ∀ t, offset t ∈ offsets

namespace Zone

/-- The instant `t` shows the local date-time `n`. -/
def Shows (z : Zone) (t n : Int) : Prop := t + z.offset t = n

instance (z : Zone) (t n : Int) : Decidable (z.Shows t n) :=
  inferInstanceAs (Decidable (t + z.offset t = n))

/-- The instants among those at the given offsets that show `n`, in order. -/
def instantsAt (z : Zone) (offsets : List Int) (n : Int) : List Int :=
  ((offsets.dedup.map (n - ·)).filter fun t => z.Shows t n).insertionSort (· ≤ ·)

theorem mem_instantsAt {z : Zone} {offsets : List Int} {n t : Int} :
    t ∈ z.instantsAt offsets n ↔ n - t ∈ offsets ∧ z.Shows t n := by
  simp only [instantsAt, List.mem_insertionSort, List.mem_filter, List.mem_map, List.mem_dedup,
    decide_eq_true_eq]
  constructor
  · rintro ⟨⟨o, ho, rfl⟩, hs⟩
    exact ⟨by rwa [Int.sub_sub_self], hs⟩
  · rintro ⟨ho, hs⟩
    exact ⟨⟨n - t, ho, Int.sub_sub_self n t⟩, hs⟩

theorem nodup_instantsAt (z : Zone) (offsets : List Int) (n : Int) :
    (z.instantsAt offsets n).Nodup := by
  refine (List.perm_insertionSort _ _).nodup_iff.2 (List.Nodup.filter _ ?_)
  refine (List.nodup_dedup offsets).map ?_
  intro o o' h
  have h' : n - o = n - o' := h
  omega

/-- The instants do not depend on the offsets that were tried, as long as the same ones show. -/
theorem instantsAt_congr {z : Zone} {offsets offsets' : List Int} {n : Int}
    (h : ∀ t, z.Shows t n → (n - t ∈ offsets ↔ n - t ∈ offsets')) :
    z.instantsAt offsets n = z.instantsAt offsets' n := by
  have hperm : (z.instantsAt offsets n).Perm (z.instantsAt offsets' n) := by
    refine (List.perm_ext_iff_of_nodup (z.nodup_instantsAt _ n) (z.nodup_instantsAt _ n)).2 ?_
    intro t
    rw [mem_instantsAt, mem_instantsAt]
    exact ⟨fun ⟨ho, hs⟩ => ⟨(h t hs).1 ho, hs⟩, fun ⟨ho, hs⟩ => ⟨(h t hs).2 ho, hs⟩⟩
  exact hperm.eq_of_pairwise' (List.pairwise_insertionSort _ _) (List.pairwise_insertionSort _ _)

/-- `GetPossibleEpochNanoseconds` of Temporal. -/
def possibleInstants (z : Zone) (n : Int) : List Int := z.instantsAt z.offsets n

theorem mem_possibleInstants {z : Zone} {n t : Int} :
    t ∈ z.possibleInstants n ↔ z.Shows t n := by
  rw [possibleInstants, mem_instantsAt]
  refine ⟨And.right, fun hs => ⟨?_, hs⟩⟩
  have ho : n - t = z.offset t := by
    unfold Shows at hs
    omega
  rw [ho]
  exact z.offset_mem t

/-- The local date of an instant. -/
def localDay (z : Zone) (t : Int) : Day := (t + z.offset t) / 86400

end Zone

inductive Disambiguation | earlier | later | reject
deriving DecidableEq

/-- `Temporal.ZonedDateTime.from(fields, disambiguation)`. A local date-time that no instant shows is
moved by the difference of the offsets a day before and a day after. -/
def zonedDateTime (z : Zone) (n : Int) (disambiguation : Disambiguation) : Option Int :=
  let gap := z.offset (n + 86400) - z.offset (n - 86400)
  match z.possibleInstants n, disambiguation with
  | [t], _ => some t
  | _, .reject => none
  | [], .earlier => (z.possibleInstants (n - gap)).head?
  | [], .later => (z.possibleInstants (n + gap)).getLast?
  | t :: _, .earlier => some t
  | ts, .later => ts.getLast?

end Planipus.CalendarSync

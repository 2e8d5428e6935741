import Planipus.CalendarSync.Hours

/-!
# The native hours evaluator

`HoursEvaluator` of `macos/Sources/PlanipusCore/CanonicalCalendarSyncEvaluator.swift`, the second
implementation of the hours contract. It reads the whole profile before it materializes any date,
finds the instants of a local time by trying the offsets that the zone has within two days, and walks
from date to date by way of their noons.

A `LocalDate` that came from the calendar is the number of its day; only the dates of exceptions are
kept as the numbers that were read. What Foundation's calendar answers is a parameter.
-/

namespace Planipus.Native

open CalendarSync

/-! ## Reading texts -/

/-- `split(separator:omittingEmptySubsequences: false)`. -/
def fields (separator : Char) : List Char → List (List Char)
  | [] => [[]]
  | c :: cs =>
    if c = separator then [] :: fields separator cs
    else
      match fields separator cs with
      | [] => [[c]]
      | field :: rest => (c :: field) :: rest

/-- `Int(_:)` of a text: an optional sign and digits, within 64 bits. -/
def int? : List Char → Option Int
  | '+' :: cs => unsigned? cs
  | '-' :: cs => (unsigned? cs).map (- ·)
  | cs => unsigned? cs
where
  unsigned? (cs : List Char) : Option Int :=
    if cs.isEmpty then none
    else (digits? cs).bind fun n => if n ≤ 9223372036854775807 then some (n : Int) else none

/-- The second of the day. -/
def localTime? (text : String) : Option Nat :=
  match fields ':' text.toList with
  | [h, m, s] =>
    match int? h, int? m, int? s with
    | some hour, some minute, some second =>
      if (0 ≤ hour ∧ hour ≤ 23) ∧ (0 ≤ minute ∧ minute ≤ 59) ∧ (0 ≤ second ∧ second ≤ 59) then
        some (hour * 3600 + minute * 60 + second).toNat
      else none
    | _, _, _ => none
  | _ => none

/-- Year, month and day, whether there is such a date or not. -/
def localDate? (text : String) : Option (Int × Int × Int) :=
  match fields '-' text.toList with
  | [y, m, d] =>
    match int? y, int? m, int? d with
    | some year, some month, some day => some (year, month, day)
    | _, _, _ => none
  | _ => none

/-! ## The profile -/

structure Interval where
  start : Nat
  finish : Nat
  endDayOffset : Nat
deriving DecidableEq

structure Weekly where
  weekday : Nat
  interval : Interval
deriving DecidableEq

inductive ExceptionKind | closed | replace | add | remove
deriving DecidableEq

structure Exception where
  date : Int × Int × Int
  kind : ExceptionKind
  intervals : List Interval
deriving DecidableEq

structure ProfileContract where
  timezone : Zone
  ambiguous : AmbiguousResolution
  nonexistent : NonexistentResolution
  weekly : List Weekly
  exceptions : List Exception

/-- `try values.map`: the first value that cannot be read fails the whole. -/
def readAll {α β : Type} (read : α → Option β) : List α → Option (List β)
  | [] => some []
  | a :: as =>
    match read a, readAll read as with
    | some b, some bs => some (b :: bs)
    | _, _ => none

def Interval.read (value : LocalInterval) : Option Interval :=
  match localTime? value.start, localTime? value.finish with
  | some start, some finish =>
    if value.endDayOffset = 0 ∨ value.endDayOffset = 1 then
      some ⟨start, finish, value.endDayOffset⟩
    else none
  | _, _ => none

def Weekly.read (value : WeeklyInterval) : Option Weekly :=
  if 1 ≤ value.weekday ∧ value.weekday ≤ 7 then
    (Interval.read value.toLocalInterval).map fun interval => ⟨value.weekday, interval⟩
  else none

def ExceptionKind.of : HoursException → ExceptionKind
  | .closed _ => closed
  | .replace _ _ => replace
  | .add _ _ => add
  | .remove _ _ => remove

def Exception.read (value : HoursException) : Option Exception :=
  match readAll Interval.read value.intervals, localDate? value.date with
  | some intervals, some date => some ⟨date, .of value, intervals⟩
  | _, _ => none

def ProfileContract.read (zones : String → Option Zone) (profile : HoursProfile) :
    Option ProfileContract :=
  match zones profile.timezone, readAll Weekly.read profile.weekly,
    readAll Exception.read profile.exceptions with
  | some timezone, some weekly, some exceptions =>
    some ⟨timezone, profile.ambiguous, profile.nonexistent, weekly, exceptions⟩
  | _, _, _ => none

/-! ## Foundation -/

/-- Noon of the date is shown by exactly one instant. -/
def NoonOnce (z : Zone) (d : Day) : Prop := (z.possibleInstants (naive d 43200)).length = 1

instance (z : Zone) (d : Day) : Decidable (NoonOnce z d) :=
  inferInstanceAs (Decidable (_ = _))

/-- The day of 1582-10-15, from which on Foundation's Gregorian calendar is the ISO calendar. -/
def gregorianCutover : Day := -141427

/-- Foundation's Gregorian calendar in a time zone, where the noons it goes by are shown once. -/
structure Foundation where
  /-- `LocalDate.adding(days:calendar:)`: the local date of noon plus so many days. -/
  adding : Zone → Day → Int → Option Day
  /-- The ISO weekday of noon. -/
  weekday : Zone → Day → Option Nat
  /-- Year, month and day. -/
  civil : Day → Int × Int × Int
  adding_eq : ∀ z d days, NoonOnce z d → NoonOnce z (d + days) → adding z d days = some (d + days)
  weekday_eq : ∀ z d, NoonOnce z d → weekday z d = some (dayOfWeek d)
  civil_eq : ∀ d, gregorianCutover ≤ d →
    civil d = ((civilOfDay d).1, ((civilOfDay d).2.1 : Int), ((civilOfDay d).2.2 : Int))

/-! ## The evaluator -/

/-- The offsets at every sixth hour of the four days around a local time read as UTC. -/
def sampledOffsets (z : Zone) (n : Int) : List Int :=
  (List.range 17).map fun k : Nat => z.offset (n + ((k : Int) * 6 - 48) * 3600)

/-- `CanonicalEvaluationError.dstResolutionRejected` is `.dstResolution` here and any other case of
`CanonicalEvaluationError` is `.other`. -/
def resolve (profile : ProfileContract) (date : Day) (time : Nat) :
    Except HoursError ResolvedInstant :=
  let z := profile.timezone
  let n := naive date time
  match z.instantsAt (sampledOffsets z n) n with
  | [candidate] => .ok ⟨candidate, none⟩
  | first :: rest =>
    match profile.ambiguous with
    | .earlierOffset => .ok ⟨first, some .dstAmbiguousEarlier⟩
    | .laterOffset => .ok ⟨(first :: rest).getLastD first, some .dstAmbiguousLater⟩
  | [] =>
    match profile.nonexistent with
    | .reject => .error .dstResolution
    | .shiftForwardByGap =>
      let beforeOffset := z.offset (n - 43200)
      let afterOffset := z.offset (n + 43200)
      let gap := afterOffset - beforeOffset
      if 0 < gap then .ok ⟨n + gap - afterOffset, some .dstNonexistentShifted⟩
      else .error .other

section Evaluate

variable (foundation : Foundation)

def materialize (profile : ProfileContract) (date : Day) (interval : Interval) :
    Except HoursError Materialized := do
  let start ← resolve profile date interval.start
  match foundation.adding profile.timezone date interval.endDayOffset with
  | none => .error .other
  | some endDate =>
    let finish ← resolve profile endDate interval.finish
    let diagnostics := start.diagnostic.toList ++ finish.diagnostic.toList
    if start.instant < finish.instant then
      return ([⟨start.instant * 1000, finish.instant * 1000⟩], diagnostics)
    else return ([], diagnostics)

/-- `try intervals.compactMap`. -/
def materializeAll (profile : ProfileContract) (date : Day) :
    List Interval → Except HoursError Materialized
  | [] => .ok ([], [])
  | interval :: intervals => do
    let (concrete, diagnostics) ← materialize foundation profile date interval
    let (rest, diagnostics') ← materializeAll profile date intervals
    return (concrete ++ rest, diagnostics ++ diagnostics')

def subtract (base removal : InstantInterval) : List InstantInterval :=
  if base.start < removal.finish ∧ removal.start < base.finish then
    (if base.start < removal.start then [⟨base.start, removal.start⟩] else []) ++
      (if removal.finish < base.finish then [⟨removal.finish, base.finish⟩] else [])
  else [base]

def intervals (profile : ProfileContract) (date : Day) : Except HoursError Materialized :=
  match foundation.weekday profile.timezone date with
  | none => .error .other
  | some isoWeekday =>
    let weekly := (profile.weekly.filter fun w => w.weekday = isoWeekday).map (·.interval)
    match profile.exceptions.find? fun e => e.date = foundation.civil date with
    | none => materializeAll foundation profile date weekly
    | some exception =>
      match exception.kind with
      | .closed => .ok ([], [])
      | .replace => materializeAll foundation profile date exception.intervals
      | .add => materializeAll foundation profile date (weekly ++ exception.intervals)
      | .remove => do
        let (concrete, diagnostics) ← materializeAll foundation profile date weekly
        let (removals, diagnostics') ← materializeAll foundation profile date exception.intervals
        return (removals.foldl (fun bases removal => bases.flatMap (subtract · removal)) concrete,
          diagnostics ++ diagnostics')

/-- The loop over the dates; `remaining` is what is left of the 371 dates that it may visit. -/
def visitDates (profile : ProfileContract) (finalDate : Day) :
    (remaining : Nat) → Day → Except HoursError Materialized
  | 0, date => if date ≤ finalDate then .error .other else .ok ([], [])
  | remaining + 1, date =>
    if date ≤ finalDate then do
      let (concrete, diagnostics) ← intervals foundation profile date
      match foundation.adding profile.timezone date 1 with
      | none => .error .other
      | some next =>
        let (rest, diagnostics') ← visitDates profile finalDate remaining next
        return (concrete ++ rest, diagnostics ++ diagnostics')
    else .ok ([], [])

/-- The values of a dictionary by the texts of the intervals, sorted. The dictionary has no order of
its own, and the sort leaves none to choose. -/
def deduplicated (intervals : List InstantInterval) : List InstantInterval :=
  intervals.dedup.insertionSort InstantInterval.precedes

def overlaps (interval event : InstantInterval) : Bool :=
  interval.start < interval.finish && event.start < event.finish &&
    interval.start < event.finish && event.start < interval.finish

def contains (interval event : InstantInterval) : Bool :=
  interval.start ≤ event.start && event.finish ≤ interval.finish

/-- The part of `evaluate` that has a profile and can throw. -/
def concreteIntervals (zones : String → Option Zone) (event : InstantInterval)
    (profile : HoursProfile) : Except HoursError Materialized :=
  match ProfileContract.read zones profile with
  | none => .error .other
  | some profile =>
    match foundation.adding profile.timezone (profile.timezone.localDay (event.start / 1000)) (-1) with
    | none => .error .other
    | some date =>
      visitDates foundation profile (profile.timezone.localDay (event.finish / 1000)) 371 date

def evaluateHours (zones : String → Option Zone) (input : HoursEvaluationInput) :
    HoursEvaluationResult :=
  let event := input.event
  if event.start < event.finish then
    match input.mode, input.profile with
    | .allTimes, _ => ⟨true, .allTimes, [], [], []⟩
    | _, none => ⟨false, .invalidHoursProfile, [], [], []⟩
    | mode, some profile =>
      match concreteIntervals foundation zones event profile with
      | .error .dstResolution => ⟨false, .dstResolutionRejected, [], [], [.dstResolutionRejected]⟩
      | .error .other => ⟨false, .invalidHoursProfile, [], [], []⟩
      | .ok (concrete, diagnostics) =>
        let concrete := deduplicated concrete
        let matched :=
          if mode = .overlapsProfile then concrete.filter (overlaps · event)
          else concrete.filter (contains · event)
        let included := !matched.isEmpty
        { included
          reasonCode :=
            if mode = .overlapsProfile then if included then .overlapsHours else .outsideHours
            else if included then .containedInHours else .notContainedInHours
          concreteIntervals := concrete
          matchedIntervals := matched
          diagnostics := distinct diagnostics }
  else ⟨false, .invalidHoursProfile, [], [], []⟩

end Evaluate

end Planipus.Native

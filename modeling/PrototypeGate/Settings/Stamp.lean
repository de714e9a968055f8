import PrototypeGate.Text.Numeral

/-!
# Dates

A value may be a date, alone or with a time and a zone. Two times with zones are
compared as moments, whatever their zones.
-/

namespace PrototypeGate

/-- A length of time as messages show it: whole days and the seconds beyond them. -/
def durationText (minutes : Int) : String :=
  let days := minutes / 1440
  let seconds := minutes % 1440 * 60
  let parts :=
    (if days = 0 then [] else [s!"days={days}"]) ++
      (if seconds = 0 then [] else [s!"seconds={seconds}"])
  let inner := if parts.isEmpty then "0" else String.intercalate ", " parts
  s!"datetime.timedelta({inner})"

/-- The decimal text of a number padded to a width. -/
def padded (width n : Nat) : String :=
  String.ofList (padZeros width (Nat.toDigits 10 n))

/-- Number of days in a month. -/
def daysInMonth (year month : Nat) : Nat :=
  match month with
  | 2 => if year % 4 = 0 ∧ (year % 100 ≠ 0 ∨ year % 400 = 0) then 29 else 28
  | 4 => 30
  | 6 => 30
  | 9 => 30
  | 11 => 30
  | _ => 31

/-- The parts of a date, and of a time if there is one. -/
structure Stamp where
  /-- Year, month and day. -/
  date : Nat × Nat × Nat
  /-- Hour, minute, second and microsecond. -/
  time : Option (Nat × Nat × Nat × Nat)
  /-- Difference from universal time in minutes. -/
  zone : Option Int
  deriving DecidableEq, Repr

namespace Stamp

/-- Number of days from the beginning of the calendar to the date. -/
def dayNumber (s : Stamp) : Nat :=
  let (year, month, day) := s.date
  let before := year - 1
  365 * before + before / 4 - before / 100 + before / 400 +
    (List.range (month - 1)).foldl (fun days m => days + daysInMonth year (m + 1)) 0 + day

/-- The moment in microseconds, in universal time if a zone is given. -/
def moment (s : Stamp) : Int :=
  let (hour, minute, second, micros) := s.time.getD (0, 0, 0, 0)
  let minutes : Int := (s.dayNumber * 24 + hour) * 60 + minute - s.zone.getD 0
  (minutes * 60 + second) * 1000000 + micros

/-- Order of two dates, two times without a zone or two times with one; others cannot be
compared. -/
def compare? (a b : Stamp) : Option Ordering :=
  if a.time.isSome == b.time.isSome && a.zone.isSome == b.zone.isSome then
    some (compare a.moment b.moment)
  else none

/-- A date as plain text: year, month and day, then the time and its zone. -/
def plain (s : Stamp) : String :=
  let (year, month, day) := s.date
  let date := s!"{padded 4 year}-{padded 2 month}-{padded 2 day}"
  match s.time with
  | none => date
  | some (hour, minute, second, micros) =>
    let time := s!" {padded 2 hour}:{padded 2 minute}:{padded 2 second}"
    let fraction := if micros = 0 then "" else s!".{padded 6 micros}"
    let zone := match s.zone with
      | none => ""
      | some offset =>
        let sign := if offset < 0 then "-" else "+"
        s!"{sign}{padded 2 (offset.natAbs / 60)}:{padded 2 (offset.natAbs % 60)}"
    date ++ time ++ fraction ++ zone

/-- A date inside a list or a mapping. -/
def inner (s : Stamp) : String :=
  let (year, month, day) := s.date
  match s.time with
  | none => s!"datetime.date({year}, {month}, {day})"
  | some (hour, minute, second, micros) =>
    let seconds :=
      if micros ≠ 0 then s!", {second}, {micros}"
      else if second ≠ 0 then s!", {second}"
      else ""
    let zone := match s.zone with
      | none => ""
      | some 0 => ", tzinfo=datetime.timezone.utc"
      | some offset => s!", tzinfo=datetime.timezone({durationText offset})"
    s!"datetime.datetime({year}, {month}, {day}, {hour}, {minute}{seconds}{zone})"

end Stamp

end PrototypeGate

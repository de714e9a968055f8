import PrototypeGate.Text.Blank
import PrototypeGate.Outer.Yaml.Problem
import PrototypeGate.Settings.Stamp

/-!
# Dates

A scalar may be a date, alone or with a time and a zone.
-/

namespace PrototypeGate.Yaml

/-- Split off a number whose count of digits lies within bounds. -/
def splitDigits? (least most : Nat) (t : Text) : Option (Nat × Text) :=
  let digits := (t.take most).takeWhile Char.isDigit
  if digits.length < least then none
  else some (digits.foldl (fun n c => 10 * n + (c.toNat - 0x30)) 0, t.drop digits.length)

/-- Drop a character that must be there. -/
def expect? (c : Char) : Text → Option Text
  | d :: rest => if c = d then some rest else none
  | [] => none

/-- Read the zone at the end of a time. -/
def readZone? (t : Text) : Option (Option Int) :=
  match t.dropWhile fun c => c == ' ' || c == '\t' with
  | [] => if t = [] then some none else none
  | ['Z'] => some (some 0)
  | sign :: rest => do
    if sign ≠ '+' ∧ sign ≠ '-' then none
    let (hours, after) ← splitDigits? 1 2 rest
    let minutes ←
      match after with
      | [] => some 0
      | ':' :: rest => do
        let (minutes, ended) ← splitDigits? 2 2 rest
        if ended = [] then some minutes else none
      | _ => none
    let offset : Int := hours * 60 + minutes
    return some (if sign = '-' then -offset else offset)

/-- Read a date and the time that may follow it. A date alone has two digits for month
and day, unless a tag asks for a date; the microseconds are the first six digits of the
fraction. -/
def readStamp? (tagged : Bool) (t : Text) : Option Stamp := do
  let (year, t) ← splitDigits? 4 4 t
  let t ← expect? '-' t
  let (month, afterMonth) ← splitDigits? 1 2 t
  let afterDash ← expect? '-' afterMonth
  let (day, afterDay) ← splitDigits? 1 2 afterDash
  if afterDay = [] then
    if tagged ∨ t.length = 5 ∧ afterMonth.length = 3 then return ⟨(year, month, day), none, none⟩
    else none
  else
    let hours ←
      match afterDay with
      | 'T' :: rest => some rest
      | 't' :: rest => some rest
      | _ =>
        let rest := afterDay.dropWhile fun c => c == ' ' || c == '\t'
        if rest.length < afterDay.length then some rest else none
    let (hour, t) ← splitDigits? 1 2 hours
    let (minute, t) ← splitDigits? 2 2 (← expect? ':' t)
    let (second, t) ← splitDigits? 2 2 (← expect? ':' t)
    let (micros, t) :=
      match t with
      | '.' :: rest =>
        let digits := rest.takeWhile Char.isDigit
        let six := (digits ++ List.replicate 6 '0').take 6
        (six.foldl (fun n c => 10 * n + (c.toNat - 0x30)) 0, rest.drop digits.length)
      | _ => (0, t)
    let zone ← readZone? t
    return ⟨(year, month, day), some (hour, minute, second, micros), zone⟩

/-- The first part of a date that is out of its range. -/
def outOfRange? (s : Stamp) : Option DatePart :=
  let (year, month, day) := s.date
  match s.zone with
  | some offset => if 1440 ≤ offset.natAbs then some (.zone offset) else dateOrTime year month day
  | none => dateOrTime year month day
where
  /-- The first part of the date or the time that is out of its range. -/
  dateOrTime (year month day : Nat) : Option DatePart :=
    if year = 0 then some (.year year)
    else if month = 0 ∨ 12 < month then some .month
    else if day = 0 ∨ daysInMonth year month < day then some .day
    else
      match s.time with
      | none => none
      | some (hour, minute, second, _) =>
        if 23 < hour then some .hour
        else if 59 < minute then some .minute
        else if 59 < second then some .second
        else none

end PrototypeGate.Yaml

import PrototypeGate.Settings.Stamp
import PrototypeGate.Text.Quoted

/-!
# Problems in a document

A document can be malformed, or a scalar in it can have the form of a number, a date or
an escape without standing for one.
-/

namespace PrototypeGate.Yaml

/-- The parts of a date and time, with their ranges. -/
inductive DatePart where
  | year (year : Nat)
  | month
  | day
  | hour
  | minute
  | second
  | zone (minutes : Int)
  deriving DecidableEq, Repr

/-- Why a document cannot be read. -/
inductive Problem where
  /-- The document is not well formed. -/
  | malformed
  /-- A scalar is tagged as an integer, or has the form of one, but is none. -/
  | integer (base : Nat) (text : String)
  /-- An integer has too many digits. -/
  | longInteger (digits : Nat)
  /-- A scalar is tagged as a floating-point number but is none. -/
  | real (text : String)
  /-- A scalar is tagged as a truth value but is none. -/
  | truth (text : String)
  /-- A part of a date is out of its range. -/
  | date (part : DatePart)
  /-- A scalar is tagged as a date but has no form of one. -/
  | stamp
  /-- An escape gives a code that no character has. -/
  | codePoint (code : Nat)
  deriving DecidableEq, Repr

/-- What is said of a part of a date that is out of its range. -/
def DatePart.message : DatePart → String
  | year y => s!"year {y} is out of range"
  | month => "month must be in 1..12"
  | day => "day is out of range for month"
  | hour => "hour must be in 0..23"
  | minute => "minute must be in 0..59"
  | second => "second must be in 0..59"
  | zone minutes =>
    "offset must be a timedelta strictly between -timedelta(hours=24) and timedelta(hours=24), " ++
      s!"not {durationText minutes}"

/-- What is said of the problem. -/
def Problem.message : Problem → String
  | malformed => "malformed document"
  | integer base text =>
    let shown := String.ofList ((quoted text).toList.take 200)
    s!"invalid literal for int() with base {base}: {shown}"
  | longInteger digits =>
    "Exceeds the limit (4300 digits) for integer string conversion: " ++
      s!"value has {digits} digits; use sys.set_int_max_str_digits() to increase the limit"
  | real text => s!"could not convert string to float: {quoted text}"
  | truth text => quoted text
  | date part => part.message
  | stamp => "'NoneType' object has no attribute 'groupdict'"
  | codePoint _ => "chr() arg not in range(0x110000)"

/-- The kind of the problem. -/
def Problem.kind : Problem → String
  | malformed => "YAMLError"
  | truth _ => "KeyError"
  | stamp => "AttributeError"
  | _ => "ValueError"

end PrototypeGate.Yaml

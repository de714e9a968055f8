import PrototypeGate.Text.Blank
import PrototypeGate.Text.DecimalDigit
import PrototypeGate.Text.Numeral

/-!
# Location markers

A marker is a line of the stream that says which file, and which line of it, the
following lines come from: a hash sign, a line number and the quoted path.
-/

namespace PrototypeGate

/-- A location marker as read from the stream. -/
structure Marker where
  /-- The digits of the line number. -/
  digits : Text
  /-- The path, without its quotes and escapes. -/
  path : Text
  deriving DecidableEq, Repr

namespace Marker

/-- Protect the quotes and backslashes of a path. -/
def escape : Text → Text
  | [] => []
  | c :: rest => if c = '\\' ∨ c = '"' then '\\' :: c :: escape rest else c :: escape rest

/-- The path that an escaped text stands for, up to the closing quote. A backslash
protects any character but a line feed. -/
def unescape? : Text → Option Text
  | [] => none
  | '"' :: _ => some []
  | ['\\'] => none
  | '\\' :: c :: rest => if c = '\n' then none else (unescape? rest).map (c :: ·)
  | c :: rest => (unescape? rest).map (c :: ·)

/-- Write the marker for a line of a file. -/
def render (line : Int) (path : Text) : Text :=
  '#' :: decimalText line ++ ' ' :: '"' :: escape path ++ ['"']

/-- Read a marker at the start of a line; what follows the closing quote is ignored. -/
def read? : Text → Option Marker
  | '#' :: rest =>
    let number := rest.dropWhile isBlank
    let digits := number.takeWhile isDecimal
    let afterNumber := number.dropWhile isDecimal
    match afterNumber.takeWhile isBlank, afterNumber.dropWhile isBlank with
    | _ :: _, '"' :: quoted =>
      if digits = [] then none else (unescape? quoted).map fun path => ⟨digits, path⟩
    | _, _ => none
  | _ => none

/-- A line number has at most this many digits. -/
def digitLimit : Nat := 4300

/-- The line number of the marker, unless it has too many digits. -/
def number? (m : Marker) : Option Nat :=
  if m.digits.length ≤ digitLimit then some (decimalNumber m.digits) else none

end Marker

end PrototypeGate

import PrototypeGate.Text.Blank

/-!
# Numerals

Integers as text.
-/

namespace PrototypeGate

/-- The decimal text of an integer. -/
def decimalText : Int → Text
  | .ofNat n => Nat.toDigits 10 n
  | .negSucc n => '-' :: Nat.toDigits 10 (n + 1)

/-- An integer with more digits than this has no numeral. -/
def numeralLimit : Nat := 4300

/-- The decimal text of an integer as it is printed, unless it has too many digits. -/
def numeral? (n : Int) : Option Text :=
  if (decimalText n.natAbs).length ≤ numeralLimit then some (decimalText n) else none

/-- Digits padded on the left with zeros to a width. -/
def padZeros (width : Nat) (digits : Text) : Text :=
  List.replicate (width - digits.length) '0' ++ digits

/-- The hexadecimal digits of a number, padded with zeros to a width. -/
def hexText (width n : Nat) : Text :=
  padZeros width (Nat.toDigits 16 n)

end PrototypeGate

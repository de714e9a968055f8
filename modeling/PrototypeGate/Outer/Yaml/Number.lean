import PrototypeGate.Text.Blank
import PrototypeGate.Text.DecimalDigit
import PrototypeGate.Text.Numeral
import PrototypeGate.Outer.Yaml.Node
import PrototypeGate.Outer.Yaml.Scalar

/-!
# Numbers

The values of scalars that stand for numbers. Underscores between digits have no
meaning, a leading zero makes an integer octal, and colons separate places of sixty.
-/

namespace PrototypeGate.Yaml

/-- The value of a digit in a base. -/
def digitValue? (base : Nat) (c : Char) : Option Nat :=
  match decimalValue? c with
  | some d => if d < base then some d else none
  | none => (hexValue? c).filter (· < base)

/-- The number that digits stand for in a base. -/
def readDigits? (base : Nat) (digits : Text) : Option Nat :=
  if digits = [] then none
  else digits.foldlM (fun n c => (digitValue? base c).map (base * n + ·)) 0

/-- Whether the text begins with a zero and the letter of the base. -/
def hasBaseMark (base : Nat) : Text → Bool
  | '0' :: c :: _ =>
    (base == 2 && (c == 'b' || c == 'B')) || (base == 8 && (c == 'o' || c == 'O')) ||
      (base == 16 && (c == 'x' || c == 'X'))
  | _ => false

/-- Read an integer in a base. It may have blanks around it, a sign and a mark of its
base, and in base ten only so many digits. -/
def readInteger (base : Nat) (t : Text) : Except Problem Int :=
  let body := Text.trim t
  let marked := unsigned body
  let digits := if hasBaseMark base marked then marked.drop 2 else marked
  let run := digits.takeWhile fun c => (digitValue? base c).isSome
  if base = 10 ∧ 4300 < run.length then .error (.longInteger run.length)
  else
    match readDigits? base digits with
    | some n => .ok (if body.head? = some '-' then -(n : Int) else n)
    | none => .error (.integer base (String.ofList t))

/-- Split a text at colons. -/
def splitColons : Text → List Text
  | [] => [[]]
  | c :: rest =>
    match splitColons rest with
    | [] => [[c]]
    | part :: parts => if c = ':' then [] :: part :: parts else (c :: part) :: parts

/-- The value of an integer scalar: binary, octal, decimal, hexadecimal or with places of
sixty. -/
def integerValue (t : Text) : Except Problem Int := do
  let clean := t.filter (· != '_')
  let sign : Int := if clean.head? = some '-' then -1 else 1
  let digits := unsigned clean
  let magnitude ←
    match digits with
    | '0' :: 'b' :: rest => readInteger 2 rest
    | '0' :: 'x' :: rest => readInteger 16 rest
    | '0' :: _ :: _ => readInteger 8 digits
    | _ =>
      if digits.contains ':' then do
        let places ← (splitColons digits).mapM (readInteger 10)
        pure (places.foldl (fun n place => 60 * n + place) 0)
      else readInteger 10 digits
  return sign * magnitude

/-- The floating-point number nearest to a decimal number. One that is too large is
infinite, and one that is too small is zero. -/
def nearestFloat (mantissa : Nat) (power : Int) : Float :=
  let size := (Nat.toDigits 10 mantissa).length + power
  if mantissa = 0 ∨ size < -330 then 0
  else if 310 < size then 1 / 0
  else Float.ofScientific mantissa (power < 0) power.natAbs

/-- The power of ten that an exponent stands for; without one it is zero. -/
def exponent? : Text → Option Int
  | [] => some 0
  | 'e' :: '-' :: rest => (readDigits? 10 rest).map fun n => -(n : Int)
  | 'e' :: '+' :: rest => (readDigits? 10 rest).map Int.ofNat
  | 'e' :: rest => (readDigits? 10 rest).map Int.ofNat
  | _ => none

/-- Read an unsigned floating-point number without blanks. -/
def readMagnitude? (t : Text) : Option Float :=
  if t = "inf".toList ∨ t = "infinity".toList then some (1 / 0)
  else if t = "nan".toList then some (0 / 0)
  else do
    let whole := t.takeWhile isDecimal
    let (fraction, rest) := match t.dropWhile isDecimal with
      | '.' :: rest => (rest.takeWhile isDecimal, rest.dropWhile isDecimal)
      | rest => ([], rest)
    let exponent ← exponent? rest
    let mantissa ← readDigits? 10 (whole ++ fraction)
    return nearestFloat mantissa (exponent - fraction.length)

/-- Read a floating-point number. It may have blanks around it and a sign. -/
def readFloat (t : Text) : Except Problem Float :=
  let body := Text.trim t
  match readMagnitude? (unsigned body) with
  | some x => .ok (if body.head? = some '-' then -x else x)
  | none => .error (.real (String.ofList t))

/-- The value of a floating-point scalar. -/
def floatValue (t : Text) : Except Problem Float := do
  let clean := (t.filter (· != '_')).map Char.toLower
  let sign : Float := if clean.head? = some '-' then -1 else 1
  let digits := unsigned clean
  if digits = ".inf".toList then return sign * (1 / 0)
  else if digits = ".nan".toList then return 0 / 0
  else if digits.contains ':' then
    let places ← (splitColons digits).mapM readFloat
    let (total, _) := places.reverse.foldl
      (fun (total, base) place => (total + place * base, base * 60)) ((0, 1) : Float × Float)
    return sign * total
  else return sign * (← readFloat digits)

end PrototypeGate.Yaml

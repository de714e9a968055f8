import PrototypeGate.Text.Numeral

/-!
# Text of floating-point numbers

A finite number is written with the fewest digits that read back as the same number,
and of those with the digits nearest to it. The search is exact: a number is a
fraction, and the numbers that read back as it form an interval of fractions.
-/

namespace PrototypeGate.Shortest

/-- A positive fraction. -/
structure Fraction where
  /-- Numerator. -/
  num : Nat
  /-- Denominator. -/
  den : Nat

/-- Whether one fraction is below another, or at most equal to it if `closed`. -/
def Fraction.below (a b : Fraction) (closed : Bool) : Bool :=
  if closed then a.num * b.den ≤ b.num * a.den else a.num * b.den < b.num * a.den

/-- The fraction `n * 2 ^ e / 2 ^ 1100`. -/
def binary (n e : Nat) : Fraction :=
  if 1100 ≤ e then ⟨n * Nat.pow 2 (e - 1100), 1⟩ else ⟨n, Nat.pow 2 (1100 - e)⟩

/-- The fraction `n * 10 ^ e`. -/
def decimal (n : Nat) (e : Int) : Fraction :=
  match e with
  | .ofNat e => ⟨n * Nat.pow 10 e, 1⟩
  | .negSucc e => ⟨n, Nat.pow 10 (e + 1)⟩

/-- A positive number and the interval of fractions that are rounded to it. -/
structure Rounded where
  /-- The number itself. -/
  value : Fraction
  /-- Lower end of the interval. -/
  low : Fraction
  /-- Upper end of the interval. -/
  high : Fraction
  /-- Whether the ends belong to the interval. -/
  closed : Bool

/-- Decode the magnitude given by the exponent and fraction fields of a double. -/
def decode (exponent fraction : Nat) : Rounded :=
  let mantissa := if exponent = 0 then fraction else fraction + Nat.pow 2 52
  -- The unit of the mantissa is 2 ^ (max exponent 1 - 1075); quarters of it are exact.
  let scale := max exponent 1 + 23
  let below := if fraction = 0 ∧ 1 < exponent then 1 else 2
  { value := binary (4 * mantissa) scale
    low := binary (4 * mantissa - below) scale
    high := binary (4 * mantissa + 2) scale
    closed := mantissa % 2 = 0 }

/-- Whether a fraction lies in the interval. -/
def Rounded.contains (r : Rounded) (f : Fraction) : Bool :=
  r.low.below f r.closed && f.below r.high r.closed

/-- Distance of a fraction from the number, up to a positive factor common to fractions
of one denominator. -/
def Rounded.distance (r : Rounded) (f : Fraction) : Nat :=
  let a := f.num * r.value.den
  let b := r.value.num * f.den
  (a - b) + (b - a)

/-- The multiple of `10 ^ e` nearest to the number among its two neighbours that lie in
the interval. -/
def Rounded.onGrid? (r : Rounded) (e : Int) : Option Nat :=
  let unit := decimal 1 e
  let down := (r.value.num * unit.den) / (r.value.den * unit.num)
  let candidates := [down, down + 1].filter fun n => n ≠ 0 && r.contains (decimal n e)
  match candidates with
  | [] => none
  | [n] => some n
  | n :: m :: _ =>
    let left := r.distance (decimal n e)
    let right := r.distance (decimal m e)
    if left < right ∨ (left = right ∧ n % 2 = 0) then some n else some m

/-- The coarsest decimal grid at or below `10 ^ e` with a neighbour in the interval,
together with that neighbour. -/
def Rounded.coarsest (r : Rounded) : Nat → Int → Nat × Int
  | 0, e => ((r.onGrid? e).getD 0, e)
  | fuel + 1, e =>
    match r.onGrid? e with
    | some n => (n, e)
    | none => r.coarsest fuel (e - 1)

/-- Drop trailing zeros from a positive number, counting them. -/
def dropZeros : Nat → Nat → Int → Nat × Int
  | 0, n, e => (n, e)
  | fuel + 1, n, e => if n % 10 = 0 ∧ n ≠ 0 then dropZeros fuel (n / 10) (e + 1) else (n, e)

/-- The fewest digits of a positive number, and the exponent of the last of them. -/
def Rounded.shortest (r : Rounded) : Nat × Int :=
  let (n, e) := r.coarsest 700 310
  dropZeros 20 n e

/-- Lay out digits whose last one has the weight `10 ^ e`: positionally from `0.0001` up
to below `10 ^ 16`, otherwise with an exponent of at least two digits. -/
def layout (n : Nat) (e : Int) : Text :=
  let digits := Nat.toDigits 10 n
  let point : Int := digits.length + e
  if -4 < point ∧ point ≤ 16 then
    if point ≤ 0 then '0' :: '.' :: List.replicate point.natAbs '0' ++ digits
    else if 0 ≤ e then digits ++ List.replicate e.toNat '0' ++ ['.', '0']
    else digits.take point.toNat ++ '.' :: digits.drop point.toNat
  else
    let power := point - 1
    let mantissa := match digits with
      | [d] => [d]
      | d :: rest => d :: '.' :: rest
      | [] => []
    mantissa ++ 'e' :: (if power < 0 then '-' else '+') ::
      padZeros 2 (Nat.toDigits 10 power.natAbs)

/-- A finite floating-point number as an exact fraction. -/
def ratio? (x : Float) : Option (Int × Nat) :=
  let bits := x.toBits.toNat
  let exponent := bits / Nat.pow 2 52 % 2048
  if exponent = 2047 then none
  else
    let magnitude := (decode exponent (bits % Nat.pow 2 52)).value
    some (if Nat.pow 2 63 ≤ bits then -(magnitude.num : Int) else magnitude.num, magnitude.den)

/-- The text of a floating-point number. -/
def text (x : Float) : Text :=
  let bits := x.toBits.toNat
  let exponent := bits / Nat.pow 2 52 % 2048
  let fraction := bits % Nat.pow 2 52
  let sign := if Nat.pow 2 63 ≤ bits then ['-'] else []
  if exponent = 2047 then
    if fraction = 0 then sign ++ "inf".toList else "nan".toList
  else if exponent = 0 ∧ fraction = 0 then sign ++ "0.0".toList
  else
    let (n, e) := (decode exponent fraction).shortest
    sign ++ layout n e

end PrototypeGate.Shortest

import PrototypeGate.Settings.Stamp
import PrototypeGate.Text.Quoted
import PrototypeGate.Text.Shortest

/-!
# Values

What a document can stand for, and how messages show it. An integer with too many digits
cannot be shown.
-/

namespace PrototypeGate

/-- The values of a document. -/
inductive Value where
  | null
  | bool (b : Bool)
  | int (n : Int)
  | float (x : Float)
  | str (s : String)
  | bytes (content : List UInt8)
  | stamp (s : Stamp)
  | list (items : List Value)
  | pair (first second : Value)
  | set (items : List Value)
  | map (entries : List (Value × Value))
  | loop (isMapping : Bool)
  deriving Inhabited

namespace Value

/-- The text of a byte between the given quotes. -/
def quotedByte (mark : Char) (byte : UInt8) : Text :=
  if byte < 0x80 then quotedChar mark (Char.ofNat byte.toNat)
  else escapeCode (Char.ofNat byte.toNat)

/-- Bytes as messages show them. -/
def quotedBytes (content : List UInt8) : String :=
  let mark := quoteMark (content.map fun byte => Char.ofNat byte.toNat)
  String.ofList ('b' :: mark :: content.flatMap (quotedByte mark) ++ [mark])

mutual

/-- Whether every integer in a value has a numeral, so that the value can be shown. -/
def isShowable : Value → Bool
  | .int n => (numeral? n).isSome
  | .list items => areShowable items
  | .pair first second => first.isShowable && second.isShowable
  | .set items => areShowable items
  | .map entries => entriesShowable entries
  | _ => true

/-- Whether all items of a list can be shown. -/
def areShowable : List Value → Bool
  | [] => true
  | item :: rest => item.isShowable && areShowable rest

/-- Whether all entries of a mapping can be shown. -/
def entriesShowable : List (Value × Value) → Bool
  | [] => true
  | (key, value) :: rest => key.isShowable && value.isShowable && entriesShowable rest

end

mutual

/-- A value as messages show it inside a list or a mapping. -/
def inner : Value → String
  | .null => "None"
  | .bool true => "True"
  | .bool false => "False"
  | .int n => String.ofList (decimalText n)
  | .float x => String.ofList (Shortest.text x)
  | .str s => quoted s
  | .bytes content => quotedBytes content
  | .stamp s => s.inner
  | .list items => bracketed (innerItems items)
  | .pair a b => "(" ++ inner a ++ ", " ++ inner b ++ ")"
  | .set [] => "set()"
  | .set items => "\x7b" ++ String.intercalate ", " (innerItems items) ++ "\x7d"
  | .map entries => "\x7b" ++ String.intercalate ", " (innerEntries entries) ++ "\x7d"
  | .loop true => "\x7b...\x7d"
  | .loop false => "[...]"

/-- The items of a list as messages show them. -/
def innerItems : List Value → List String
  | [] => []
  | item :: rest => inner item :: innerItems rest

/-- The entries of a mapping as messages show them. -/
def innerEntries : List (Value × Value) → List String
  | [] => []
  | (key, value) :: rest => (inner key ++ ": " ++ inner value) :: innerEntries rest

end

/-- A value as plain text. -/
def plain : Value → String
  | .str s => s
  | .stamp s => s.plain
  | v => v.inner

/-- The number that a value counts as when it is compared; truth values count as zero
and one. -/
def number? : Value → Option (Int ⊕ Float)
  | .bool b => some (.inl (if b then 1 else 0))
  | .int n => some (.inl n)
  | .float x => some (.inr x)
  | _ => none

/-- Exact comparison of an integer with a floating-point number. -/
def compareExact (n : Int) (x : Float) : Ordering :=
  match Shortest.ratio? x with
  | some (num, den) => compare (n * den) num
  | none => if x < 0 then .gt else .lt

/-- Order of two values of which neither is a collection, if they can be compared. -/
def compare? (a b : Value) : Option Ordering :=
  match a.number?, b.number? with
  | some (.inl m), some (.inl n) => some (compare m n)
  | some (.inr x), some (.inr y) =>
    some (if x < y then .lt else if x == y then .eq else .gt)
  | some (.inl m), some (.inr y) => some (compareExact m y)
  | some (.inr x), some (.inl n) => some (compareExact n x).swap
  | _, _ =>
    match a, b with
    | .str s, .str t => some (compare s t)
    | .null, .null => some .eq
    | .bytes s, .bytes t => some (compare s t)
    | .stamp s, .stamp t => s.compare? t
    | _, _ => none

/-- Whether the value is not a number in spite of its type. -/
def isNaN : Value → Bool
  | .float x => x.isNaN
  | _ => false

/-- Whether two values are the same key. Truth values and numbers are equal as
numbers. -/
def sameKey (a b : Value) : Bool :=
  a.compare? b == some .eq || (a.isNaN && b.isNaN)

/-- The value under a text key. -/
def field? (entries : List (Value × Value)) (name : String) : Option Value :=
  (entries.find? fun entry => entry.1.sameKey (.str name)).map Prod.snd

end Value

end PrototypeGate

import PrototypeGate.Text.Numeral

/-!
# JSON reports

The values a report is made of, and their text: two blanks of indentation for each
level, fields in the order given, and every character outside printable ASCII escaped
by its UTF-16 code units. A value with an integer of too many digits has no text.
-/

namespace PrototypeGate

/-- The values of a report. -/
inductive Json where
  | string (text : Text)
  | integer (value : Int)
  | array (items : List Json)
  | object (fields : List (String × Json))

namespace Json

/-- The escape of one UTF-16 code unit. -/
def escapeUnit (unit : Nat) : Text :=
  '\\' :: 'u' :: hexText 4 unit

/-- The text of a character inside a string. -/
def escapeChar (c : Char) : Text :=
  if c = '"' then "\\\"".toList
  else if c = '\\' then "\\\\".toList
  else if c = '\n' then "\\n".toList
  else if c = '\r' then "\\r".toList
  else if c = '\t' then "\\t".toList
  else if c = '\x0c' then "\\f".toList
  else if c = '\x08' then "\\b".toList
  else if 0x20 ≤ c.toNat ∧ c.toNat < 0x7f then [c]
  else if c.toNat < 0x10000 then escapeUnit c.toNat
  else
    let offset := c.toNat - 0x10000
    escapeUnit (0xd800 + offset / 0x400) ++ escapeUnit (0xdc00 + offset % 0x400)

/-- The text of a string with its quotes. -/
def quote (text : Text) : Text :=
  '"' :: text.flatMap escapeChar ++ ['"']

/-- A line break followed by the indentation of a level. -/
def lineBreak (level : Nat) : Text :=
  '\n' :: List.replicate (2 * level) ' '

/-- Bracket items, one per line, at a level of indentation. -/
def bracket (opening closing : Char) (level : Nat) (items : List Text) : Text :=
  match items with
  | [] => [opening, closing]
  | _ =>
    let separator := ',' :: lineBreak (level + 1)
    opening :: lineBreak (level + 1) ++ separator.intercalate items ++
      lineBreak level ++ [closing]

mutual

/-- The text of a value that stands at a level of indentation, unless an integer in it has
too many digits. -/
def renderAt? (level : Nat) : Json → Option Text
  | .string text => some (quote text)
  | .integer value => numeral? value
  | .array items => (renderItems? (level + 1) items).map (bracket '[' ']' level)
  | .object fields => (renderFields? (level + 1) fields).map (bracket '{' '}' level)

/-- The texts of the items of a list. -/
def renderItems? (level : Nat) : List Json → Option (List Text)
  | [] => some []
  | item :: rest => do return (← renderAt? level item) :: (← renderItems? level rest)

/-- The texts of the fields of an object. -/
def renderFields? (level : Nat) : List (String × Json) → Option (List Text)
  | [] => some []
  | (name, value) :: rest => do
    let text ← renderAt? level value
    return (quote name.toList ++ ':' :: ' ' :: text) :: (← renderFields? level rest)

end

/-- The text of a whole report, unless an integer in it has too many digits. -/
def render? (value : Json) : Option Text :=
  renderAt? 0 value

end Json

end PrototypeGate

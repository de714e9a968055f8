import PrototypeGate.Outer.Yaml.Date

/-!
# Nodes

The tree of a document: scalars, sequences and mappings, each with the tag that says
what it stands for. A plain scalar without a tag gets one from its form. A reference is
replaced by the node it refers to; only a reference to a collection that is still open
remains, as a loop.
-/

namespace PrototypeGate.Yaml

/-- The meanings of nodes that are understood. -/
inductive Tag where
  | null
  | bool
  | int
  | float
  | timestamp
  | binary
  | str
  | seq
  | map
  | set
  | omap
  | pairs
  | merge
  | value
  | unknown
  deriving DecidableEq, Repr

/-- A node of the document tree. -/
inductive Node where
  | scalar (tag : Tag) (text : Text)
  | sequence (tag : Tag) (items : List Node)
  | mapping (tag : Tag) (entries : List (Node × Node))
  | loop (isMapping : Bool)

namespace Tag

/-- The full names of tags begin with this text. -/
def home : Text := "tag:yaml.org,2002:".toList

/-- The tag with a full name. -/
def ofName (name : Text) : Tag :=
  if home.isPrefixOf name then
    match String.ofList (name.drop home.length) with
    | "null" => null
    | "bool" => bool
    | "int" => int
    | "float" => float
    | "timestamp" => timestamp
    | "binary" => binary
    | "str" => str
    | "seq" => seq
    | "map" => map
    | "set" => set
    | "omap" => omap
    | "pairs" => pairs
    | "merge" => merge
    | "value" => value
    | _ => unknown
  else unknown

end Tag

/-! ### Forms of plain scalars -/

/-- Words for truth values, with what they stand for. -/
def truthValue? (word : String) : Option Bool :=
  if ["yes", "Yes", "YES", "true", "True", "TRUE", "on", "On", "ON"].contains word then some true
  else if ["no", "No", "NO", "false", "False", "FALSE", "off", "Off", "OFF"].contains word then
    some false
  else none

/-- Words for the null value. -/
def isNullWord (word : String) : Bool :=
  ["", "~", "null", "Null", "NULL"].contains word

/-- Drop a sign. -/
def unsigned : Text → Text
  | '+' :: rest => rest
  | '-' :: rest => rest
  | t => t

/-- Decimal digits and underscores. -/
def isDigitOrLow (c : Char) : Bool := c.isDigit || c == '_'

/-- Whether the text is one or more sexagesimal places, each after a colon. -/
def isSexagesimal : Text → Bool
  | [':', a] => a.isDigit
  | [':', a, b] => '0' ≤ a && a ≤ '5' && b.isDigit
  | ':' :: a :: ':' :: rest => a.isDigit && isSexagesimal (':' :: rest)
  | ':' :: a :: b :: ':' :: rest =>
    '0' ≤ a && a ≤ '5' && b.isDigit && isSexagesimal (':' :: rest)
  | _ => false

/-- Whether a plain scalar has the form of an integer. -/
def isIntegerForm (t : Text) : Bool :=
  match unsigned t with
  | '0' :: 'b' :: rest => rest ≠ [] && rest.all fun c => c == '0' || c == '1' || c == '_'
  | '0' :: 'x' :: rest =>
    rest ≠ [] && rest.all fun c =>
      c.isDigit || ('a' ≤ c && c ≤ 'f') || ('A' ≤ c && c ≤ 'F') || c == '_'
  | ['0'] => true
  | '0' :: rest => rest.all fun c => ('0' ≤ c && c ≤ '7') || c == '_'
  | c :: rest =>
    c.isDigit &&
      (let after := rest.dropWhile isDigitOrLow
       after.isEmpty || isSexagesimal after)
  | [] => false

/-- Whether the text is empty or an exponent with its sign. -/
def isExponent : Text → Bool
  | [] => true
  | e :: sign :: digits =>
    (e == 'e' || e == 'E') && (sign == '+' || sign == '-') && digits ≠ [] &&
      digits.all Char.isDigit
  | _ => false

/-- Whether a plain scalar has the form of a floating-point number. -/
def isFloatForm (t : Text) : Bool :=
  let body := unsigned t
  match body with
  | '.' :: rest =>
    ["inf", "Inf", "INF"].contains (String.ofList rest) ||
      (body.length == t.length &&
        (["nan", "NaN", "NAN"].contains (String.ofList rest) ||
          (rest.head?.any Char.isDigit && isExponent (rest.dropWhile isDigitOrLow))))
  | c :: rest =>
    c.isDigit &&
      (match rest.dropWhile isDigitOrLow with
      | '.' :: fraction => isExponent (fraction.dropWhile isDigitOrLow)
      | places =>
        let parts := places.takeWhile (· != '.')
        match places.dropWhile (· != '.') with
        | '.' :: fraction => isSexagesimal parts && fraction.all isDigitOrLow
        | _ => false)
  | [] => false

/-- The tag of a plain scalar, by its form. -/
def plainTag (t : Text) : Tag :=
  let word := String.ofList t
  if isNullWord word then .null
  else if (truthValue? word).isSome then .bool
  else if isFloatForm t then .float
  else if isIntegerForm t then .int
  else if word == "<<" then .merge
  else if (readStamp? false t).isSome then .timestamp
  else if word == "=" then .value
  else .str

end PrototypeGate.Yaml

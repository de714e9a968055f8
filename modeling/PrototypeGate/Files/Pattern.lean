import PrototypeGate.Text.Blank

/-!
# Patterns for names

A pattern for the names in a directory: a star for any text, a question mark for any
character, brackets for a set of characters. A bracket that is not closed stands for
itself.
-/

namespace PrototypeGate

/-- Whether the text has a character with a meaning in patterns. -/
def hasMagic (t : Text) : Bool :=
  t.any fun c => c == '*' || c == '?' || c == '['

/-- A set of characters, given by ranges. -/
structure CharSet where
  /-- Whether the set holds the characters outside the ranges. -/
  negated : Bool
  /-- The ranges, both ends included. -/
  ranges : List (Char × Char)
  deriving DecidableEq, Repr

/-- Whether the set holds a character. -/
def CharSet.holds (s : CharSet) (c : Char) : Bool :=
  (s.ranges.any fun r => r.1 ≤ c && c ≤ r.2) != s.negated

/-- One piece of a pattern. -/
inductive PatternItem where
  /-- Any text. -/
  | any
  /-- A character of a set. -/
  | oneOf (set : CharSet)
  deriving DecidableEq, Repr

namespace Pattern

/-- Cut the inside of brackets at the hyphens that form ranges. A hyphen forms a range if
a character precedes it in its piece; after a range the next character is no hyphen of
a range. -/
def pieces : Nat → Nat → Text → Text → List Text
  | 0, _, piece, t => [piece.reverse ++ t]
  | _ + 1, _, piece, [] => [piece.reverse]
  | fuel + 1, wait, piece, c :: rest =>
    if c = '-' ∧ wait = 0 then piece.reverse :: pieces fuel 2 [] rest
    else pieces fuel (wait - 1) (c :: piece) rest

/-- A hyphen at the end stands for itself. -/
def keepLastHyphen : List Text → List Text
  | [] => []
  | [piece] => [piece]
  | [piece, []] => [piece ++ ['-']]
  | piece :: rest => piece :: keepLastHyphen rest

/-- Drop the ranges that hold nothing, with both their ends. -/
def dropEmptyRanges : List Text → List Text
  | [] => []
  | piece :: rest =>
    match dropEmptyRanges rest with
    | [] => [piece]
    | next :: others =>
      match piece.getLast?, next with
      | some low, high :: tail =>
        if high < low then (piece.dropLast ++ tail) :: others else piece :: next :: others
      | _, _ => piece :: next :: others

/-- The ranges that pieces stand for: the hyphen between two pieces joins the last
character of one and the first of the next. -/
def rangesOf : List Text → List (Char × Char)
  | [] => []
  | [piece] => piece.map fun c => (c, c)
  | piece :: next :: rest =>
    match piece.getLast?, next with
    | some low, high :: tail =>
      piece.dropLast.map (fun c => (c, c)) ++ (low, high) :: rangesOf (tail :: rest)
    | _, _ => piece.map (fun c => (c, c)) ++ rangesOf (next :: rest)
termination_by pieces => pieces.length

/-- The set that the inside of brackets stands for. An exclamation mark at the start
negates it. -/
def charSet (t : Text) : CharSet :=
  let wait := if t.head? = some '!' then 2 else 1
  let cut := if t.contains '-' then
      dropEmptyRanges (keepLastHyphen (pieces (t.length + 1) wait [] t))
    else [t]
  match cut with
  | ('!' :: piece) :: rest => ⟨true, rangesOf (piece :: rest)⟩
  | other => ⟨false, rangesOf other⟩

/-- Split off the inside of brackets after the opening one. A closing bracket at the
start, also after an exclamation mark, belongs to the inside. -/
def splitBrackets? (t : Text) : Option (Text × Text) :=
  let mark := if t.head? = some '!' then 1 else 0
  let first := if (t.drop mark).head? = some ']' then mark + 1 else mark
  let inside := t.take first ++ (t.drop first).takeWhile (· ≠ ']')
  match t.drop inside.length with
  | ']' :: rest => some (inside, rest)
  | _ => none

/-- The set of a single character. -/
def single (c : Char) : CharSet := ⟨false, [(c, c)]⟩

/-- The set of all characters. -/
def everything : CharSet := ⟨true, []⟩

/-- Read a pattern. -/
def items : Nat → Text → List PatternItem
  | 0, _ => []
  | _ + 1, [] => []
  | fuel + 1, c :: rest =>
    if c = '*' then .any :: items fuel rest
    else if c = '?' then .oneOf everything :: items fuel rest
    else if c = '[' then
      match splitBrackets? rest with
      | some (inside, after) => .oneOf (charSet inside) :: items fuel after
      | none => .oneOf (single c) :: items fuel rest
    else .oneOf (single c) :: items fuel rest

/-- Whether a name matches the pieces of a pattern. -/
def matchesItems : List PatternItem → Text → Bool
  | [], name => name.isEmpty
  | .oneOf _ :: _, [] => false
  | .oneOf set :: rest, c :: name => set.holds c && matchesItems rest name
  | .any :: rest, [] => matchesItems rest []
  | .any :: rest, c :: name => matchesItems rest (c :: name) || matchesItems (.any :: rest) name
termination_by items name => (items.length, name.length)

/-- Whether a name matches a pattern. -/
def accepts (pattern name : Text) : Bool :=
  matchesItems (items (pattern.length + 1) pattern) name

end Pattern

end PrototypeGate

import PrototypeGate.Failure
import PrototypeGate.Outer.Yaml.Binary
import PrototypeGate.Outer.Yaml.Number
import PrototypeGate.Outer.Yaml.Tree
import PrototypeGate.Settings.Value

/-!
# Reading a document

The value of a document is built from its tree. Scalars are read by their tags; equal
keys of a mapping share one entry, and the last value stays.
-/

namespace PrototypeGate.Yaml

/-- The value of a scalar. -/
def scalarValue (tag : Tag) (t : Text) : Except Problem Value := do
  match tag with
  | .null => return .null
  | .str => return .str (String.ofList t)
  | .bool =>
    let word := String.ofList (t.map Char.toLower)
    match truthValue? word with
    | some b => return .bool b
    | none => throw (.truth word)
  | .int => return .int (← integerValue t)
  | .float => return .float (← floatValue t)
  | .timestamp =>
    match readStamp? true t with
    | some stamp =>
      match outOfRange? stamp with
      | some part => throw (.date part)
      | none => return .stamp stamp
    | none => throw (.stamp)
  | .binary =>
    match Binary.decode? t with
    | some content => return .bytes content
    | none => throw .malformed
  | _ => throw .malformed

/-- Put an entry into a mapping. An equal key keeps its place and takes the value. -/
def putEntry (entries : List (Value × Value)) (key value : Value) : List (Value × Value) :=
  if entries.any fun entry => entry.1.sameKey key then
    entries.map fun entry => if entry.1.sameKey key then (entry.1, value) else entry
  else entries ++ [(key, value)]

/-- Collect the entries of a mapping; equal keys share one entry. -/
def collectEntries (entries : List (Value × Value)) : List (Value × Value) :=
  entries.foldl (fun collected entry => putEntry collected entry.1 entry.2) []

/-- Whether a node is a scalar. A collection cannot be a key. -/
def Node.isScalar : Node → Bool
  | .scalar .. => true
  | _ => false

mutual

/-- The text of a node that is asked for as a scalar. A mapping stands for the entry of its
value key. -/
def Node.text? : Node → Option Text
  | .scalar _ text => some text
  | .mapping _ entries => Node.valueText? entries
  | _ => none

/-- The text under the first value key of some entries. -/
def Node.valueText? : List (Node × Node) → Option Text
  | [] => none
  | (.scalar .value _, value) :: _ => value.text?
  | _ :: rest => Node.valueText? rest

end

mutual

/-- The value of a node. -/
def Node.value : Node → Except Problem Value
  | .scalar tag text => scalarValue tag text
  | .sequence tag items =>
    match tag with
    | .seq => return .list (← Node.values items)
    | .omap => return .list (← Node.pairs items)
    | .pairs => return .list (← Node.pairs items)
    | _ => throw .malformed
  | .mapping tag entries =>
    match tag with
    | .map => return .map (collectEntries (← Node.entryValues entries))
    | .set => return .set ((collectEntries (← Node.entryValues entries)).map Prod.fst)
    | _ =>
      match Node.valueText? entries with
      | some text => scalarValue tag text
      | none => throw .malformed
  | .loop isMapping => return .loop isMapping

/-- The values of a sequence's items. -/
def Node.values : List Node → Except Problem (List Value)
  | [] => return []
  | item :: rest => do
    let value ← item.value
    return value :: (← Node.values rest)

/-- The values of a sequence's items, each a mapping of one entry, as pairs. -/
def Node.pairs : List Node → Except Problem (List Value)
  | [] => return []
  | .mapping _ [(key, value)] :: rest => do
    let first ← key.value
    let second ← value.value
    return .pair first second :: (← Node.pairs rest)
  | _ :: _ => throw .malformed

/-- The values of a mapping's entries. -/
def Node.entryValues : List (Node × Node) → Except Problem (List (Value × Value))
  | [] => return []
  | (key, value) :: rest => do
    if !key.isScalar then throw .malformed
    let first ← key.value
    let second ← value.value
    return (first, second) :: (← Node.entryValues rest)

end

/-- The value of a text that holds at most one document; an empty one is null. -/
def readText (t : Text) : Except Problem Value := do
  match ← readTree t with
  | none => return .null
  | some tree => tree.value

/-- The value of the document in a file. -/
def read (content : List UInt8) : Except DocumentProblem Value :=
  match Utf8.decodeStrict? content with
  | none => .error (.raised "UnicodeDecodeError" none)
  | some text =>
    (readText (Text.unifyLineEnds text)).mapError fun
      | .malformed => .malformed
      | problem => .raised problem.kind (some problem.message)

end PrototypeGate.Yaml

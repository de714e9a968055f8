import PrototypeGate.Outer.Yaml.Lexer
import PrototypeGate.Outer.Yaml.Node

/-!
# Reading the tree of a document

The tree is read from the tokens by recursive descent. The number that bounds the
recursion is larger than the nesting that the tokens can produce.
-/

namespace PrototypeGate.Yaml

/-- What an anchor names. -/
inductive Anchored where
  /-- A collection that is still open. -/
  | opened (isMapping : Bool)
  /-- A complete node. -/
  | closed (node : Node)

/-- State of the reader. -/
structure Reader where
  /-- The tokens still to be read. -/
  tokens : List Token
  /-- The anchors seen so far. -/
  anchors : List (Text × Anchored)
  /-- The handles of tags with the texts they stand for. -/
  handles : List (Text × Text)

/-- Reading with a state and problems. -/
abbrev Read := StateT Reader (Except Problem)

namespace Read

/-- The handles that are always known. -/
def standardHandles : List (Text × Text) :=
  [(['!'], ['!']), (['!', '!'], Tag.home)]

/-- The next token. -/
def peek : Read Token :=
  return (← get).tokens.headD .streamEnd

/-- Move past the next token. -/
def advance : Read Unit :=
  modify fun r => { r with tokens := r.tokens.tail }

/-- Move past the next token if it is the given one. -/
def accept (token : Token) : Read Bool := do
  if (← peek) = token then
    advance
    return true
  else return false

/-- Move past the given token. -/
def expect (token : Token) : Read Unit := do
  if !(← accept token) then throw .malformed

/-- Whether the next token is one of the given ones. -/
def isNext (tokens : List Token) : Read Bool :=
  return tokens.contains (← peek)

/-- Give a name to a node or to an open collection. -/
def name (anchor : Option Text) (what : Anchored) : Read Unit := do
  match anchor with
  | some text => modify fun r => { r with anchors := (text, what) :: r.anchors }
  | none => return ()

/-- The node that a reference stands for. -/
def follow (anchor : Text) : Read Node := do
  match (← get).anchors.lookup anchor with
  | some (.closed node) => return node
  | some (.opened isMapping) => return .loop isMapping
  | none => throw .malformed

/-- The full name of a tag; `none` if the tag leaves the meaning to the form. -/
def fullTag (handle : Option Text) (suffix : Text) : Read (Option Text) := do
  match handle with
  | none => return if suffix = ['!'] then none else some suffix
  | some text =>
    match (← get).handles.lookup text with
    | some replacement => return some (replacement ++ suffix)
    | none => throw .malformed

/-- What stands before the content of a node: an anchor and a tag, in either order. -/
structure Properties where
  /-- The anchor. -/
  anchor : Option Text
  /-- The full name of the tag. -/
  tag : Option Text
  /-- Whether a tag leaves the meaning to the form. -/
  byForm : Bool

/-- Read an anchor, if one is next. -/
def anchor? : Read (Option Text) := do
  match ← peek with
  | .anchor text => do
    advance
    return some text
  | _ => return none

/-- Read a tag, if one is next. -/
def tag? : Read (Option (Option Text)) := do
  match ← peek with
  | .tag handle suffix => do
    advance
    return some (← fullTag handle suffix)
  | _ => return none

/-- Read what stands before the content of a node. An anchor is used only once. -/
def properties : Read Properties := do
  let first ← anchor?
  let tag ← tag?
  let anchor ← match first with
    | some _ => pure first
    | none => if tag.isSome then anchor? else pure none
  let known := (← get).anchors
  if anchor.any fun text => (known.lookup text).isSome then throw .malformed
  return ⟨anchor, tag.join, tag == some none⟩

/-- The tag of a node, given the tag it has by its form. -/
def Properties.resolve (p : Properties) (byForm : Tag) : Tag :=
  match p.tag with
  | some text => .ofName text
  | none => byForm

/-- The node of an empty scalar without properties. -/
def emptyNode : Node := .scalar .null []

/-- The entries that the value of a merge key contributes. -/
def mergedEntries : Node → Except Problem (List (Node × Node))
  | .mapping _ entries => .ok entries
  | .sequence _ items => do
    let parts ← items.mapM fun
      | .mapping _ entries => .ok entries
      | .loop true => .ok []
      | _ => .error .malformed
    return parts.reverse.flatten
  | .loop _ => .ok []
  | .scalar .. => .error .malformed

/-- Whether an entry merges another mapping. -/
def isMerge : Node × Node → Bool
  | (.scalar .merge _, _) => true
  | _ => false

/-- Put the entries of merged mappings before a mapping's own entries. A key that is an
equals sign is an ordinary text. -/
def flattenEntries (entries : List (Node × Node)) : Except Problem (List (Node × Node)) := do
  let merged ← (entries.filter isMerge).mapM fun entry => mergedEntries entry.2
  let own := (entries.filter (!isMerge ·)).map fun
    | (.scalar .value text, v) => (Node.scalar .str text, v)
    | entry => entry
  return merged.flatten ++ own

mutual

/-- Read a node. In block context block collections are allowed, and after a key also a
sequence that is not indented. -/
def node (block unindented : Bool) : Nat → Read Node
  | 0 => throw .malformed
  | fuel + 1 => do
    if let .reference text ← peek then
      advance
      follow text
    else
      let p ← properties
      match ← peek with
      | .scalar text plain => do
        advance
        let form := if plain || p.byForm then plainTag text else .str
        let result := Node.scalar (p.resolve form) text
        name p.anchor (.closed result)
        return result
      | .blockEntry =>
        if unindented then sequence p (unindentedItems fuel) else empty p
      | .flowSequenceStart => do
        advance
        sequence p (flowItems true fuel)
      | .flowMappingStart => do
        advance
        mapping p (flowEntries true fuel)
      | .blockSequenceStart =>
        if block then do
          advance
          sequence p (blockItems fuel)
        else empty p
      | .blockMappingStart =>
        if block then do
          advance
          mapping p (blockEntries fuel)
        else empty p
      | _ => empty p
where
  /-- A node without content needs an anchor or a tag. -/
  empty (p : Properties) : Read Node := do
    if p.anchor.isNone && p.tag.isNone && !p.byForm then throw .malformed
    let result := Node.scalar (p.resolve .null) []
    name p.anchor (.closed result)
    return result
  /-- Read a sequence, given how to read its items. -/
  sequence (p : Properties) (items : Read (List Node)) : Read Node := do
    name p.anchor (.opened false)
    let result := Node.sequence (p.resolve .seq) (← items)
    name p.anchor (.closed result)
    return result
  /-- Read a mapping, given how to read its entries. -/
  mapping (p : Properties) (entries : Read (List (Node × Node))) : Read Node := do
    name p.anchor (.opened true)
    let result := Node.mapping (p.resolve .map) (← flattenEntries (← entries))
    name p.anchor (.closed result)
    return result

/-- Read the items of an indented block sequence. -/
def blockItems : Nat → Read (List Node)
  | 0 => throw .malformed
  | fuel + 1 => do
    if ← accept .blockEntry then
      let item ←
        if ← isNext [.blockEntry, .blockEnd] then pure emptyNode else node true false fuel
      return item :: (← blockItems fuel)
    else
      expect .blockEnd
      return []

/-- Read the items of a block sequence that is not indented. -/
def unindentedItems : Nat → Read (List Node)
  | 0 => throw .malformed
  | fuel + 1 => do
    if ← accept .blockEntry then
      let item ←
        if ← isNext [.blockEntry, .key, .value, .blockEnd] then pure emptyNode
        else node true false fuel
      return item :: (← unindentedItems fuel)
    else return []

/-- Read the entries of a block mapping. -/
def blockEntries : Nat → Read (List (Node × Node))
  | 0 => throw .malformed
  | fuel + 1 => do
    if ← accept .key then
      let key ←
        if ← isNext [.key, .value, .blockEnd] then pure emptyNode else node true true fuel
      let value ← blockValue fuel
      return (key, value) :: (← blockEntries fuel)
    else
      expect .blockEnd
      return []

/-- Read the value of an entry of a block mapping. -/
def blockValue : Nat → Read Node
  | 0 => throw .malformed
  | fuel + 1 => do
    if ← accept .value then
      if ← isNext [.key, .value, .blockEnd] then pure emptyNode else node true true fuel
    else return emptyNode

/-- Read the items of a flow sequence. An item may be a mapping of one entry. -/
def flowItems (first : Bool) : Nat → Read (List Node)
  | 0 => throw .malformed
  | fuel + 1 => do
    if ← accept .flowSequenceEnd then return []
    if !first then expect .flowEntry
    if ← accept .key then
      let key ←
        if ← isNext [.value, .flowEntry, .flowSequenceEnd] then pure emptyNode
        else node false false fuel
      let value ← flowValue .flowSequenceEnd fuel
      let item := Node.mapping .map (← flattenEntries [(key, value)])
      return item :: (← flowItems false fuel)
    else if ← accept .flowSequenceEnd then return []
    else
      let item ← node false false fuel
      return item :: (← flowItems false fuel)

/-- Read the entries of a flow mapping. -/
def flowEntries (first : Bool) : Nat → Read (List (Node × Node))
  | 0 => throw .malformed
  | fuel + 1 => do
    if ← accept .flowMappingEnd then return []
    if !first then expect .flowEntry
    if ← accept .key then
      let key ←
        if ← isNext [.value, .flowEntry, .flowMappingEnd] then pure emptyNode
        else node false false fuel
      let value ← flowValue .flowMappingEnd fuel
      return (key, value) :: (← flowEntries false fuel)
    else if ← accept .flowMappingEnd then return []
    else
      let key ← node false false fuel
      return (key, emptyNode) :: (← flowEntries false fuel)

/-- Read the value of an entry in a flow collection. -/
def flowValue (closing : Token) : Nat → Read Node
  | 0 => throw .malformed
  | fuel + 1 => do
    if ← accept .value then
      if ← isNext [.flowEntry, closing] then pure emptyNode else node false false fuel
    else return emptyNode

end

/-- Read the directives before a document. The version must be one of the first major
version, and no directive may be repeated. -/
def directives : Nat → Bool → Read Unit
  | 0, _ => return ()
  | fuel + 1, versioned => do
    match ← peek with
    | .directive (.version major _) =>
      if versioned ∨ major ≠ 1 then throw .malformed
      advance
      directives fuel true
    | .directive (.handle text replacement) =>
      if ((← get).handles.lookup text).isSome then throw .malformed
      advance
      modify fun r => { r with handles := (text, replacement) :: r.handles }
      directives fuel versioned
    | .directive .reserved =>
      advance
      directives fuel versioned
    | _ => return ()

/-- Whether a directive, a document marker or the end is next. -/
def atDocumentEdge : Read Bool := do
  match ← peek with
  | .directive _ => return true
  | .documentStart => return true
  | .documentEnd => return true
  | .streamEnd => return true
  | _ => return false

/-- Move past markers of a document's end. -/
def skipEnds : Nat → Read Unit
  | 0 => return ()
  | fuel + 1 => do if ← accept .documentEnd then skipEnds fuel

/-- Read the only document of a stream; an empty stream has none. -/
def document (fuel : Nat) : Read (Option Node) := do
  if ← isNext [.streamEnd] then return none
  let tree ←
    if !(← atDocumentEdge) ∨ (← isNext [.documentEnd]) then
      modify fun r => { r with handles := standardHandles }
      node true false fuel
    else
      directives fuel false
      modify fun r => { r with handles := r.handles ++ standardHandles }
      expect .documentStart
      if ← atDocumentEdge then pure emptyNode else node true false fuel
  skipEnds fuel
  expect .streamEnd
  return some tree

end Read

/-- The tree of a text that holds at most one document. -/
def readTree (t : Text) : Except Problem (Option Node) := do
  let tokens ← tokens t
  let (tree, _) ← (Read.document (4 * tokens.length + 4)).run ⟨tokens, [], []⟩
  return tree

end PrototypeGate.Yaml

import PrototypeGate.Text.Utf8
import PrototypeGate.Outer.Yaml.Scalar
import PrototypeGate.Outer.Yaml.Token

/-!
# Reading tokens

The lexer turns a document into tokens. In block context it compares the column of each
token with the indentation of the open collections. A token that may turn out to be a
key is remembered until a colon follows it on the same line; only then the token that
announces a key, and the start of a mapping if need be, are put before it.
-/

namespace PrototypeGate.Yaml

/-- A token that is a key if a colon follows it. -/
structure PossibleKey where
  /-- Nesting of flow collections around the token. -/
  level : Nat
  /-- Number of tokens before it. -/
  position : Nat
  /-- Whether nothing but a key can stand here. -/
  required : Bool
  /-- Number of characters before it. -/
  index : Nat
  /-- Its line. -/
  line : Nat
  /-- Its column. -/
  column : Nat

/-- State of the lexer between two tokens. -/
structure Lexer where
  /-- The place in the document. -/
  cursor : Cursor
  /-- Number of open flow collections. -/
  level : Nat
  /-- Columns of the open block collections, innermost first. -/
  indents : List Nat
  /-- Whether a key may begin here. -/
  allowsKey : Bool
  /-- The tokens that may turn out to be keys. -/
  keys : List PossibleKey
  /-- The tokens read so far. -/
  tokens : List Token
  /-- Whether the end of the document has been reached. -/
  done : Bool

namespace Lexer

/-- The lexer at the start of a document. -/
def start (t : Text) : Lexer :=
  ⟨.start t, 0, [], true, [], [], false⟩

/-- Column of the innermost block collection; minus one outside of all. -/
def indent (lx : Lexer) : Int :=
  match lx.indents with
  | [] => -1
  | column :: _ => column

/-- Whether a flow collection is open. -/
def inFlow (lx : Lexer) : Bool := lx.level != 0

/-- Append a token. -/
def push (lx : Lexer) (token : Token) : Lexer :=
  { lx with tokens := lx.tokens ++ [token] }

/-- Append a token and move past its characters. -/
def pushSkip (lx : Lexer) (token : Token) (width : Nat) : Lexer :=
  { lx with tokens := lx.tokens ++ [token], cursor := lx.cursor.skip width }

/-- Close the block collections that are indented beyond a column. -/
def unwind (lx : Lexer) (column : Int) : Lexer :=
  if lx.inFlow then lx
  else
    let isDeeper := fun (i : Nat) => decide (column < (i : Int))
    let closed := lx.indents.takeWhile isDeeper
    { lx with
      indents := lx.indents.dropWhile isDeeper
      tokens := lx.tokens ++ closed.map fun _ => Token.blockEnd }

/-- Open a block collection at a column, if that is a deeper indentation. The token that
opens it is put before the token at a position. -/
def openBlock (lx : Lexer) (column position : Nat) (opening : Token) : Lexer :=
  if lx.indent < column then
    { lx with
      indents := column :: lx.indents
      tokens := lx.tokens.take position ++ opening :: lx.tokens.drop position }
  else lx

/-- Forget the possible keys that lie too far back. -/
def dropStaleKeys (lx : Lexer) : Except Problem Lexer :=
  let isStale := fun (k : PossibleKey) =>
    k.line != lx.cursor.line || decide (1024 < lx.cursor.index - k.index)
  if lx.keys.any fun k => isStale k && k.required then .error .malformed
  else .ok { lx with keys := lx.keys.filter (!isStale ·) }

/-- Forget the possible key on the current level. -/
def dropKey (lx : Lexer) : Except Problem Lexer :=
  if lx.keys.any fun k => k.level == lx.level && k.required then .error .malformed
  else .ok { lx with keys := lx.keys.filter (·.level != lx.level) }

/-- Remember that the next token may be a key. -/
def saveKey (lx : Lexer) : Except Problem Lexer := do
  if lx.allowsKey then
    let dropped ← lx.dropKey
    let c := lx.cursor
    let required := !lx.inFlow && lx.indent == c.column
    return { dropped with
      keys := ⟨lx.level, lx.tokens.length, required, c.index, c.line, c.column⟩ :: dropped.keys }
  else return lx

/-- Skip white space and comments. In block context a key may begin on a new line. -/
def skipGap (lx : Lexer) : Nat → Lexer
  | 0 => lx
  | fuel + 1 =>
    let c := (lx.cursor.skipWhile (· == ' ')).skipComment
    if c.atBreak then
      skipGap { lx with
        cursor := c.lineBreak.2
        allowsKey := lx.allowsKey || !lx.inFlow } fuel
    else { lx with cursor := c }

/-! ### Tokens of the document -/

/-- Characters of anchors and directive names. -/
def isNameChar (c : Char) : Bool :=
  c.isAlphanum || c == '-' || c == '_'

/-- Characters of tags, besides the percent sign of an escape. -/
def isTagChar (c : Char) : Bool :=
  c.isAlphanum || ['-', ';', '/', '?', ':', '@', '&', '=', '+', '$', ',', '_', '.', '!', '~', '*',
    '\'', '(', ')', '[', ']'].contains c

/-- The bytes of a run of percent escapes, and what follows them. -/
def percentBytes : Text → Except Problem (List UInt8 × Text)
  | '%' :: a :: b :: rest => do
    match hexNumber? [a, b] with
    | some n =>
      let (bytes, after) ← percentBytes rest
      return (n.toUInt8 :: bytes, after)
    | none => throw .malformed
  | '%' :: _ => .error .malformed
  | t => .ok ([], t)

/-- Read the text of a tag. -/
def tagText : Nat → Text → Text → Except Problem (Text × Text)
  | 0, text, t => .ok (text, t)
  | fuel + 1, text, t =>
    match t with
    | '%' :: _ => do
      let (bytes, after) ← percentBytes t
      match Utf8.decodeStrict? bytes with
      | some decoded => tagText fuel (text ++ decoded) after
      | none => throw .malformed
    | c :: rest =>
      if isTagChar c then tagText fuel (text ++ [c]) rest else .ok (text, t)
    | [] => .ok (text, [])

/-- Read the text of a tag at a place; it must not be empty. -/
def readTagText (c : Cursor) : Except Problem (Text × Cursor) := do
  let (text, rest) ← tagText (c.rest.length + 1) [] c.rest
  let width := c.rest.length - rest.length
  if width = 0 then throw .malformed
  return (text, c.skip width)

/-- Read a tag handle, a name between exclamation marks. -/
def readHandle (c : Cursor) : Except Problem (Text × Cursor) := do
  if !c.sees '!' then throw .malformed
  if c.peek 1 == some ' ' then return (['!'], c.next)
  let name := c.next.takeWhile isNameChar
  let after := c.skip (name.length + 1)
  if !after.sees '!' then throw .malformed
  return ('!' :: name ++ ['!'], after.next)

/-- Whether a space or the end of the line is next. -/
def endsHere (c : Cursor) : Bool :=
  atEndOr (fun d => d == ' ' || isBreak d) (c.peek 0)

/-- Read one of the two numbers of a version. -/
def readNumber (c : Cursor) : Except Problem (Nat × Cursor) := do
  let digits := c.takeWhile Char.isDigit
  if digits = [] then throw .malformed
  return (digits.foldl (fun n d => 10 * n + (d.toNat - 0x30)) 0, c.skip digits.length)

/-- Read what a directive says after its name. -/
def readDirectiveValue (name : Text) (c : Cursor) : Except Problem (Directive × Cursor) := do
  let value := c.skipWhile (· == ' ')
  if name == "YAML".toList then
    let (major, afterMajor) ← readNumber value
    if !afterMajor.sees '.' then throw .malformed
    let (minor, after) ← readNumber afterMajor.next
    if !endsHere after then throw .malformed
    return (.version major minor, after)
  else if name == "TAG".toList then
    let (handle, afterHandle) ← readHandle value
    if !afterHandle.sees ' ' then throw .malformed
    let (replacement, after) ← readTagText (afterHandle.skipWhile (· == ' '))
    if !endsHere after then throw .malformed
    return (.handle handle replacement, after)
  else return (.reserved, c.skipWhile (!isBreak ·))

/-- Read a directive. -/
def directive (lx : Lexer) : Except Problem Lexer := do
  let lx ← (lx.unwind (-1)).dropKey
  let start := lx.cursor.next
  let name := start.takeWhile isNameChar
  let afterName := start.skip name.length
  if name = [] ∨ !endsHere afterName then throw .malformed
  let (value, afterValue) ← readDirectiveValue name afterName
  let ended := (afterValue.skipWhile (· == ' ')).skipComment
  if !atEndOr isBreak (ended.peek 0) then throw .malformed
  return { lx with
    cursor := ended.lineBreak.2
    allowsKey := false
    tokens := lx.tokens ++ [.directive value] }

/-- Read the marker of a document's start or end. -/
def documentMarker (lx : Lexer) (token : Token) : Except Problem Lexer := do
  let lx ← (lx.unwind (-1)).dropKey
  return { lx with allowsKey := false }.pushSkip token 3

/-- Reach the end of the document. -/
def streamEnd (lx : Lexer) : Except Problem Lexer := do
  let lx ← (lx.unwind (-1)).dropKey
  return { lx with done := true }.push .streamEnd

/-- Open a flow collection. It may itself be a key. -/
def openFlow (lx : Lexer) (token : Token) : Except Problem Lexer := do
  let lx ← lx.saveKey
  return { lx with level := lx.level + 1, allowsKey := true }.pushSkip token 1

/-- Close a flow collection. -/
def closeFlow (lx : Lexer) (token : Token) : Except Problem Lexer := do
  let lx ← lx.dropKey
  if lx.level = 0 then throw .malformed
  return { lx with level := lx.level - 1, allowsKey := false }.pushSkip token 1

/-- Read the comma between entries of a flow collection. -/
def flowEntry (lx : Lexer) : Except Problem Lexer := do
  let lx ← lx.dropKey
  return { lx with allowsKey := true }.pushSkip .flowEntry 1

/-- Read the dash before an entry of a block sequence. -/
def blockEntry (lx : Lexer) : Except Problem Lexer := do
  if !lx.inFlow && !lx.allowsKey then throw .malformed
  let lx :=
    if lx.inFlow then lx
    else lx.openBlock lx.cursor.column lx.tokens.length .blockSequenceStart
  let lx ← lx.dropKey
  return { lx with allowsKey := true }.pushSkip .blockEntry 1

/-- Read the question mark before a key. -/
def explicitKey (lx : Lexer) : Except Problem Lexer := do
  if !lx.inFlow && !lx.allowsKey then throw .malformed
  let lx :=
    if lx.inFlow then lx
    else lx.openBlock lx.cursor.column lx.tokens.length .blockMappingStart
  let lx ← lx.dropKey
  return { lx with allowsKey := !lx.inFlow }.pushSkip .key 1

/-- Read the colon before a value. If a possible key precedes it, that is the key. -/
def value (lx : Lexer) : Except Problem Lexer := do
  match lx.keys.find? (·.level == lx.level) with
  | some key =>
    let lx := { lx with
      keys := lx.keys.filter (·.level != lx.level)
      allowsKey := false
      tokens := lx.tokens.take key.position ++ Token.key :: lx.tokens.drop key.position }
    let lx := if lx.inFlow then lx else lx.openBlock key.column key.position .blockMappingStart
    return lx.pushSkip .value 1
  | none =>
    if !lx.inFlow && !lx.allowsKey then throw .malformed
    let lx :=
      if lx.inFlow then lx
      else lx.openBlock lx.cursor.column lx.tokens.length .blockMappingStart
    let lx ← lx.dropKey
    return { lx with allowsKey := !lx.inFlow }.pushSkip .value 1

/-- Read the name of an anchor, or of a reference to one. -/
def anchorName (lx : Lexer) (token : Text → Token) : Except Problem Lexer := do
  let lx ← lx.saveKey
  let name := lx.cursor.next.takeWhile isNameChar
  let after := lx.cursor.skip (name.length + 1)
  let closing := fun (c : Char) =>
    isSpace c || ['?', ':', ',', ']', '}', '%', '@', '\u0060'].contains c
  if name = [] ∨ !atEndOr closing (after.peek 0) then throw .malformed
  return { lx with allowsKey := false, cursor := after }.push (token name)

/-- Read a tag. -/
def tag (lx : Lexer) : Except Problem Lexer := do
  let lx ← lx.saveKey
  let c := lx.cursor
  let (handle, suffix, after) ←
    if c.peek 1 == some '<' then do
      let (text, after) ← readTagText (c.skip 2)
      if !after.sees '>' then throw .malformed
      pure (none, text, after.next)
    else if atEndOr isSpace (c.peek 1) then pure (none, ['!'], c.next)
    else if (c.next.takeWhile fun d => d != ' ' && !isBreak d).contains '!' then do
      let (handle, afterHandle) ← readHandle c
      let (text, after) ← readTagText afterHandle
      pure (some handle, text, after)
    else do
      let (text, after) ← readTagText c.next
      pure (some ['!'], text, after)
  if !endsHere after then throw .malformed
  return { lx with allowsKey := false, cursor := after }.push (.tag handle suffix)

/-- Read a block scalar. -/
def block (lx : Lexer) (folded : Bool) : Except Problem Lexer := do
  let lx ← lx.dropKey
  let (text, after) ← readBlock folded lx.indent lx.cursor
  return { lx with allowsKey := true, cursor := after }.push (.scalar text false)

/-- Read a quoted scalar. -/
def quotedScalar (lx : Lexer) (mark : Char) : Except Problem Lexer := do
  let lx ← lx.saveKey
  let (text, after) ← readQuoted mark lx.cursor
  return { lx with allowsKey := false, cursor := after }.push (.scalar text false)

/-- Read a plain scalar. A key may follow it if it ends at the beginning of a line. -/
def plainScalar (lx : Lexer) : Except Problem Lexer := do
  let lx ← lx.saveKey
  let (text, after, fresh) := readPlain lx.inFlow (lx.indent + 1).toNat lx.cursor
  return { lx with allowsKey := fresh, cursor := after }.push (.scalar text true)

/-- Characters that begin no plain scalar. -/
def isIndicator (c : Char) : Bool :=
  isSpace c || ['-', '?', ':', ',', '[', ']', '{', '}', '#', '&', '*', '!', '|', '>', '\'', '"',
    '%', '@', '\u0060'].contains c

/-- Read the token that begins with a character. -/
def readToken (lx : Lexer) (c : Char) : Except Problem Lexer :=
  let atLineStart := lx.cursor.column == 0
  let standsAlone := atEndOr isSpace (lx.cursor.peek 1)
  if c = '%' && atLineStart then lx.directive
  else if atLineStart && lx.cursor.atMarker '-' then lx.documentMarker .documentStart
  else if atLineStart && lx.cursor.atMarker '.' then lx.documentMarker .documentEnd
  else if c = '[' then lx.openFlow .flowSequenceStart
  else if c = '{' then lx.openFlow .flowMappingStart
  else if c = ']' then lx.closeFlow .flowSequenceEnd
  else if c = '}' then lx.closeFlow .flowMappingEnd
  else if c = ',' then lx.flowEntry
  else if c = '-' && standsAlone then lx.blockEntry
  else if c = '?' && (lx.inFlow || standsAlone) then lx.explicitKey
  else if c = ':' && (lx.inFlow || standsAlone) then lx.value
  else if c = '*' then lx.anchorName .reference
  else if c = '&' then lx.anchorName .anchor
  else if c = '!' then lx.tag
  else if c = '|' && !lx.inFlow then lx.block false
  else if c = '>' && !lx.inFlow then lx.block true
  else if c = '\'' || c = '"' then lx.quotedScalar c
  else if !isIndicator c ||
      (!standsAlone && (c = '-' || (!lx.inFlow && (c = '?' || c = ':')))) then lx.plainScalar
  else .error .malformed

/-- Read one token, or more where collections close. -/
def step (lx : Lexer) : Except Problem Lexer := do
  let cursor :=
    if lx.cursor.index = 0 ∧ lx.cursor.sees '\ufeff' then lx.cursor.next else lx.cursor
  let lx ← ({ lx with cursor }.skipGap (lx.cursor.rest.length + 1)).dropStaleKeys
  let lx := lx.unwind lx.cursor.column
  match lx.cursor.rest with
  | [] => lx.streamEnd
  | c :: _ => lx.readToken c

/-- Read all tokens. -/
def run : Nat → Lexer → Except Problem (List Token)
  | 0, _ => .error .malformed
  | fuel + 1, lx => do
    let next ← lx.step
    if next.done then return next.tokens else run fuel next

end Lexer

/-- The tokens of a document. -/
def tokens (t : Text) : Except Problem (List Token) :=
  if t.all isAllowed then Lexer.run (t.length + 2) (.start t) else .error .malformed

end PrototypeGate.Yaml

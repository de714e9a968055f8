import PrototypeGate.Outer.Yaml.Cursor
import PrototypeGate.Outer.Yaml.Problem

/-!
# Scalars

The three ways to write a scalar: plain, quoted, and as an indented block. A line break
inside a plain or quoted scalar folds into a space, and further blank lines stay line
breaks; a block keeps its line breaks or folds them, as its header says.
-/

namespace PrototypeGate.Yaml

/-- The text that a line break and the blank lines after it stand for. -/
def foldBreaks (first blanks : Text) : Text :=
  if first ≠ ['\n'] then first ++ blanks
  else if blanks = [] then [' ']
  else blanks

/-! ### Plain scalars -/

/-- Brackets and commas, which end a plain scalar inside a flow collection. -/
def isFlowMark (c : Char) : Bool :=
  c == ',' || c == '[' || c == ']' || c == '{' || c == '}'

/-- The longest start of the text that continues a plain scalar on one line. -/
def plainRun (flow : Bool) : Text → Text
  | [] => []
  | c :: rest =>
    if isSpace c then []
    else if c == ':' && atEndOr (fun d => isSpace d || (flow && isFlowMark d)) rest.head? then []
    else if flow && (isFlowMark c || c == '?') then []
    else c :: plainRun flow rest

/-- The blank lines within a plain scalar, or `none` before a document marker. -/
def plainBlanks : Nat → Cursor → Text → Option Text × Cursor
  | 0, c, blanks => (some blanks, c)
  | fuel + 1, c, blanks =>
    if c.sees ' ' then plainBlanks fuel c.next blanks
    else if c.atBreak then
      let (br, after) := c.lineBreak
      if after.atDocumentMarker then (none, after)
      else plainBlanks fuel after (blanks ++ br)
    else (some blanks, c)

/-- The white space within a plain scalar, and whether it crosses a line break. It is
empty where the scalar ends. -/
def plainGap (c : Cursor) : Text × Cursor × Bool :=
  let spaces := c.takeWhile (· == ' ')
  let after := c.skip spaces.length
  if after.atBreak then
    let (first, next) := after.lineBreak
    if next.atDocumentMarker then ([], next, true)
    else
      match plainBlanks (next.rest.length + 1) next [] with
      | (some blanks, last) => (foldBreaks first blanks, last, true)
      | (none, last) => ([], last, true)
  else (spaces, after, false)

/-- Read a plain scalar on from a place. The result tells whether the scalar ends at the
beginning of a line. -/
def plainFrom (flow : Bool) (indent : Nat) :
    Nat → Cursor → Text → Text → Bool → Text × Cursor × Bool
  | 0, c, _, text, fresh => (text, c, fresh)
  | fuel + 1, c, gap, text, fresh =>
    let run := if c.sees '#' then [] else plainRun flow c.rest
    if run = [] then (text, c, fresh)
    else
      let (nextGap, after, crossed) := plainGap (c.skip run.length)
      let read := text ++ gap ++ run
      if nextGap = [] ∨ after.sees '#' ∨ (!flow && decide (after.column < indent)) then
        (read, after, crossed)
      else plainFrom flow indent fuel after nextGap read crossed

/-- Read a plain scalar whose continuation lines are indented to a column. -/
def readPlain (flow : Bool) (indent : Nat) (c : Cursor) : Text × Cursor × Bool :=
  plainFrom flow indent (c.rest.length + 1) c [] [] false

/-! ### Quoted scalars -/

/-- The character that a one-letter escape stands for. -/
def simpleEscape? (c : Char) : Option Char :=
  match c with
  | '0' => some '\x00'
  | 'a' => some '\x07'
  | 'b' => some '\x08'
  | 't' => some '\t'
  | '\t' => some '\t'
  | 'n' => some '\n'
  | 'v' => some '\x0b'
  | 'f' => some '\x0c'
  | 'r' => some '\r'
  | 'e' => some '\x1b'
  | ' ' => some ' '
  | '"' => some '"'
  | '\\' => some '\\'
  | '/' => some '/'
  | 'N' => some '\u0085'
  | '_' => some '\u00a0'
  | 'L' => some '\u2028'
  | 'P' => some '\u2029'
  | _ => none

/-- Number of hexadecimal digits after the letter of an escape. -/
def codeEscape? (c : Char) : Option Nat :=
  match c with
  | 'x' => some 2
  | 'u' => some 4
  | 'U' => some 8
  | _ => none

/-- The value of a hexadecimal digit. -/
def hexValue? (c : Char) : Option Nat :=
  if c.isDigit then some (c.toNat - 0x30)
  else if 'a' ≤ c ∧ c ≤ 'f' then some (c.toNat - 0x61 + 10)
  else if 'A' ≤ c ∧ c ≤ 'F' then some (c.toNat - 0x41 + 10)
  else none

/-- The number that hexadecimal digits stand for. -/
def hexNumber? (digits : Text) : Option Nat :=
  digits.foldlM (fun n c => (hexValue? c).map (16 * n + ·)) 0

/-- The blank lines within a quoted scalar. -/
def quotedBlanks : Nat → Cursor → Text → Except Problem (Text × Cursor)
  | 0, c, blanks => .ok (blanks, c)
  | fuel + 1, c, blanks =>
    if c.atDocumentMarker then .error .malformed
    else
      let after := c.skipWhile fun d => d == ' ' || d == '\t'
      if after.atBreak then
        let (br, next) := after.lineBreak
        quotedBlanks fuel next (blanks ++ br)
      else .ok (blanks, after)

/-- Read an escape after its backslash. -/
def readEscape (c : Cursor) : Except Problem (Text × Cursor) :=
  match c.rest with
  | [] => .error .malformed
  | d :: rest =>
    match simpleEscape? d, codeEscape? d with
    | some e, _ => .ok ([e], c.next)
    | none, some width =>
      match hexNumber? (rest.take width) with
      | some code =>
        if rest.length < width then .error .malformed
        else if code < 0x110000 then .ok ([Char.ofNat code], c.skip (width + 1))
        else .error (.codePoint code)
      | none => .error .malformed
    | none, none =>
      if isBreak d then quotedBlanks (c.rest.length + 1) c.next []
      else .error .malformed

/-- Read a quoted scalar on from a place, up to its closing quote. The text so far comes
last character first. -/
def quotedFrom (mark : Char) : Nat → Cursor → Text → Except Problem (Text × Cursor)
  | 0, _, _ => .error .malformed
  | fuel + 1, c, text =>
    match c.rest with
    | [] => .error .malformed
    | d :: rest =>
      if d = '\'' ∧ mark = '\'' ∧ rest.head? = some '\'' then
        quotedFrom mark fuel (c.skip 2) (d :: text)
      else if d = mark then .ok (text.reverse, c.next)
      else if d = '\\' ∧ mark = '"' then do
        let (escaped, after) ← readEscape c.next
        quotedFrom mark fuel after (escaped.reverse ++ text)
      else if isSpace d then do
        let spaces := c.takeWhile fun e => e == ' ' || e == '\t'
        let after := c.skip spaces.length
        if after.rest = [] then .error .malformed
        else if after.atBreak then
          let (first, next) := after.lineBreak
          let (blanks, last) ← quotedBlanks (next.rest.length + 1) next []
          quotedFrom mark fuel last ((foldBreaks first blanks).reverse ++ text)
        else quotedFrom mark fuel after (spaces.reverse ++ text)
      else quotedFrom mark fuel c.next (d :: text)

/-- Read a quoted scalar that begins with its opening quote. -/
def readQuoted (mark : Char) (c : Cursor) : Except Problem (Text × Cursor) :=
  quotedFrom mark (c.rest.length + 1) c.next []

/-! ### Block scalars -/

/-- What a block does with the line breaks at its end. -/
inductive Chomping where
  /-- Keep the last line break. -/
  | clip
  /-- Drop all line breaks at the end. -/
  | drop
  /-- Keep all line breaks at the end. -/
  | keep
  deriving DecidableEq, Repr

/-- The chomping that a character of a block's header asks for. -/
def chomping? (c : Option Char) : Option Chomping :=
  match c with
  | some '+' => some .keep
  | some '-' => some .drop
  | _ => none

/-- The indentation that a character of a block's header asks for. -/
def increment? (c : Option Char) : Option Nat :=
  c.bind fun d => if d.isDigit then some (d.toNat - 0x30) else none

/-- Read the header of a block after its first character. -/
def blockHeader (c : Cursor) : Except Problem (Chomping × Option Nat × Cursor) := do
  let (chomping, increment, after) :=
    match chomping? (c.peek 0), increment? (c.peek 0) with
    | some chomping, _ =>
      match increment? (c.peek 1) with
      | some n => (chomping, some n, c.skip 2)
      | none => (chomping, none, c.next)
    | none, some n =>
      match chomping? (c.peek 1) with
      | some chomping => (chomping, some n, c.skip 2)
      | none => (.clip, some n, c.next)
    | none, none => (.clip, none, c)
  if increment = some 0 ∨ !atEndOr (fun d => d == ' ' || isBreak d) (after.peek 0) then
    throw .malformed
  let ended := (after.skipWhile (· == ' ')).skipComment
  if !atEndOr isBreak (ended.peek 0) then throw .malformed
  return (chomping, increment, ended.lineBreak.2)

/-- The blank lines before a block's first line, and the widest indentation seen. -/
def blockIndentation : Nat → Cursor → Text → Nat → Text × Nat × Cursor
  | 0, c, breaks, widest => (breaks, widest, c)
  | fuel + 1, c, breaks, widest =>
    if c.sees ' ' then blockIndentation fuel c.next breaks (max widest c.next.column)
    else if c.atBreak then
      let (br, after) := c.lineBreak
      blockIndentation fuel after (breaks ++ br) widest
    else (breaks, widest, c)

/-- The blank lines within a block of a given indentation. -/
def blockBreaks (indent : Nat) : Nat → Cursor → Text → Text × Cursor
  | 0, c, breaks => (breaks, c)
  | fuel + 1, c, breaks =>
    let after := c.skipSpaces indent
    if after.atBreak then
      let (br, next) := after.lineBreak
      blockBreaks indent fuel next (breaks ++ br)
    else (breaks, after)

/-- Read the lines of a block. The result is the text, the last line break, the blank
lines after it and the place where the block ends. -/
def blockLines (folded : Bool) (indent : Nat) :
    Nat → Cursor → Text → Text → Text → Text × Text × Text × Cursor
  | 0, c, breaks, text, last => (text, last, breaks, c)
  | fuel + 1, c, breaks, text, last =>
    if c.column = indent ∧ c.rest ≠ [] then
      let isText := fun (d : Option Char) => !d.any fun e => e == ' ' || e == '\t'
      let line := c.takeWhile (!isBreak ·)
      let (br, after) := (c.skip line.length).lineBreak
      let (nextBreaks, next) := blockBreaks indent (after.rest.length + 1) after []
      let read := text ++ breaks ++ line
      if next.column = indent ∧ next.rest ≠ [] then
        let joint :=
          if folded && br == ['\n'] && isText (c.peek 0) && isText (next.peek 0) then
            if nextBreaks = [] then [' '] else []
          else br
        blockLines folded indent fuel next nextBreaks (read ++ joint) br
      else (read, br, nextBreaks, next)
    else (text, last, breaks, c)

/-- Read a block scalar inside a collection of a given indentation. -/
def readBlock (folded : Bool) (parent : Int) (c : Cursor) : Except Problem (Text × Cursor) := do
  let (chomping, increment, body) ← blockHeader c.next
  let least := (max (parent + 1) 1).toNat
  let fuel := body.rest.length + 1
  let (indent, breaks, first) :=
    match increment with
    | some n =>
      let indent := least + n - 1
      let (breaks, first) := blockBreaks indent fuel body []
      (indent, breaks, first)
    | none =>
      let (breaks, widest, first) := blockIndentation fuel body [] 0
      (max least widest, breaks, first)
  let (text, last, blanks, after) := blockLines folded indent fuel first breaks [] []
  let ending := match chomping with
    | .clip => last
    | .drop => []
    | .keep => last ++ blanks
  return (text ++ ending, after)

end PrototypeGate.Yaml

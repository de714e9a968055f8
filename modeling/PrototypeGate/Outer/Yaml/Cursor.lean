import PrototypeGate.Text.Blank

/-!
# Reading position

A cursor is the text that is still to be read together with its place: how many
characters precede it, and on which line and in which column it begins.
-/

namespace PrototypeGate.Yaml

/-- Characters that a document may hold. -/
def isAllowed (c : Char) : Bool :=
  c == '\t' || c == '\n' || c == '\r' || (0x20 ≤ c.toNat && c.toNat ≤ 0x7e) ||
    c.toNat == 0x85 || (0xa0 ≤ c.toNat && c.toNat ≤ 0xfffd) || 0x10000 ≤ c.toNat

/-- Characters that end a line. -/
def isBreak (c : Char) : Bool :=
  c == '\n' || c == '\r' || c.toNat == 0x85 || c.toNat == 0x2028 || c.toNat == 0x2029

/-- Spaces, tabs and the ends of lines. -/
def isSpace (c : Char) : Bool :=
  c == ' ' || c == '\t' || isBreak c

/-- Whether a character, if there is one, meets the condition; the end of the text
always does. -/
def atEndOr (p : Char → Bool) (c : Option Char) : Bool :=
  c.all p

/-- A place in a document. -/
structure Cursor where
  /-- The text that is still to be read. -/
  rest : Text
  /-- Number of characters before it. -/
  index : Nat
  /-- Number of lines before it. -/
  line : Nat
  /-- Number of characters before it on its line. -/
  column : Nat

namespace Cursor

/-- The start of a document. -/
def start (t : Text) : Cursor := ⟨t, 0, 0, 0⟩

/-- The character some places ahead. -/
def peek (c : Cursor) (offset : Nat) : Option Char :=
  c.rest[offset]?

/-- Whether the next character is the given one. -/
def sees (c : Cursor) (ch : Char) : Bool :=
  c.rest.head? == some ch

/-- Move past one character. A byte order mark takes no column. -/
def next (c : Cursor) : Cursor :=
  match c.rest with
  | [] => c
  | ch :: rest =>
    if isBreak ch then ⟨rest, c.index + 1, c.line + 1, 0⟩
    else ⟨rest, c.index + 1, c.line, if ch.toNat = 0xfeff then c.column else c.column + 1⟩

/-- Move past a number of characters. -/
def skip (c : Cursor) : Nat → Cursor
  | 0 => c
  | n + 1 => c.next.skip n

/-- Move past the characters that meet a condition. -/
def skipWhile (c : Cursor) (p : Char → Bool) : Cursor :=
  c.skip (c.rest.takeWhile p).length

/-- The characters ahead that meet a condition. -/
def takeWhile (c : Cursor) (p : Char → Bool) : Text :=
  c.rest.takeWhile p

/-- Move past spaces, but not beyond a column. -/
def skipSpaces (c : Cursor) (limit : Nat) : Cursor :=
  c.skip ((c.rest.takeWhile (· == ' ')).take (limit - c.column)).length

/-- Move past a comment, up to the end of its line. -/
def skipComment (c : Cursor) : Cursor :=
  if c.sees '#' then c.skipWhile (!isBreak ·) else c

/-- Move past an end of line and give the line break it stands for. -/
def lineBreak (c : Cursor) : Text × Cursor :=
  match c.rest with
  | [] => ([], c)
  | ch :: _ =>
    if isBreak ch then
      ([if ch.toNat = 0x2028 ∨ ch.toNat = 0x2029 then ch else '\n'], c.next)
    else ([], c)

/-- Whether the end of a line is next. -/
def atBreak (c : Cursor) : Bool :=
  c.rest.head?.any isBreak

/-- Whether the text ahead is a document marker of three equal characters. -/
def atMarker (c : Cursor) (ch : Char) : Bool :=
  c.rest.take 3 == [ch, ch, ch] && atEndOr isSpace (c.peek 3)

/-- Whether the text ahead is the marker of a document's start or end. -/
def atDocumentMarker (c : Cursor) : Bool :=
  c.atMarker '-' || c.atMarker '.'

end Cursor

end PrototypeGate.Yaml

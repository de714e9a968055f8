import PrototypeGate.Text.Ranges

/-!
# Blank characters

White space, trimming, and the collapse of inner white space. All text that the
checker scans is a list of characters, so that a scan is a recursion on the list.
-/

namespace PrototypeGate

/-- Text under scan. -/
abbrev Text := List Char

/-- Code points of the white-space characters. -/
def blankRanges : List (Nat × Nat) := [
  (0x09, 0x0d), (0x1c, 0x20), (0x85, 0x85), (0xa0, 0xa0), (0x1680, 0x1680),
  (0x2000, 0x200a), (0x2028, 0x2029), (0x202f, 0x202f), (0x205f, 0x205f), (0x3000, 0x3000)]

/-- Whether the character is white space. -/
def isBlank (c : Char) : Bool :=
  inRanges blankRanges c

namespace Text

/-- Drop the leading white space. -/
def trimLeft (t : Text) : Text :=
  t.dropWhile isBlank

/-- Drop the trailing white space. -/
def trimRight (t : Text) : Text :=
  (t.reverse.dropWhile isBlank).reverse

/-- Drop the white space at both ends. -/
def trim (t : Text) : Text :=
  trimRight (trimLeft t)

/-- Replace each run of white space by a single space. -/
def collapse : Text → Text
  | [] => []
  | c :: rest =>
    if isBlank c then
      if rest.head?.any isBlank then collapse rest else ' ' :: collapse rest
    else c :: collapse rest

/-- Number of line feeds in the text. -/
def newlines (t : Text) : Nat :=
  t.count '\n'

end Text

end PrototypeGate

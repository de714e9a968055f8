import PrototypeGate.Declaration.Header

/-!
# Classification of lines

A line of the normalized stream is a prototype, a definition header, or neither. The
text of a prototype ends before its semicolon, so that it can be compared with the
header of the definition.
-/

namespace PrototypeGate

/-- The two kinds of declaration. -/
inductive Kind where
  | prototype
  | definition
  deriving DecidableEq, Repr

/-- A declaration found on a line: its kind and its text. -/
structure Declaration where
  /-- Prototype or definition. -/
  kind : Kind
  /-- The declaration without the semicolon of a prototype. -/
  text : Text
  deriving DecidableEq, Repr

/-- Whether a word ends between the two characters, `none` standing for an end of the
line. -/
def isBoundary (left right : Option Char) : Bool :=
  left.any isWord != right.any isWord

/-- Whether the line begins with the keyword and a word ends there. The empty keyword
begins no line. -/
def beginsWith (line keyword : Text) : Bool :=
  keyword ≠ [] && keyword.isPrefixOf line &&
    isBoundary keyword.getLast? (line.drop keyword.length).head?

/-- Words that begin a statement and never a prototype. -/
def statementWords : List Text :=
  ["return".toList, "else".toList]

/-- Whether the line cannot hold a prototype because of the word it begins with. -/
def excludesPrototype (keywords : List Text) (line : Text) : Bool :=
  (statementWords ++ keywords).any (beginsWith line)

/-- Whether the line cannot hold a definition because of the word it begins with. -/
def excludesDefinition (line : Text) : Bool :=
  beginsWith line "else".toList

/-- Classify a trimmed line that is no location marker. A line on which a prototype is
found but excluded is neither. -/
def classify (keywords : List Text) (line : Text) : Option Declaration :=
  match Header.search? line with
  | some (before, header, _) =>
    if excludesPrototype keywords line then none
    else some ⟨.prototype, Text.trimRight (before ++ header.text)⟩
  | none =>
    if line.contains ';' || excludesDefinition line then none
    else (Header.ofLine? line).map fun _ => ⟨.definition, line⟩

/-- The name under which a declaration is filed: the text before the first parenthesis,
from its last white space or star on. -/
def declaredName (text : Text) : Text :=
  let head := Text.trimRight (text.takeWhile (· ≠ '('))
  (head.reverse.takeWhile fun c => !isSeparator c).reverse

end PrototypeGate

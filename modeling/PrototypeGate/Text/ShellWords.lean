import PrototypeGate.Text.Blank

/-!
# Command strings

A command given as one string is split into words at blanks. Both kinds of quotes keep
blanks; a backslash protects the next character, within double quotes only a double
quote or another backslash.
-/

namespace PrototypeGate.ShellWords

/-- Why a command string cannot be split. -/
inductive Problem where
  /-- A quote is not closed. -/
  | openQuote
  /-- The string ends in a backslash that protects nothing. -/
  | openEscape
  deriving DecidableEq, Repr

/-- What is said of the problem. -/
def Problem.message : Problem → String
  | openQuote => "No closing quotation"
  | openEscape => "No escaped character"

/-- The characters that separate words. -/
def isGap (c : Char) : Bool :=
  c == ' ' || c == '\t' || c == '\r' || c == '\n'

/-- Where the splitter stands. -/
inductive Mode where
  /-- Outside quotes. -/
  | plain
  /-- Within quotes. -/
  | quote (mark : Char)
  /-- After a backslash outside quotes. -/
  | escape
  /-- After a backslash within double quotes. -/
  | quoteEscape
  deriving DecidableEq, Repr

/-- Split the rest of a command string. `word` is the word being read, last character
first; it is `none` between words. -/
def splitFrom : Mode → Option Text → Text → Except Problem (List Text)
  | .plain, word, [] => .ok (word.map List.reverse).toList
  | .quote _, _, [] => .error .openQuote
  | .escape, _, [] => .error .openEscape
  | .quoteEscape, _, [] => .error .openEscape
  | .plain, word, c :: rest =>
    if isGap c then
      (splitFrom .plain none rest).map fun words => (word.map List.reverse).toList ++ words
    else if c = '\\' then splitFrom .escape word rest
    else if c = '"' ∨ c = '\'' then splitFrom (.quote c) (some (word.getD [])) rest
    else splitFrom .plain (some (c :: word.getD [])) rest
  | .quote mark, word, c :: rest =>
    if c = mark then splitFrom .plain word rest
    else if c = '\\' ∧ mark = '"' then splitFrom .quoteEscape word rest
    else splitFrom (.quote mark) (some (c :: word.getD [])) rest
  | .escape, word, c :: rest => splitFrom .plain (some (c :: word.getD [])) rest
  | .quoteEscape, word, c :: rest =>
    let kept := if c = '"' ∨ c = '\\' then word.getD [] else '\\' :: word.getD []
    splitFrom (.quote '"') (some (c :: kept)) rest

/-- The words of a command string. -/
def split (command : String) : Except Problem (List String) :=
  (splitFrom .plain none command.toList).map fun words => words.map String.ofList

end PrototypeGate.ShellWords

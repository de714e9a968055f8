import PrototypeGate.Source.Comment
import PrototypeGate.Source.Literal

/-!
# Stripping a source

One pass over a source leaves the file-level declarations, one per line. Comments
become a space, literals keep only their quotes, and directives and everything
between file-level braces disappear. An opening brace at file level ends the line,
so a function header stands alone; a line feed inside open parentheses does not, so a
wrapped parameter list comes out on one line. White space collapses to single spaces.
-/

namespace PrototypeGate

/-- A stripped line and the number of the source line on which it begins. -/
structure Line where
  /-- Number of the source line, counted from one. -/
  number : Nat
  /-- The stripped text. -/
  text : Text
  deriving DecidableEq, Repr

/-- State of the scan between two elements of the source. -/
structure Scan where
  /-- Number of the current source line. -/
  line : Nat
  /-- Number of open braces. -/
  depth : Nat
  /-- Number of open parentheses on the line being built. -/
  parens : Nat
  /-- Whether the current source line has shown only white space so far. -/
  lineBlank : Bool
  /-- The line being built, last character first. -/
  pending : Text
  /-- Source line of the first character of the line being built that is not blank. -/
  start : Option Nat
  /-- The finished lines, last line first. -/
  emitted : List Line
  deriving DecidableEq, Repr

namespace Scan

/-- The state before the first character. -/
def initial : Scan :=
  ⟨1, 0, 0, true, [], none, []⟩

/-- Move on by a number of source lines. -/
def advance (s : Scan) (lines : Nat) : Scan :=
  { s with line := s.line + lines }

/-- Add a chunk to the line being built, unless a brace is open. -/
def put (s : Scan) (chunk : Text) : Scan :=
  if s.depth = 0 then
    { s with
      pending := chunk.reverse ++ s.pending
      start := s.start.or (if chunk.all isBlank then none else some s.line) }
  else s

/-- Finish the line being built; a blank one leaves no trace. -/
def flush (s : Scan) : Scan :=
  let text := Text.collapse (Text.trim s.pending.reverse)
  { s with
    emitted := if text = [] then s.emitted else ⟨s.start.getD s.line, text⟩ :: s.emitted
    pending := []
    start := none
    parens := 0 }

/-- A line feed ends the line being built, except inside parentheses, where it is a
space, and inside braces. -/
def newline (s : Scan) : Scan :=
  let next := { s with line := s.line + 1, lineBlank := true }
  if s.depth = 0 then
    if 0 < s.parens then next.put [' '] else next.flush
  else next

/-- An opening brace at file level ends the line being built. -/
def openBrace (s : Scan) : Scan :=
  let ended := if s.depth = 0 then s.flush else s
  { ended with depth := s.depth + 1 }

/-- A closing brace; at file level it is dropped. -/
def closeBrace (s : Scan) : Scan :=
  { s with depth := s.depth - 1 }

/-- An ordinary character. Parentheses are counted at file level only. -/
def character (s : Scan) (c : Char) : Scan :=
  let counted :=
    if s.depth = 0 then
      if c = '(' then { s with parens := s.parens + 1 }
      else if c = ')' then { s with parens := s.parens - 1 }
      else s
    else s
  counted.put [c]

/-- Scan the element that begins with `c` and return the state after it together with
the text that is left. -/
def step (s : Scan) (c : Char) (rest : Text) : Scan × Text :=
  if c = '\n' then (s.newline, rest)
  else
    let seen := { s with lineBlank := s.lineBlank && isBlank c }
    if c = '\\' ∧ rest.head? = some '\n' then
      ((seen.advance 1).put [' '], rest.tail)
    else if c = '/' ∧ rest.head? = some '*' then
      let comment := splitComment rest.tail
      ((seen.advance comment.1.newlines).put [' '], comment.2)
    else if c = '/' ∧ rest.head? = some '/' then
      (seen, rest.dropWhile (· ≠ '\n'))
    else if c = '"' ∨ c = '\'' then
      let literal := Literal.split c rest
      ((seen.advance literal.1.newlines).put [c, c], literal.2)
    else if c = '#' ∧ s.lineBlank then
      let directive := splitDirective false rest
      (seen.advance directive.1.newlines, directive.2)
    else if c = '{' then (seen.openBrace, rest)
    else if c = '}' then (seen.closeBrace, rest)
    else (seen.character c, rest)

/-- Every element takes at least its first character from the text. -/
theorem length_step_le (s : Scan) (c : Char) (rest : Text) :
    (s.step c rest).2.length ≤ rest.length := by
  have hcomment := length_splitComment_le rest.tail
  have hliteral := Literal.length_split_le c rest
  have hdirective := length_splitDirective_le false rest
  have hline := (List.dropWhile_suffix (· ≠ '\n') : _ <:+ rest).length_le
  have htail : rest.tail.length ≤ rest.length := by simp
  unfold step
  repeat' split
  all_goals first | exact Nat.le_refl _ | simp only; omega

/-- Scan a text to its end. -/
def run (s : Scan) : Text → Scan
  | [] => s
  | c :: rest =>
    let next := s.step c rest
    run next.1 next.2
termination_by t => t.length
decreasing_by
  have := length_step_le s c rest
  simp only [List.length_cons]
  omega

end Scan

/-- The stripped lines of a source text. -/
def strip (t : Text) : List Line :=
  (Scan.initial.run t).flush.emitted.reverse

end PrototypeGate

import PrototypeGate.Source.Scan
import PrototypeGate.Stream.Marker

/-!
# The normalized stream

A source enters the stream as its stripped lines. A location marker precedes a line
unless the line directly follows the one before it in the same source.
-/

namespace PrototypeGate

/-- A source file: its path and its text. -/
structure Source where
  /-- The path under which the file is reported. -/
  path : Text
  /-- The whole text of the file. -/
  text : Text
  deriving DecidableEq, Repr

/-- Put location markers between the lines of a source. The option holds the number
that the reader of the stream gives to the next line on its own. -/
def markLines (path : Text) : Option Nat → List Line → List Text
  | _, [] => []
  | expected, line :: rest =>
    let tail := line.text :: markLines path (some (line.number + 1)) rest
    if expected = some line.number then tail
    else Marker.render line.number path :: tail

/-- The normalized lines of a source. -/
def Source.normalize (source : Source) : List Text :=
  markLines source.path none (strip source.text)

end PrototypeGate

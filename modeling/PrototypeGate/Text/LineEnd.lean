import PrototypeGate.Text.Blank

/-!
# Ends of lines

Files are read with every end of line as a line feed.
-/

namespace PrototypeGate.Text

/-- Turn carriage returns, alone or before a line feed, into line feeds. -/
def unifyLineEnds : Text → Text
  | [] => []
  | '\r' :: '\n' :: rest => '\n' :: unifyLineEnds rest
  | '\r' :: rest => '\n' :: unifyLineEnds rest
  | c :: rest => c :: unifyLineEnds rest

/-- Split a text after each line feed. -/
def splitLines : Text → List Text
  | [] => []
  | c :: rest =>
    if c = '\n' then [c] :: splitLines rest
    else
      match splitLines rest with
      | [] => [[c]]
      | line :: lines => (c :: line) :: lines

end PrototypeGate.Text

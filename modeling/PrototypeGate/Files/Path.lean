import PrototypeGate.Text.Blank

/-!
# Paths

Paths are texts whose components are separated by slashes. Joining and splitting work
on the text alone; whether anything exists at a path is the file tree's affair.
-/

namespace PrototypeGate

/-- A path as written. -/
abbrev Path := Text

namespace Path

/-- Whether the path begins at the root. -/
def isAbsolute (p : Path) : Bool :=
  p.head? == some '/'

/-- Continue a path by another one. An absolute continuation stands alone. -/
def join (p q : Path) : Path :=
  if isAbsolute q then q
  else if p = [] ∨ p.getLast? = some '/' then p ++ q
  else p ++ '/' :: q

/-- A path without the slashes at its end. -/
def dropTrailingSlashes (p : Path) : Path :=
  (p.reverse.dropWhile (· == '/')).reverse

/-- Split a path after its last slash into directory and name. The directory loses its
trailing slashes, unless it consists of slashes only. -/
def split (p : Path) : Path × Path :=
  let name := (p.reverse.takeWhile (· ≠ '/')).reverse
  let head := p.take (p.length - name.length)
  if head.all (· == '/') then (head, name) else (dropTrailingSlashes head, name)

/-- The directory part of a path. -/
def directory (p : Path) : Path :=
  (split p).1

/-- The texts between the slashes of a path. -/
def parts : Path → List Text
  | [] => [[]]
  | c :: rest =>
    match parts rest with
    | [] => [[c]]
    | part :: others => if c = '/' then [] :: part :: others else (c :: part) :: others

/-- The component for the directory itself. -/
def here : Text := ['.']

/-- The component for the directory above. -/
def above : Text := ['.', '.']

/-- The components of a path, without empty ones and those for the directory itself. -/
def components (p : Path) : List Text :=
  (parts p).filter fun part => part ≠ [] && part ≠ here

/-- Where the way of a path begins: at the root, or in the working directory, which is
given by its names from the root. The names come in reverse. -/
def start (work : List Text) (p : Path) : List Text :=
  if isAbsolute p then [] else work.reverse

/-- Drop each component together with the step up that follows it. The components before
come in reverse. A step up from the root leads nowhere else. -/
def cancel : List Text → List Text → List Text
  | before, [] => before.reverse
  | before, part :: rest =>
    if part = above then cancel before.tail rest else cancel (part :: before) rest

/-- Whether a path begins with two slashes and no more. Such a root is told apart from the
one of a single slash. -/
def hasDoubleRoot (p : Path) : Bool :=
  (p.takeWhile (· == '/')).length == 2

/-- The absolute place that a path denotes, whatever its spelling: the kind of its root, and
the names that lead there from the root after cancelling steps up. -/
def place (work : List Text) (p : Path) : Bool × List Text :=
  (hasDoubleRoot p, cancel (start work p) (components p))

/-- Whether a path comes no later than another one in the order of their characters. -/
def le : Path → Path → Bool
  | [], _ => true
  | _ :: _, [] => false
  | c :: p, d :: q => if c = d then le p q else decide (c.toNat < d.toNat)

/-- Whether the path ends in a slash. -/
def hasTrailingSlash (p : Path) : Bool :=
  p.getLast? == some '/'

end Path

end PrototypeGate

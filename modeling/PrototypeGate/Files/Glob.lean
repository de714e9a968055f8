import PrototypeGate.Failure
import PrototypeGate.Files.Disk
import PrototypeGate.Files.Pattern

/-!
# Path patterns

A path may hold patterns in its components. A component of two stars stands for any
number of directories, and at the end of a path for everything below. Names that begin
with a dot match only patterns that do.
-/

namespace PrototypeGate.Glob

/-- The component that stands for any number of directories. -/
def anyDepth : Text := ['*', '*']

/-- Whether a name or a pattern begins with a dot. -/
def isHidden (name : Text) : Bool :=
  name.head? == some '.'

/-- Join a directory and a name, either of which may be empty. -/
def joinNonempty (dir name : Path) : Path :=
  if dir = [] then name else if name = [] then dir else Path.join dir name

/-- Whether an entry is a directory. -/
def isBranch : Tree → Bool
  | .directory _ => true
  | .file _ => false

/-- The names in a directory; only those of directories if `dirsOnly`. -/
def names (disk : Disk) (dirsOnly : Bool) (dir : Path) : Except Fault (List Text) :=
  if Tree.isSound dir then
    .ok (((disk.listing dir).filter fun entry => !dirsOnly || isBranch entry.2).map Prod.fst)
  else .error .nullCharacter

/-- The names in a directory that match a pattern. -/
def matchingNames (disk : Disk) (dirsOnly : Bool) (dir : Path) (pattern : Text) :
    Except Fault (List Text) :=
  (names disk dirsOnly dir).map fun all =>
    all.filter fun name => (isHidden pattern || !isHidden name) && Pattern.accepts pattern name

mutual

/-- The paths of everything below an entry that is not hidden, from its directory. -/
def below (dirsOnly : Bool) (name : Text) : Tree → List Path
  | .file _ => if dirsOnly || isHidden name then [] else [name]
  | .directory entries =>
    if isHidden name then [] else name :: belowEach dirsOnly name entries

/-- The paths of everything below some entries of a directory. -/
def belowEach (dirsOnly : Bool) (dir : Path) : List (Text × Tree) → List Path
  | [] => []
  | (name, t) :: rest =>
    (below dirsOnly name t).map (joinNonempty dir) ++ belowEach dirsOnly dir rest

end

/-- The paths that two stars stand for in a directory: the directory itself, as the empty
path, and everything below it. -/
def anyDepthIn (disk : Disk) (dirsOnly : Bool) (dir : Path) : Except Fault (List Path) :=
  if !Tree.isSound dir then .error .nullCharacter
  else
    let self := if dir = [] ∨ disk.isDirectory dir then [[]] else []
    .ok (self ++ belowEach dirsOnly [] (disk.listing dir))

/-- The name itself if it exists in a directory. The empty name asks for the directory. -/
def literalIn (disk : Disk) (dir : Path) (name : Text) : List Path :=
  if name = [] then (if disk.isDirectory dir then [name] else [])
  else if disk.exists? (joinNonempty dir name) then [name]
  else []

/-- The paths in a directory that a last component stands for. -/
def lastIn (disk : Disk) (dirsOnly : Bool) (name : Text) (dir : Path) :
    Except Fault (List Path) :=
  if name = anyDepth then anyDepthIn disk dirsOnly dir
  else if hasMagic name then matchingNames disk dirsOnly dir name
  else .ok (literalIn disk dir name)

/-- The paths that a path pattern stands for. The number bounds the depth of the
pattern. -/
def expandWithin (disk : Disk) : Nat → Bool → Path → Except Fault (List Path)
  | 0, _, _ => .ok []
  | fuel + 1, dirsOnly, p => do
    let (dir, name) := Path.split p
    if !hasMagic p then
      if name = [] then return if disk.isDirectory dir then [p] else []
      else return if disk.exists? p then [p] else []
    else if dir = [] then lastIn disk dirsOnly name dir
    else
      let dirs ← if dir ≠ p ∧ hasMagic dir then expandWithin disk fuel true dir else .ok [dir]
      let found ← dirs.mapM fun d => (lastIn disk dirsOnly name d).map fun names =>
        names.map (Path.join d)
      return found.flatten

/-- The paths that a path pattern stands for. The empty path is none of them. -/
def expand (disk : Disk) (p : Path) : Except Fault (List Path) := do
  let found ← expandWithin disk (p.length + 1) false p
  match found with
  | [] :: rest => return if p = [] ∨ p.take 2 = anyDepth then rest else found
  | _ => return found

end PrototypeGate.Glob

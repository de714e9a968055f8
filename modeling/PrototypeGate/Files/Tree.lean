import PrototypeGate.Files.Path
import PrototypeGate.Text.LineEnd
import PrototypeGate.Text.Quoted
import PrototypeGate.Text.Utf8

/-!
# File trees

Files and directories form a tree. Components are followed from a directory of the tree one
by one; every component but the last must name a directory.
-/

namespace PrototypeGate

/-- Why a file cannot be opened. -/
inductive FileProblem where
  | notFound
  | denied
  | notDirectory
  | isDirectory
  /-- Any other reason that the system has. -/
  | other (number : Nat) (wording : String)
  deriving DecidableEq, Repr

/-- Number of the problem. -/
def FileProblem.number : FileProblem → Nat
  | notFound => 2
  | denied => 13
  | notDirectory => 20
  | isDirectory => 21
  | other number _ => number

/-- Wording of the problem. -/
def FileProblem.wording : FileProblem → String
  | notFound => "No such file or directory"
  | denied => "Permission denied"
  | notDirectory => "Not a directory"
  | isDirectory => "Is a directory"
  | other _ wording => wording

/-- A problem with the path it arose at. -/
structure FileError where
  /-- What went wrong. -/
  problem : FileProblem
  /-- The path as given. -/
  path : String
  deriving DecidableEq, Repr

/-- What is said of the problem. -/
def FileError.message (e : FileError) : String :=
  s!"[Errno {e.problem.number}] {e.problem.wording}: {quoted e.path}"

/-- A file or a directory. -/
inductive Tree where
  | file (bytes : List UInt8)
  | directory (entries : List (Text × Tree))

namespace Tree

/-- The directory without entries. -/
def empty : Tree := .directory []

/-- The entry of a directory under a name. -/
def child? : Tree → Text → Option Tree
  | .directory entries, name => entries.lookup name
  | .file _, _ => none

/-- Follow components downwards. -/
def descend? (t : Tree) : List Text → Option Tree
  | [] => some t
  | name :: rest => (t.child? name).bind fun below => below.descend? rest

/-- Follow components from a directory. `trail` holds the names from the root to the
directory, last one first. A step up leaves the last name; above the root is the root. -/
def follow (root : Tree) (trail : List Text) : List Text → Except FileProblem (List Text × Tree)
  | [] =>
    match root.descend? trail.reverse with
    | some found => .ok (trail, found)
    | none => .error .notFound
  | name :: rest =>
    match root.descend? trail.reverse with
    | some (.directory entries) =>
      if name = Path.above then root.follow trail.tail rest
      else if (entries.lookup name).isSome then root.follow (name :: trail) rest
      else .error .notFound
    | some (.file _) => .error .notDirectory
    | none => .error .notFound

/-- Whether a path can be given to the system at all. -/
def isSound (p : Path) : Bool :=
  !p.contains '\x00'

/-- Put an entry into a list of entries, in place of one of the same name. -/
def putEntry (entries : List (Text × Tree)) (name : Text) (t : Tree) : List (Text × Tree) :=
  if (entries.lookup name).isSome then
    entries.map fun entry => if entry.1 = name then (name, t) else entry
  else entries ++ [(name, t)]

/-- Put a file or a directory below a directory, making the directories on the way. A
directory that is there already stays. -/
def insert (t : Tree) : List Text → Tree → Tree
  | [], new =>
    match t, new with
    | .directory entries, .directory _ => .directory entries
    | _, _ => new
  | name :: rest, new =>
    let entries := match t with
      | .directory entries => entries
      | .file _ => []
    .directory (putEntry entries name (((entries.lookup name).getD empty).insert rest new))

mutual

/-- All files of the tree, with their paths from the given directory. -/
def files (above : Path) : Tree → List (Path × List UInt8)
  | .file content => [(above, content)]
  | .directory entries => filesOf above entries

/-- All files of some entries, with their paths from the given directory. -/
def filesOf (above : Path) : List (Text × Tree) → List (Path × List UInt8)
  | [] => []
  | (name, t) :: rest => t.files (Path.join above name) ++ filesOf above rest

end

/-- The files of a tree that another one lacks or holds with another content. -/
def changes (before after : Tree) : List (Path × List UInt8) :=
  let old := before.files []
  (after.files []).filter fun file => !old.contains file

/-- The text of a source file. Bytes that are not UTF-8 are replaced. -/
def sourceText (content : List UInt8) : Text :=
  Text.unifyLineEnds (Utf8.decodeLenient content)

end Tree

end PrototypeGate

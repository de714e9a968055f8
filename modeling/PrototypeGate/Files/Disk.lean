import PrototypeGate.Files.Tree

/-!
# Disks

A run sees a tree of files from its root, and it works in one of the directories. A path
that begins at the root is followed from there, any other one from the working directory.
-/

namespace PrototypeGate

/-- A tree of files with a working directory. -/
structure Disk where
  /-- The tree from its root. -/
  root : Tree
  /-- The names from the root to the working directory. -/
  work : List Text

namespace Disk

open PrototypeGate.Tree (isSound)

/-- The file or directory at a path. -/
def locate (disk : Disk) (p : Path) : Except FileProblem Tree :=
  if p = [] then .error .notFound
  else
    match disk.root.follow (p.start disk.work) (Path.components p) with
    | .ok (_, .file bytes) =>
      if Path.hasTrailingSlash p ∨ (Path.parts p).getLast? = some Path.here then
        .error .notDirectory
      else .ok (.file bytes)
    | .ok (_, found) => .ok found
    | .error problem => .error problem

/-- Whether there is something at the path. -/
def exists? (disk : Disk) (p : Path) : Bool :=
  isSound p && (disk.locate p).toOption.isSome

/-- Whether the path names a file. -/
def isFile (disk : Disk) (p : Path) : Bool :=
  isSound p && match disk.locate p with
    | .ok (.file _) => true
    | _ => false

/-- Whether the path names a directory. -/
def isDirectory (disk : Disk) (p : Path) : Bool :=
  isSound p && match disk.locate p with
    | .ok (.directory _) => true
    | _ => false

/-- The names in the directory at a path, with what they stand for; none if there is no
such directory. -/
def listing (disk : Disk) (p : Path) : List (Text × Tree) :=
  match disk.locate (if p = [] then Path.here else p) with
  | .ok (.directory entries) => entries
  | _ => []

/-- The content of the file at a path. -/
def bytes (disk : Disk) (p : Path) : Except FileProblem (List UInt8) :=
  match disk.locate p with
  | .ok (.file content) => .ok content
  | .ok (.directory _) => .error .isDirectory
  | .error problem => .error problem

/-- Write a file at a path. The directory must exist, and the path must not name a
directory; one that ends in a slash does. -/
def write (disk : Disk) (p : Path) (content : List UInt8) : Except FileProblem Disk :=
  let (dir, name) := Path.split (Path.dropTrailingSlashes p)
  if p = [] then .error .notFound
  else
    match disk.root.follow (p.start disk.work) (Path.components dir) with
    | .ok (trail, .directory entries) =>
      if Path.hasTrailingSlash p ∨ name = Path.here ∨ name = Path.above then .error .isDirectory
      else
        match entries.lookup name with
        | some (.directory _) => .error .isDirectory
        | _ =>
          .ok { disk with root := disk.root.insert (trail.reverse ++ [name]) (.file content) }
    | .ok (_, .file _) => .error .notDirectory
    | .error problem => .error problem

/-- The place that a path denotes on the disk, whatever its spelling. -/
def place (disk : Disk) (p : Path) : Bool × List Text :=
  p.place disk.work

end Disk

end PrototypeGate

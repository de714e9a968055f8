import PrototypeGate.Files.Glob

/-!
# Collecting sources

The sources of a run are given as files, directories and patterns. A directory
contributes its headers and then its other sources, so that prototypes are read before
the definitions they describe. A file is collected once, at its first occurrence.
-/

namespace PrototypeGate.Sources

/-- Where an entry points to, seen from the directory that entries are relative to. -/
def resolve (base entry : Path) : Path :=
  if Path.isAbsolute entry ∨ base = [] ∨ base = Path.here then entry
  else Path.join base entry

/-- Paths in the order of their characters. -/
def sort (paths : List Path) : List Path :=
  paths.mergeSort Path.le

/-- Everything below a directory whose name has the given ending, in order. -/
def withEnding (disk : Disk) (dir : Path) (ending : Text) : Except Fault (List Path) :=
  (Glob.expand disk (Path.join (Path.join dir Glob.anyDepth) ('*' :: ending))).map sort

/-- The files that an entry stands for. -/
def expandEntry (disk : Disk) (base entry : Path) : Except Failure (List Path) :=
  let path := resolve base entry
  if hasMagic entry then
    ((Glob.expand disk path).map fun found => (sort found).filter disk.isFile).mapError .fault
  else if disk.isDirectory path then
    (do
      let headers ← withEnding disk path ".h".toList
      let sources ← withEnding disk path ".c".toList
      return headers ++ sources : Except Fault (List Path)).mapError .fault
  else if disk.isFile path then .ok [path]
  else .error (.tool (.sourceMissing (String.ofList path)))

/-- Keep the first of several paths to one place. -/
def dropRepeats (disk : Disk) : List (Bool × List Text) → List Path → List Path
  | _, [] => []
  | seen, p :: rest =>
    if disk.place p ∈ seen then dropRepeats disk seen rest
    else p :: dropRepeats disk (disk.place p :: seen) rest

/-- Collect the files that entries stand for. -/
def collect (disk : Disk) (entries : List Path) (base : Path) : Except Failure (List Path) :=
  (entries.mapM (expandEntry disk base)).map fun found => dropRepeats disk [] found.flatten

end PrototypeGate.Sources

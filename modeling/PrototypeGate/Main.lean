import PrototypeGate.CommandLine.Session
import PrototypeGate.Outer.Helper.Toolbox
import PrototypeGate.Outer.Yaml.Document

/-!
# The program

The command line around a session: it takes in the files below the working directory and
those that the arguments or the configuration name elsewhere, runs the session on them,
prints what the session printed and writes the files that have changed.
-/

namespace PrototypeGate

/-- Take in a file or everything below a directory. -/
partial def takeIn (entry : IO.FS.DirEntry) : IO Tree := do
  if ← entry.path.isDir then
    let entries ← (← entry.path.readDir).toList.mapM fun below => do
      return (below.fileName.toList, ← takeIn below)
    return .directory entries
  else
    return .file (← IO.FS.readBinFile entry.path).toList

/-- Put a tree in its place below another one, making the directories on the way. -/
def graft (new : Tree) : List Text → Tree → Tree
  | [], _ => new
  | name :: rest, t =>
    let entries := match t with
      | .directory entries => entries
      | .file _ => []
    .directory (Tree.putEntry entries name
      (graft new rest ((entries.lookup name).getD Tree.empty)))

/-- Take in what stands at a path, up to its first pattern. What the disk holds already is
not taken in again, and the root is never taken in as a whole. -/
def takeInAt (disk : Disk) (path : Path) : IO Disk := do
  let names := (disk.place path).2.takeWhile (!hasMagic ·)
  let entry : IO.FS.DirEntry := ⟨"/", String.ofList (['/'].intercalate names)⟩
  if names = [] ∨ (disk.root.descend? names).isSome then return disk
  if ← entry.path.pathExists then
    return { disk with root := graft (← takeIn entry) names disk.root }
  return disk

/-- Write the files that a session has changed. -/
def writeOut (before after : Disk) : IO Unit :=
  (before.root.changes after.root).forM fun (path, content) =>
    IO.FS.writeBinFile (String.ofList ('/' :: path)) ⟨content.toArray⟩

/-- The name of the environment variable that holds a helper command. -/
def helperVariable : String := "PROTOCHECK_NORMALIZER"

/-- The world that a disk makes, with the tools at hand. -/
def worldOf (disk : Disk) (command? : Option String) : World :=
  ⟨disk, fun _ => none, fun _ => none, Yaml.read, command?, true, none, Toolbox.start disk⟩

/-- The paths that a request takes from its configuration. -/
def configured (world : World) (arguments : List String) : List Path :=
  match CommandLine.read arguments with
  | .ok request =>
    match (world.config request).2 with
    | .ok config => config.sources.map fun entry => Sources.resolve config.base entry.toList
    | .error _ => []
  | .error _ => []

/-- Run the program and return its exit code. -/
def runProgram (arguments : List String) : IO UInt32 := do
  let work := Path.components (← IO.currentDir).toString.toList
  let here ← takeIn ⟨".", "."⟩
  let command? ← IO.getEnv helperVariable
  let near : Disk := ⟨graft here work Tree.empty, work⟩
  let named ← (arguments.map String.toList).foldlM takeInAt near
  let disk ← (configured (worldOf named command?) arguments).foldlM takeInAt named
  let session := (worldOf disk command?).session arguments
  (← IO.getStdout).putStr (String.ofList session.output)
  (← IO.getStderr).putStr (String.ofList session.errors)
  writeOut disk session.disk
  match session.ending with
  | .broken fault =>
    (← IO.getStderr).putStrLn (fault.message?.getD "unreadable configuration")
    return 1
  | ending => return UInt32.ofNat (ending.exitCode?.getD 1)

end PrototypeGate

/-- The entry point. -/
def main (arguments : List String) : IO UInt32 :=
  PrototypeGate.runProgram arguments

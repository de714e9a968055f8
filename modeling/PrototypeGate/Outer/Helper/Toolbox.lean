import PrototypeGate.Outer.Helper.Shell

/-!
# The toolbox

The helpers that can be started here. A name without a slash is looked up in the toolbox, and
the toolbox has two directories of its own; any other path names no program, since no
file of the disk can be executed. A session takes what helpers do as it is given; nothing but the
program itself works with the toolbox.
-/

namespace PrototypeGate.Toolbox

/-- The directory for scratch files, as scripts see it. -/
def scratchDirectory : Text := "/tmp".toList

/-- Run the shell: on a script given as a word, or on one in a file. -/
def shell (disk : Disk) (name : Text) : List Text → Finished
  | [] => ⟨0, [], []⟩
  | ['-', 'c'] :: script :: rest =>
    Shell.run disk ⟨rest.headD name, rest.tail, [("TMPDIR".toList, scratchDirectory)]⟩ script
  | path :: rest =>
    match disk.bytes path with
    | .ok content =>
      Shell.run disk ⟨path, rest, [("TMPDIR".toList, scratchDirectory)]⟩
        (Utf8.decodeLenient content)
    | .error _ =>
      ⟨2, [], utf8 s!"sh: 0: cannot open {String.ofList path}: No such file\n".toList⟩

/-- Whether the name stands for the directory in which it is looked up, or for the one
above. -/
def namesDirectory (name : Text) : Bool :=
  name = [] || name = Path.here || name = Path.above

/-- Run a program of the toolbox by its name. -/
def run? (disk : Disk) (name : Text) (args : List Text) : Option Finished :=
  if name = "sh".toList then some (shell disk name args)
  else Program.run? disk false name args []

/-- The directories of the toolbox. -/
def directories : List Path :=
  ["/bin".toList, "/usr/bin".toList]

/-- The name of a program of the toolbox, given its path. -/
def nameAt? (path : Path) : Option Text :=
  let (dir, name) := Path.split path
  if directories.contains dir then some name else none

/-- Start a helper by its words. -/
def start (disk : Disk) (words : List String) : HelperOutcome :=
  match words.map String.toList with
  | [] => .unavailable .notFound
  | word :: args =>
    let name? := if word.contains '/' then nameAt? word else some word
    match name? with
    | none =>
      match disk.locate word with
      | .ok _ => .unavailable .denied
      | .error problem => .unavailable problem
    | some name =>
      if namesDirectory name then .unavailable .denied
      else
        match run? disk name args with
        | some result => .finished result disk
        | none => .unavailable .notFound

end PrototypeGate.Toolbox

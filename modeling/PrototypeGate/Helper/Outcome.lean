import PrototypeGate.Files.Disk

/-!
# Helpers

A helper command is a program of its own. What is known of it is how starting it ends: the
exit status, what it has printed, and the files that it leaves.
-/

namespace PrototypeGate

/-- What a program leaves behind. -/
structure Finished where
  /-- Exit status; zero means success, and a signal counts below zero. -/
  status : Int
  /-- Bytes written to the standard output. -/
  output : List UInt8
  /-- Bytes written to the standard error output. -/
  errors : List UInt8
  deriving DecidableEq, Repr

/-- How an attempt to run a helper ends. -/
inductive HelperOutcome where
  /-- The helper cannot be started. -/
  | unavailable (problem : FileProblem)
  /-- The helper has run and leaves the disk like this. -/
  | finished (result : Finished) (disk : Disk)

end PrototypeGate

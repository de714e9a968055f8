import PrototypeGate.Files.Tree
import PrototypeGate.Stream.Marker
import PrototypeGate.Text.ShellWords

/-!
# Failures

A run can fail in two ways. A tool error is foreseen: the command line reports it and
exits with a code of its own. A fault is not: it ends the run where it arises.
-/

namespace PrototypeGate

/-- Failures that the command line reports. -/
inductive ToolError where
  /-- A setting is neither a text nor a list of texts. -/
  | notStrings (origin key : String)
  /-- There is no configuration file. -/
  | configMissing (path : String)
  /-- The configuration file cannot be read. -/
  | configUnreadable (path : String) (reason : FileError)
  /-- The configuration file is malformed. -/
  | configMalformed (path : String)
  /-- The configuration file holds no mapping. -/
  | configNotMapping (path : String)
  /-- The configuration file names a dialect that is not known. -/
  | configDialect (path name : String)
  /-- A source entry names neither a file nor a directory. -/
  | sourceMissing (path : String)
  /-- A source file cannot be read. -/
  | sourceUnreadable (path : String) (reason : FileError)
  /-- No sources were given. -/
  | noSources
  /-- There is no place for a helper's output. -/
  | outputUnavailable
  /-- A helper cannot be started. -/
  | helperUnavailable (name : String) (reason : FileError)
  /-- A helper has failed. -/
  | helperFailed (name : String) (status : Int) (detail : String)
  deriving DecidableEq, Repr

/-- What is said of the failure. -/
def ToolError.message : ToolError → String
  | notStrings origin key => s!"{origin}: '{key}' must be a string or a list of strings"
  | configMissing path => s!"Config file not found: {path}"
  | configUnreadable path reason => s!"Could not read config file {path}: {reason.message}"
  | configMalformed path => s!"Invalid YAML in {path}"
  | configNotMapping path => s!"{path}: expected a mapping at the top level"
  | configDialect path name =>
    s!"{path}: unknown dialect {quoted name}, expected one of ['c51', 'sdcc']"
  | sourceMissing path => s!"Source not found: {path}"
  | sourceUnreadable path reason => s!"Could not read source file {path}: {reason.message}"
  | noSources => "No source files given."
  | outputUnavailable => "Could not create normalizer output file"
  | helperUnavailable name reason =>
    s!"Could not run normalizer {quoted name}: {reason.message}"
  | helperFailed name status detail =>
    s!"Normalizer {quoted name} exited with status {status}" ++
      (if detail.isEmpty then "" else s!": {detail}")

/-- Why the document in a file has no value. -/
inductive DocumentProblem where
  /-- The document is not well formed. -/
  | malformed
  /-- The reader of documents gives up: the kind of its failure and what it says of it. -/
  | raised (kind : String) (message? : Option String)
  deriving DecidableEq, Repr

/-- Failures that nothing handles. -/
inductive Fault where
  /-- A command string cannot be split. -/
  | command (problem : ShellWords.Problem)
  /-- A path or a command holds a null character. -/
  | nullCharacter
  /-- The line number of a marker has too many digits. -/
  | longNumber (digits : Nat)
  /-- An integer that is to be shown has too many digits. -/
  | longNumeral
  /-- The reader of documents has given up on the configuration file. -/
  | document (kind : String) (message? : Option String)
  /-- The unknown keys of the configuration file cannot be sorted. -/
  | unsortable
  /-- The report cannot be written. -/
  | report (error : FileError)
  /-- The file for a helper's output cannot be removed. -/
  | leftover (error : FileError)
  deriving DecidableEq, Repr

/-- What is said of a line number with too many digits. -/
def longNumberMessage (digits : Nat) : String :=
  s!"Exceeds the limit ({Marker.digitLimit} digits) for integer string conversion: " ++
    s!"value has {digits} digits; use sys.set_int_max_str_digits() to increase the limit"

/-- What is said of an integer with too many digits. -/
def longNumeralMessage : String :=
  s!"Exceeds the limit ({numeralLimit} digits) for integer string conversion; " ++
    "use sys.set_int_max_str_digits() to increase the limit"

/-- What is said of the fault, if anything. -/
def Fault.message? : Fault → Option String
  | command problem => some problem.message
  | nullCharacter => some "embedded null byte"
  | longNumber digits => some (longNumberMessage digits)
  | longNumeral => some longNumeralMessage
  | document _ message? => message?
  | unsortable => none
  | report error => some error.message
  | leftover error => some error.message

/-- Failures of either kind. -/
inductive Failure where
  | tool (error : ToolError)
  | fault (fault : Fault)
  deriving DecidableEq, Repr

end PrototypeGate

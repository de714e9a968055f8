import PrototypeGate.CommandLine.Arguments
import PrototypeGate.Declaration.Dialect
import PrototypeGate.Report.Finding

/-!
# Commands and their options

The tool has two commands: one checks sources, the other prints the normalized stream
that the first one reads.
-/

namespace PrototypeGate.CommandLine

/-- The commands of the tool. -/
inductive Verb where
  /-- Check prototypes and definitions. -/
  | check
  /-- Print the normalized stream. -/
  | strip
  deriving DecidableEq, Repr

/-- The name of a command. -/
def Verb.name : Verb → String
  | check => "check"
  | strip => "strip"

/-- All commands. -/
def Verb.all : List Verb := [.check, .strip]

/-- The command of the given name. -/
def Verb.ofName? (name : String) : Option Verb :=
  all.find? fun verb => verb.name == name

/-- The options of the tool itself. -/
inductive ToolOption where
  | help
  | version
  deriving DecidableEq, Repr

/-- The options of the commands. -/
inductive CommandOption where
  | help
  | config
  | dialect
  | normalizer
  | storageKeyword
  | json
  | verbose
  deriving DecidableEq, Repr

/-- The options of the tool itself, with their names. -/
def toolOptions : List (OptionSpec ToolOption) :=
  [⟨.help, ["-h", "--help"], false⟩, ⟨.version, ["--version"], false⟩]

/-- The options that both commands share. -/
def sharedOptions : List (OptionSpec CommandOption) :=
  [⟨.help, ["-h", "--help"], false⟩, ⟨.config, ["--config"], true⟩,
    ⟨.dialect, ["--dialect"], true⟩, ⟨.normalizer, ["--normalizer"], true⟩]

/-- The options of a command, with their names. -/
def Verb.options : Verb → List (OptionSpec CommandOption)
  | check => sharedOptions ++ [⟨.storageKeyword, ["--storage-keyword"], true⟩,
      ⟨.json, ["--json"], true⟩, ⟨.verbose, ["-v", "--verbose"], false⟩]
  | strip => sharedOptions

/-- Lines as one text. -/
def unlines (lines : List String) : String :=
  String.join (lines.map (· ++ "\n"))

/-- How the tool is called. -/
def toolUsage : String :=
  "usage: protocheck [-h] [--version] \x7bcheck,strip\x7d ...\n"

/-- The help text of the tool. -/
def toolHelp : String :=
  toolUsage ++ unlines [
    "",
    "protocheck: prototype/definition consistency gate for C sources",
    "",
    "positional arguments:",
    "  \x7bcheck,strip\x7d",
    "    check        Check prototypes and definitions; exit with the condition",
    "                 code.",
    "    strip        Print the normalized stream the checker would read.",
    "",
    "options:",
    "  -h, --help     show this help message and exit",
    "  --version      show program's version number and exit"]

/-- How a command is called. -/
def Verb.usage : Verb → String
  | check => unlines [
      "usage: protocheck check [-h] [--config YAML] [--dialect \x7bc51,sdcc\x7d]",
      "                        [--normalizer CMD] [--storage-keyword KW]",
      "                        [--json OUT_JSON] [-v]",
      "                        [sources ...]"]
  | strip => unlines [
      "usage: protocheck strip [-h] [--config YAML] [--dialect \x7bc51,sdcc\x7d]",
      "                        [--normalizer CMD]",
      "                        [sources ...]"]

/-- The help on the options that both commands share. -/
def sharedHelp : String :=
  unlines [
    "",
    "positional arguments:",
    "  sources               C sources, directories or glob patterns, in scan",
    "                        order.",
    "",
    "options:",
    "  -h, --help            show this help message and exit",
    "  --config YAML         Config file (default: ./protocheck.yaml when present).",
    "  --dialect \x7bc51,sdcc\x7d  Compiler dialect; selects the storage-class keywords.",
    "  --normalizer CMD      External normalizer command (overrides",
    "                        $PROTOCHECK_NORMALIZER and the config)."]

/-- The help text of a command. -/
def Verb.help : Verb → String
  | check => check.usage ++ sharedHelp ++ unlines [
      "  --storage-keyword KW  Storage-class keyword excluded from prototype matching",
      "                        (repeatable).",
      "  --json OUT_JSON       Also write the result as JSON to this file ('-' for",
      "                        stdout).",
      "  -v, --verbose         Print a summary on success."]
  | strip => strip.usage ++ sharedHelp

/-- What the command line asks for. -/
structure Request where
  /-- The command. -/
  verb : Verb
  /-- The configuration file. -/
  config : Option String
  /-- The dialect, in place of the configured one. -/
  dialect : Option Dialect
  /-- The helper command, in place of the configured one. -/
  normalizer : Option String
  /-- Storage-class keywords, in place of the configured ones. -/
  storageKeywords : List String
  /-- Where the report goes. -/
  json : Option String
  /-- Whether a summary is printed. -/
  verbose : Bool
  /-- The source entries. -/
  sources : List String
  deriving DecidableEq, Repr

/-- How reading the command line can end without a request. -/
inductive Stop where
  /-- A text was asked for. -/
  | shown (text : String)
  /-- The arguments of the tool are not in order. -/
  | toolMisuse (problem : Misuse)
  /-- The arguments of a command are not in order. -/
  | misuse (verb : Verb) (problem : Misuse)
  deriving DecidableEq, Repr

/-- The request for a command without arguments. -/
def Request.initial (verb : Verb) : Request :=
  ⟨verb, none, none, none, [], none, false, []⟩

/-- Drop the first two dashes from positional arguments. -/
def dropDashes (arguments : List String) : List String :=
  arguments.erase "--"

/-- Take note of an option or of positional arguments. Two dashes as the value of an
option count as no value. -/
def Request.note (r : Request) : Event CommandOption → Except Stop Request
  | .taken arguments => .ok { r with sources := dropDashes arguments }
  | .given option value =>
    let absent := value == some "--"
    let text := if absent then "" else value.getD ""
    match option with
    | .help => .error (.shown r.verb.help)
    | .config => .ok { r with config := some text }
    | .dialect =>
      if absent then .ok { r with dialect := none }
      else
        match Dialect.ofName? text with
        | some dialect => .ok { r with dialect := some dialect }
        | none =>
          .error (.misuse r.verb (.invalidChoice "--dialect" text (Dialect.all.map Dialect.name)))
    | .normalizer => .ok { r with normalizer := some text }
    | .storageKeyword => .ok { r with storageKeywords := r.storageKeywords ++ [text] }
    | .json => .ok { r with json := some text }
    | .verbose => .ok { r with verbose := true }

/-- Read the arguments of a command. The arguments that it does not take are returned
with the request. -/
def readCommand (verb : Verb) (arguments : List String) : Except Stop (Request × List String) := do
  let parsed := parse verb.options .run arguments
  let request ← parsed.events.foldlM Request.note (.initial verb)
  match parsed.misuse with
  | some problem => throw (.misuse verb problem)
  | none => return (request, parsed.extras)

/-- Follow what the arguments of the tool ask for, up to its command. -/
def followTool : List (Event ToolOption) → Except Stop (Option (Request × List String))
  | [] => .ok none
  | .given .help _ :: _ => .error (.shown toolHelp)
  | .given .version _ :: _ => .error (.shown s!"{toolName} {toolVersion}\n")
  | .taken arguments :: _ =>
    let name := arguments.headD ""
    match Verb.ofName? name with
    | some verb => (readCommand verb arguments.tail).map some
    | none =>
      .error (.toolMisuse (.invalidChoice "command" name (Verb.all.map Verb.name)))

/-- Read a command line. -/
def read (arguments : List String) : Except Stop Request := do
  let parsed := parse toolOptions .rest arguments
  let followed ← followTool parsed.events
  match parsed.misuse, followed with
  | some problem, _ => throw (.toolMisuse problem)
  | none, none => throw (.toolMisuse (.required "command"))
  | none, some (request, extras) =>
    match parsed.extras ++ extras with
    | [] => return request
    | unused => throw (.toolMisuse (.unrecognized unused))

/-- What is printed when the arguments are not in order. -/
def Stop.complaint : Stop → String
  | .shown _ => ""
  | .toolMisuse problem => toolUsage ++ s!"{toolName}: error: {problem.message}\n"
  | .misuse verb problem => verb.usage ++ s!"{toolName} {verb.name}: error: {problem.message}\n"

end PrototypeGate.CommandLine

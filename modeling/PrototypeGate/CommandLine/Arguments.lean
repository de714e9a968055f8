import PrototypeGate.Text.DecimalDigit
import PrototypeGate.Text.Quoted

/-!
# Command-line arguments

Options and positional arguments in the usual form. An option may be shortened to a
beginning that no other option shares, its value may follow in the next argument or
after an equals sign, and single-letter options may be written together. After two
dashes everything is positional. The positional arguments must form one run.
-/

namespace PrototypeGate.CommandLine

/-- An option that a command understands. -/
structure OptionSpec (α : Type) where
  /-- What the option means. -/
  meaning : α
  /-- Its names, each with its dashes. -/
  names : List String
  /-- Whether it takes a value. -/
  takesValue : Bool

/-- The option as messages name it. -/
def OptionSpec.title {α : Type} (spec : OptionSpec α) : String :=
  String.intercalate "/" spec.names

/-- How the positional arguments of a command are taken. -/
inductive Positionals where
  /-- One run of any number of arguments. -/
  | run
  /-- The first one, and with it everything that follows, options included. -/
  | rest
  deriving DecidableEq, Repr

/-- What is wrong with the arguments. -/
inductive Misuse where
  /-- A shortened option has several readings. -/
  | ambiguous (argument : String) (readings : List String)
  /-- An option lacks its value. -/
  | missingValue (title : String)
  /-- An option was given a value that it does not take. -/
  | unusedValue (title value : String)
  /-- A value is none of the possible ones. -/
  | invalidChoice (title value : String) (choices : List String)
  /-- A positional argument is missing. -/
  | required (name : String)
  /-- Arguments that nothing takes. -/
  | unrecognized (arguments : List String)
  deriving DecidableEq, Repr

/-- Texts separated by commas. -/
def listed (texts : List String) : String :=
  String.intercalate ", " texts

/-- What is said of the misuse. -/
def Misuse.message : Misuse → String
  | ambiguous argument readings =>
    s!"ambiguous option: {argument} could match {listed readings}"
  | missingValue title => s!"argument {title}: expected one argument"
  | unusedValue title value => s!"argument {title}: ignored explicit argument {quoted value}"
  | invalidChoice title value choices =>
    s!"argument {title}: invalid choice: {quoted value} (choose from {listed (choices.map quoted)})"
  | required name => s!"the following arguments are required: {name}"
  | unrecognized arguments => "unrecognized arguments: " ++ String.intercalate " " arguments

/-- The reading of an argument. -/
inductive Reading (α : Type) where
  /-- A positional argument. -/
  | positional
  /-- The two dashes that end the options. -/
  | dashes
  /-- An option by one of its names, with the value after it if there is one. -/
  | known (spec : OptionSpec α) (name : String) (value : Option String)
  /-- An option that the command does not understand. -/
  | unknown

/-- What the arguments ask for, in order. -/
inductive Event (α : Type) where
  /-- An option, with its value if it takes one. -/
  | given (meaning : α) (value : Option String)
  /-- Positional arguments. -/
  | taken (arguments : List String)

/-- All names of options with their options. -/
def named {α : Type} (specs : List (OptionSpec α)) : List (String × OptionSpec α) :=
  specs.flatMap fun spec => spec.names.map fun name => (name, spec)

/-- Split a text at its first equals sign. -/
def splitEquals (t : Text) : Text × Option Text :=
  match t.dropWhile (· ≠ '=') with
  | [] => (t, none)
  | _ :: value => (t.takeWhile (· ≠ '='), some value)

/-- Whether an argument is a negative number, which no option looks like. -/
def isNegativeNumber (t : Text) : Bool :=
  -- A line feed at the very end does not count.
  match if t.getLast? = some '\n' then t.dropLast else t with
  | '-' :: body =>
    let afterDigits := body.dropWhile isDecimal
    (body ≠ [] && afterDigits.isEmpty) ||
      (match afterDigits with
      | '.' :: fraction => fraction ≠ [] && fraction.all isDecimal
      | _ => false)
  | _ => false

/-- The possible readings of an argument as a shortened option, or as a single-letter
option with a value attached. -/
def shortened {α : Type} (specs : List (OptionSpec α)) (t : Text) :
    List (String × OptionSpec α × Option String) :=
  match t with
  | '-' :: '-' :: _ =>
    let (start, value) := splitEquals t
    (named specs).filterMap fun (name, spec) =>
      if start.isPrefixOf name.toList then some (name, spec, value.map String.ofList) else none
  | '-' :: letter :: attached =>
    (named specs).filterMap fun (name, spec) =>
      if name.toList = ['-', letter] then some (name, spec, some (String.ofList attached))
      else if t.isPrefixOf name.toList then some (name, spec, none)
      else none
  | _ => []

/-- Read an argument that comes before the two dashes. -/
def readArgument {α : Type} (specs : List (OptionSpec α)) (argument : String) :
    Except Misuse (Reading α) :=
  let t := argument.toList
  if t.head? ≠ some '-' then .ok .positional
  else
    match (named specs).lookup argument with
    | some spec => .ok (.known spec argument none)
    | none =>
      if t.length = 1 then .ok .positional
      else
        let (start, value) := splitEquals t
        let exact := if value.isSome then (named specs).lookup (String.ofList start) else none
        match exact with
        | some spec =>
          .ok (.known spec (String.ofList start) (value.map String.ofList))
        | none =>
          match shortened specs t with
          | [(name, spec, value)] => .ok (.known spec name value)
          | [] =>
            if isNegativeNumber t || t.contains ' ' then .ok .positional else .ok .unknown
          | readings => .error (.ambiguous argument (readings.map Prod.fst))

/-- Read all arguments. -/
def readArguments {α : Type} (specs : List (OptionSpec α)) :
    List String → Except Misuse (List (String × Reading α))
  | [] => .ok []
  | "--" :: rest => .ok (("--", .dashes) :: rest.map fun argument => (argument, .positional))
  | argument :: rest => do
    let reading ← readArgument specs argument
    return (argument, reading) :: (← readArguments specs rest)

/-- Read single-letter options that are written together. `value` is what is attached to
the current one. The result is the events, and the option that is left to take a value
from the next argument. -/
def readCluster {α : Type} (specs : List (OptionSpec α)) :
    Nat → OptionSpec α → String → Option String →
      Except Misuse (List (Event α) × Option (OptionSpec α))
  | _, spec, _, none =>
    if spec.takesValue then .ok ([], some spec) else .ok ([.given spec.meaning none], none)
  | 0, spec, _, some value => .error (.unusedValue spec.title value)
  | fuel + 1, spec, name, some value =>
    if spec.takesValue then .ok ([.given spec.meaning (some value)], none)
    else
      match name.toList, value.toList with
      | ['-', _], letter :: attached =>
        let next := String.ofList ['-', letter]
        match (named specs).lookup next with
        | some other => do
          let (events, left) ← readCluster specs fuel other next
            (if attached.isEmpty then none else some (String.ofList attached))
          return (.given spec.meaning none :: events, left)
        | none => .error (.unusedValue spec.title value)
      | _, _ => .error (.unusedValue spec.title value)

/-- What the arguments of a command ask for: the events in order, the arguments that
nothing takes, and the misuse at which reading stops. -/
structure Parsed (α : Type) where
  /-- What is asked for, in order. -/
  events : List (Event α)
  /-- Arguments that nothing takes. -/
  extras : List String
  /-- The misuse at which reading stops. -/
  misuse : Option Misuse

/-- State of the run of positional arguments. -/
inductive Run where
  /-- The run may still begin or go on. -/
  | pending (arguments : List String)
  /-- The run has ended. -/
  | ended
  deriving DecidableEq, Repr

/-- The event for a run that ends. -/
def Run.event {α : Type} : Run → List (Event α)
  | .pending arguments => [.taken arguments]
  | .ended => []

/-- The run after an option: one that has begun is over. -/
def Run.interrupt : Run → Run
  | .pending [] => .pending []
  | _ => .ended

/-- The event for a run that an option interrupts. -/
def Run.interruptEvent {α : Type} : Run → List (Event α)
  | .pending (argument :: rest) => [.taken (argument :: rest)]
  | _ => []

/-- Put events before what follows. -/
def Parsed.after {α : Type} (p : Parsed α) (events : List (Event α)) : Parsed α :=
  { p with events := events ++ p.events }

/-- Take the readings of all arguments in order. -/
def takeReadings {α : Type} (specs : List (OptionSpec α)) (mode : Positionals) :
    Run → List (String × Reading α) → Parsed α
  | run, [] =>
    match mode with
    | .run => ⟨run.event, [], none⟩
    | .rest => ⟨[], [], none⟩
  | run, (argument, .positional) :: rest =>
    match mode, run with
    | .rest, _ => ⟨[.taken (argument :: rest.map Prod.fst)], [], none⟩
    | .run, .pending arguments =>
      takeReadings specs mode (.pending (arguments ++ [argument])) rest
    | .run, .ended =>
      let p := takeReadings specs mode run rest
      { p with extras := argument :: p.extras }
  | run, (argument, .dashes) :: rest =>
    match mode, run with
    | .rest, _ =>
      if rest.isEmpty then ⟨[], [argument], none⟩
      else ⟨[.taken (argument :: rest.map Prod.fst)], [], none⟩
    | .run, .pending arguments =>
      takeReadings specs mode (.pending (arguments ++ [argument])) rest
    | .run, .ended =>
      let p := takeReadings specs mode run rest
      { p with extras := argument :: p.extras }
  | run, (argument, .unknown) :: rest =>
    let p := (takeReadings specs mode run.interrupt rest).after run.interruptEvent
    { p with extras := argument :: p.extras }
  | run, (_, .known spec name value) :: rest =>
    match readCluster specs ((value.getD "").length + 1) spec name value with
    | .error misuse => ⟨run.interruptEvent, [], some misuse⟩
    | .ok (events, none) =>
      (takeReadings specs mode run.interrupt rest).after (run.interruptEvent ++ events)
    | .ok (events, some open_) =>
      match rest with
      | (argument, .positional) :: others =>
        (takeReadings specs mode run.interrupt others).after
          (run.interruptEvent ++ events ++ [.given open_.meaning (some argument)])
      | _ => ⟨run.interruptEvent, [], some (.missingValue open_.title)⟩

/-- What the arguments of a command ask for. -/
def parse {α : Type} (specs : List (OptionSpec α)) (mode : Positionals) (arguments : List String) :
    Parsed α :=
  match readArguments specs arguments with
  | .error misuse => ⟨[], [], some misuse⟩
  | .ok readings => takeReadings specs mode (.pending []) readings

end PrototypeGate.CommandLine

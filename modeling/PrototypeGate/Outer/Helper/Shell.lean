import PrototypeGate.Outer.Helper.Program

/-!
# Helper scripts

A helper command may be a small script: commands with quoted words, parameters and
redirections, one after the other or depending on each other's success.
-/

namespace PrototypeGate.Shell

/-- What a script knows. -/
structure Environment where
  /-- Name of the script. -/
  name : Text
  /-- Arguments of the script. -/
  args : List Text
  /-- Values of variables. -/
  settings : List (Text × Text)

/-- The tokens of a script, after parameters have been replaced. -/
inductive Token where
  | word (text : Text)
  /-- The end of a command; the next one runs regardless, on success or on failure. -/
  | next
  | onSuccess
  | onFailure
  /-- The output of a command is the input of the next one. -/
  | pipe
  /-- The stream of the given number goes where the word after it says. -/
  | toFile (stream : Nat)
  /-- The input comes from the file that the word after it names. -/
  | fromFile
  /-- The first stream goes where the second one goes. -/
  | toStream (stream target : Nat)
  deriving DecidableEq, Repr

/-- The value of a parameter that is not a list. -/
def Environment.value (env : Environment) (name : Text) : Text :=
  match String.ofList name with
  | "0" => env.name
  | "#" => decimalText env.args.length
  | "*" => [' '].intercalate env.args
  | _ =>
    if name.all Char.isDigit then
      (env.args[name.foldl (fun n c => 10 * n + (c.toNat - 0x30)) 0 - 1]?).getD []
    else (env.settings.lookup name).getD []

/-- Split a parameter off the text after a dollar sign. -/
def splitParameter? (t : Text) : Option (Text × Text) :=
  match t with
  | '{' :: rest =>
    match rest.dropWhile (· ≠ '}') with
    | '}' :: after => some (rest.takeWhile (· ≠ '}'), after)
    | _ => none
  | c :: rest =>
    if c.isAlpha || c == '_' then
      let isName := fun (d : Char) => d.isAlphanum || d == '_'
      some (t.takeWhile isName, t.dropWhile isName)
    else if c.isDigit || c == '@' || c == '*' || c == '#' then some ([c], rest)
    else none
  | [] => none

/-- End the word being read. -/
def close (word : Option Text) (tokens : List Token) : List Token :=
  match word with
  | some text => .word text :: tokens
  | none => tokens

/-- Put arguments into a word in double quotes: the first joins what is before it, the
last stays open for what follows. -/
def spread (word : Option Text) (tokens : List Token) : List Text → Option Text × List Token
  | [] => (word, tokens)
  | [arg] => (some (word.getD [] ++ arg), tokens)
  | arg :: rest => spread (some []) (.word (word.getD [] ++ arg) :: tokens) rest

/-- Read the tokens of a script. `quote` is the open quote, `word` the word being read;
the tokens come last one first. -/
def lex (env : Environment) :
    Nat → Option Char → Option Text → List Token → Text → Option (List Token)
  | 0, _, _, _, _ => none
  | _ + 1, some _, _, _, [] => none
  | _ + 1, none, word, tokens, [] => some (close word tokens).reverse
  | fuel + 1, some mark, word, tokens, c :: rest =>
    if c = mark then lex env fuel none (some (word.getD [])) tokens rest
    else if mark = '\'' then lex env fuel (some mark) (some (word.getD [] ++ [c])) tokens rest
    else if c = '\\' then
      match rest with
      | d :: after =>
        let kept := if d = '"' ∨ d = '\\' ∨ d = '$' ∨ d = '\u0060' then [d] else ['\\', d]
        lex env fuel (some mark) (some (word.getD [] ++ kept)) tokens after
      | [] => none
    else if c = '$' then
      match splitParameter? rest with
      | some (['@'], after) =>
        let (word, tokens) := spread word tokens env.args
        lex env fuel (some mark) word tokens after
      | some (name, after) =>
        lex env fuel (some mark) (some (word.getD [] ++ env.value name)) tokens after
      | none => lex env fuel (some mark) (some (word.getD [] ++ [c])) tokens rest
    else lex env fuel (some mark) (some (word.getD [] ++ [c])) tokens rest
  | fuel + 1, none, word, tokens, c :: rest =>
    if c = ' ' ∨ c = '\t' then lex env fuel none none (close word tokens) rest
    else if c = '\n' ∨ c = ';' then lex env fuel none none (.next :: close word tokens) rest
    else if c = '"' ∧ rest.take 3 = ['$', '@', '"'] ∧ env.args = [] then
      -- No argument in quotes is no word.
      lex env fuel none word tokens (rest.drop 3)
    else if c = '#' ∧ word = none then
      lex env fuel none none tokens (rest.dropWhile (· ≠ '\n'))
    else if c = '\'' ∨ c = '"' then lex env fuel (some c) word tokens rest
    else if c = '\\' then
      match rest with
      | d :: after => lex env fuel none (some (word.getD [] ++ [d])) tokens after
      | [] => lex env fuel none (some (word.getD [] ++ [c])) tokens []
    else if c = '&' ∧ rest.head? = some '&' then
      lex env fuel none none (.onSuccess :: close word tokens) rest.tail
    else if c = '|' ∧ rest.head? = some '|' then
      lex env fuel none none (.onFailure :: close word tokens) rest.tail
    else if c = '|' then lex env fuel none none (.pipe :: close word tokens) rest
    else if c = '<' then lex env fuel none none (.fromFile :: close word tokens) rest
    else if c = '>' then
      let (stream, tokens) := match word with
        | some ['1'] => (1, tokens)
        | some ['2'] => (2, tokens)
        | _ => (1, close word tokens)
      match rest with
      | '&' :: '1' :: after => lex env fuel none none (.toStream stream 1 :: tokens) after
      | '&' :: '2' :: after => lex env fuel none none (.toStream stream 2 :: tokens) after
      | '>' :: after => lex env fuel none none (.toFile stream :: tokens) after
      | _ => lex env fuel none none (.toFile stream :: tokens) rest
    else if c = '$' then
      match splitParameter? rest with
      | some (['@'], after) =>
        let (word, tokens) := spread word tokens env.args
        lex env fuel none word tokens after
      | some (name, after) =>
        let value := env.value name
        let opened := if value = [] then word else some (word.getD [] ++ value)
        lex env fuel none opened tokens after
      | none => lex env fuel none (some (word.getD [] ++ [c])) tokens rest
    else lex env fuel none (some (word.getD [] ++ [c])) tokens rest

/-- Where a stream of a command goes. -/
inductive Target where
  | output
  | errors
  | nowhere
  deriving DecidableEq, Repr

/-- A command with its redirections. -/
structure Command where
  /-- The words of the command. -/
  words : List Text
  /-- The file that the input comes from. -/
  source : Option Text
  /-- Where the output goes. -/
  output : Target
  /-- Where the error output goes. -/
  errors : Target

/-- A command that does nothing. -/
def Command.empty : Command := ⟨[], none, .output, .errors⟩

/-- Whether a token ends a command. -/
def endsCommand : Token → Bool
  | .next => true
  | .onSuccess => true
  | .onFailure => true
  | .pipe => true
  | _ => false

/-- Read a command from its tokens. -/
def command : Command → List Token → Command
  | c, [] => c
  | c, .toFile stream :: .word _ :: rest =>
    command (if stream = 2 then { c with errors := .nowhere } else { c with output := .nowhere })
      rest
  | c, .fromFile :: .word name :: rest => command { c with source := some name } rest
  | c, .toStream stream target :: rest =>
    let place := if target = 2 then c.errors else c.output
    command (if stream = 2 then { c with errors := place } else { c with output := place }) rest
  | c, .word text :: rest => command { c with words := c.words ++ [text] } rest
  | c, _ :: rest => command c rest

/-- State of a running script. -/
structure State where
  /-- Status of the last command. -/
  status : Nat
  /-- Output so far. -/
  output : List UInt8
  /-- Error output so far. -/
  errors : List UInt8
  /-- Input of the next command. -/
  input : List UInt8
  /-- Whether the script has ended itself. -/
  exited : Bool

/-- The number that a word stands for. -/
def numberOf (word : Text) : Nat :=
  word.foldl (fun n c => 10 * n + (c.toNat - 0x30)) 0

/-- Send bytes to a place. -/
def State.send (s : State) (place : Target) (bytes : List UInt8) : State :=
  match place with
  | .output => { s with output := s.output ++ bytes }
  | .errors => { s with errors := s.errors ++ bytes }
  | .nowhere => s

/-- Run a command. If its output feeds another command it becomes that command's
input. -/
def runCommand (disk : Disk) (env : Environment) (s : State) (c : Command) (feeds : Bool) : State :=
  match c.words with
  | [] => { s with input := [] }
  | name :: args =>
    if name = "exit".toList then
      { s with exited := true, status := (args.head?.map numberOf).getD s.status % 256 }
    else
      let input := match c.source with
        | some path => (disk.bytes path).toOption.getD []
        | none => s.input
      let result := (Program.run? disk true name args input).getD
        ⟨127, [], utf8 s!"{String.ofList env.name}: 1: {String.ofList name}: not found\n".toList⟩
      let ended := { s with status := result.status.toNat, input := [] }
      let shown :=
        if feeds ∧ c.output = .output then { ended with input := result.output }
        else ended.send c.output result.output
      shown.send c.errors result.errors

/-- Run the commands of a script. The first argument bounds their number; `runs` tells
whether the next command is to run. -/
def runTokens (disk : Disk) (env : Environment) : Nat → Bool → State → List Token → State
  | 0, _, s, _ => s
  | fuel + 1, runs, s, tokens =>
    let own := tokens.takeWhile (!endsCommand ·)
    let rest := tokens.dropWhile (!endsCommand ·)
    let feeds := rest.head? == some .pipe
    let ended := if runs then runCommand disk env s (command .empty own) feeds else s
    if ended.exited then ended
    else
      match rest with
      | [] => ended
      | .onSuccess :: after => runTokens disk env fuel (ended.status == 0) ended after
      | .onFailure :: after => runTokens disk env fuel (ended.status != 0) ended after
      | .pipe :: after => runTokens disk env fuel runs ended after
      | _ :: after => runTokens disk env fuel true ended after

/-- Run a script. -/
def run (disk : Disk) (env : Environment) (script : Text) : Finished :=
  match lex env (script.length + 1) none none [] script with
  | none =>
    ⟨2, [], utf8
      s!"{String.ofList env.name}: 1: Syntax error: Unterminated quoted string\n".toList⟩
  | some tokens =>
    let s := runTokens disk env (tokens.length + 1) true ⟨0, [], [], [], false⟩ tokens
    ⟨s.status, s.output, s.errors⟩

end PrototypeGate.Shell

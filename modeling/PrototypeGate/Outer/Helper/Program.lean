import PrototypeGate.Helper.Outcome
import PrototypeGate.Text.Numeral

/-!
# Helper programs

The programs that a helper command can use: printing texts, printing files and removing
files. Each is a function from its arguments, its input and the file tree to its exit
status, its output and its error output.
-/

namespace PrototypeGate

namespace Program

/-- The result of a program that prints bytes. -/
def printed (bytes : List UInt8) : Finished :=
  ⟨0, bytes, []⟩

/-- Whether the character is an octal digit. -/
def isOctal (c : Char) : Bool :=
  '0' ≤ c && c ≤ '7'

/-- The character that an escape letter stands for. -/
def escapeLetter? (c : Char) : Option Char :=
  match c with
  | 'n' => some '\n'
  | 't' => some '\t'
  | 'r' => some '\r'
  | 'a' => some '\x07'
  | 'b' => some '\x08'
  | 'f' => some '\x0c'
  | 'v' => some '\x0b'
  | '\\' => some '\\'
  | '"' => some '"'
  | _ => none

/-- The byte that an escape stands for, given the text after its backslash, and what
follows the escape. Up to three octal digits give the byte's number. -/
def escape? (t : Text) : Option (UInt8 × Text) :=
  match (t.take 3).takeWhile isOctal with
  | [] =>
    match t with
    | c :: rest => (escapeLetter? c).map fun e => (e.toUInt8, rest)
    | [] => none
  | digits =>
    some (UInt8.ofNat (digits.foldl (fun n c => 8 * n + (c.toNat - 0x30)) 0),
      t.drop digits.length)

/-- The bytes of a text whose escapes are replaced. The number bounds the length of the
text. -/
def unescape : Nat → Text → List UInt8
  | 0, _ => []
  | _ + 1, [] => []
  | fuel + 1, c :: rest =>
    match (if c = '\\' then escape? rest else none) with
    | some (byte, after) => byte :: unescape fuel after
    | none => utf8 [c] ++ unescape fuel rest

/-- Print texts separated by spaces; `interprets` tells whether escapes are replaced. -/
def echo (interprets : Bool) (args : List Text) : Finished :=
  let (ending, args) := match args with
    | ['-', 'n'] :: rest => ([], rest)
    | _ => (['\n'], args)
  let body := [' '].intercalate args
  printed ((if interprets then unescape body.length body else utf8 body) ++ utf8 ending)

/-- What a directive of a format prints for an argument. -/
def formatted (kind : Char) (arg : Text) : List UInt8 :=
  match kind with
  | 'b' => unescape arg.length arg
  | 'c' => utf8 (arg.take 1)
  | 'd' => utf8 (if arg = [] then ['0'] else arg)
  | _ => utf8 arg

/-- One pass over a format. The result is what is printed, the arguments left, and
whether an argument was asked for. The number bounds the length of the format. -/
def formatOnce : Nat → Text → List Text → List UInt8 × List Text × Bool
  | 0, _, args => ([], args, false)
  | _ + 1, [], args => ([], args, false)
  | fuel + 1, '%' :: '%' :: rest, args =>
    let (bytes, left, used) := formatOnce fuel rest args
    (utf8 ['%'] ++ bytes, left, used)
  | fuel + 1, '%' :: kind :: rest, args =>
    let (bytes, left, _) := formatOnce fuel rest args.tail
    (formatted kind (args.headD []) ++ bytes, left, true)
  | fuel + 1, c :: rest, args =>
    let (byte, after) := match (if c = '\\' then escape? rest else none) with
      | some (byte, after) => ([byte], after)
      | none => (utf8 [c], rest)
    let (bytes, left, used) := formatOnce fuel after args
    (byte ++ bytes, left, used)

/-- Print arguments by a format, which is used again while arguments are left. -/
def formatAll : Nat → Text → List Text → List UInt8
  | 0, _, _ => []
  | fuel + 1, format, args =>
    let (bytes, left, used) := formatOnce format.length format args
    if used ∧ left ≠ [] then bytes ++ formatAll fuel format left else bytes

/-- Print arguments by a format. -/
def printf (args : List Text) : Finished :=
  match args with
  | [] => ⟨2, [], utf8 "printf: usage: printf format [arg ...]\n".toList⟩
  | format :: rest => printed (formatAll (rest.length + 1) format rest)

/-- Print files one after the other; without arguments print the input. -/
def cat (disk : Disk) (input : List UInt8) (args : List Text) : Finished :=
  let one := fun (arg : Text) =>
    if arg = ['-'] then (⟨0, input, []⟩ : Finished)
    else
      match disk.bytes arg with
      | .ok content => ⟨0, content, []⟩
      | .error problem =>
        ⟨1, [], utf8 s!"cat: {String.ofList arg}: {problem.wording}\n".toList⟩
  let all := (if args.isEmpty then [['-']] else args).map one
  ⟨(all.map Finished.status).foldl max 0, all.flatMap Finished.output,
    all.flatMap Finished.errors⟩

/-- Run one of the programs by its name. The flag tells whether a shell runs it. -/
def run? (disk : Disk) (inShell : Bool) (name : Text) (args : List Text) (input : List UInt8) :
    Option Finished :=
  match String.ofList name with
  | "echo" => some (echo inShell args)
  | "printf" => some (printf args)
  | "cat" => some (cat disk input args)
  | "true" => some ⟨0, [], []⟩
  | "false" => some ⟨1, [], []⟩
  | "rm" => some ⟨0, [], []⟩
  | _ => none

end Program

end PrototypeGate

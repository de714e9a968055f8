import PrototypeGate.Check.Ledger
import PrototypeGate.Declaration.Dialect
import PrototypeGate.Stream.Marker

/-!
# Checking a stream

A run reads the lines of the stream in order. Markers set the position; every other
line moves it on by one and is classified, and a declaration is resolved at the
position it was read at. The run stops at the first conflict.
-/

namespace PrototypeGate

/-- Where the next line of the stream comes from. -/
structure Position where
  /-- The current file. -/
  file : Text
  /-- Number of the next line. -/
  nextLine : Int
  /-- The files named by markers, in order of first appearance. -/
  filesSeen : List Text
  deriving DecidableEq, Repr

/-- Everything a run owns. -/
structure Context where
  /-- Storage-class keywords that begin no prototype. -/
  keywords : List Text
  /-- Where the next line comes from. -/
  position : Position
  /-- The declarations filed so far. -/
  ledger : Ledger
  deriving DecidableEq, Repr

/-- Why a run stops before the end of its stream. -/
inductive Halt where
  /-- Two declarations disagree. -/
  | conflict (conflict : Conflict)
  /-- A marker's line number has too many digits. -/
  | longNumber (digits : Nat)
  deriving DecidableEq, Repr

/-- The position before the first line of a stream. -/
def Position.initial : Position :=
  ⟨"<stdin>".toList, 1, []⟩

/-- Follow a marker. The file is known even if the line number cannot be read. -/
def Position.follow (p : Position) (m : Marker) : Position × Option Halt :=
  match m.number? with
  | none => ({ p with file := m.path }, some (.longNumber m.digits.length))
  | some number =>
    let seen := if m.path ∈ p.filesSeen then p.filesSeen else p.filesSeen ++ [m.path]
    (⟨m.path, number, seen⟩, none)

namespace Context

/-- The context of a new run. -/
def initial (keywords : List Text) : Context :=
  ⟨keywords, .initial, .empty⟩

/-- The context of a new run for a dialect. -/
def ofDialect (dialect : Dialect) : Context :=
  initial (dialect.storageKeywords.map String.toList)

/-- Follow a marker. -/
def follow (ctx : Context) (m : Marker) : Context × Option Halt :=
  let (position, halt) := ctx.position.follow m
  ({ ctx with position }, halt)

/-- Resolve a declaration. -/
def resolve (ctx : Context) (kind : Kind) (record : Record) : Context × Option Halt :=
  let (ledger, conflict) := ctx.ledger.resolve kind record
  ({ ctx with ledger }, conflict.map .conflict)

/-- Read one line of the stream. -/
def readLine (ctx : Context) (raw : Text) : Context × Option Halt :=
  let line := Text.trim raw
  match Marker.read? line with
  | some marker => ctx.follow marker
  | none =>
    let here := ctx.position
    let next := { ctx with position := { here with nextLine := here.nextLine + 1 } }
    match classify ctx.keywords line with
    | none => (next, none)
    | some found =>
      next.resolve found.kind
        ⟨declaredName found.text, found.text, here.file, here.nextLine⟩

/-- Read a stream up to its end or to the line that stops the run. -/
def check (ctx : Context) : List Text → Context × Option Halt
  | [] => (ctx, none)
  | line :: rest =>
    match ctx.readLine line with
    | (next, none) => next.check rest
    | (next, some halt) => (next, some halt)

end Context

end PrototypeGate

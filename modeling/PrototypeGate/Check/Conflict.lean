import PrototypeGate.Check.Record

/-!
# Conflicts between declarations

There are five ways in which a declaration can disagree with the ones before it. Each
has a code, which is also the exit code of the command line.
-/

namespace PrototypeGate

/-- The five inconsistencies. -/
inductive Condition where
  | duplicatePrototype
  | duplicatePrototypeMismatch
  | prototypeAfterDefinition
  | definitionPrototypeMismatch
  | duplicateDefinition
  deriving DecidableEq, Repr

namespace Condition

/-- All conditions, by code. -/
def all : List Condition :=
  [duplicatePrototype, duplicatePrototypeMismatch, prototypeAfterDefinition,
    definitionPrototypeMismatch, duplicateDefinition]

/-- The code of a condition. -/
def code : Condition → Nat
  | duplicatePrototype => 1
  | duplicatePrototypeMismatch => 2
  | prototypeAfterDefinition => 3
  | definitionPrototypeMismatch => 4
  | duplicateDefinition => 5

/-- The name of a condition in reports. -/
def name : Condition → String
  | duplicatePrototype => "DuplicatePrototype"
  | duplicatePrototypeMismatch => "DuplicatePrototypeMismatch"
  | prototypeAfterDefinition => "PrototypeAfterDefinition"
  | definitionPrototypeMismatch => "DefinitionPrototypeMismatch"
  | duplicateDefinition => "DuplicateDefinition"

/-- The condition with the given code. -/
def ofCode? (code : Int) : Option Condition :=
  all.find? fun c => (c.code : Int) == code

/-- What the report says of the offending declaration. -/
def message : Condition → String
  | duplicatePrototype => "redeclares prototype"
  | duplicatePrototypeMismatch => "redeclares prototype"
  | prototypeAfterDefinition => "prototype for already-defined function"
  | definitionPrototypeMismatch => "function definition not matching prototype"
  | duplicateDefinition => "duplicated function"

end Condition

/-- A declaration that disagrees with an earlier one. -/
structure Conflict where
  /-- How the two disagree. -/
  condition : Condition
  /-- The offending declaration. -/
  record : Record
  /-- The earlier declaration. -/
  prior : Record
  deriving DecidableEq, Repr

/-- What the report calls the earlier declaration. -/
def Conflict.priorLabel (c : Conflict) : String :=
  match c.condition with
  | .duplicatePrototype => "previous prototype"
  | .duplicatePrototypeMismatch => "conflicting prototype"
  | .prototypeAfterDefinition => "definition"
  | .definitionPrototypeMismatch => "prototype"
  | .duplicateDefinition =>
    if c.prior.signature = c.record.signature then "previous definition (identical)"
    else "previous definition (differs)"

end PrototypeGate

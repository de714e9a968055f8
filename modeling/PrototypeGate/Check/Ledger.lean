import PrototypeGate.Check.Conflict

/-!
# Resolving declarations

The ledger holds the prototypes and the definitions filed so far. Resolving a
declaration compares it with the ones of the same name and files it, unless it is in
conflict. A prototype of a function that is already defined is filed all the same.
-/

namespace PrototypeGate

/-- The two registries of a run. -/
structure Ledger where
  /-- The prototypes filed so far. -/
  prototypes : Registry
  /-- The definitions filed so far. -/
  definitions : Registry
  deriving DecidableEq, Repr

namespace Ledger

/-- The ledger without records. -/
def empty : Ledger := ⟨.empty, .empty⟩

/-- Resolve a prototype. -/
def resolvePrototype (l : Ledger) (record : Record) : Ledger × Option Conflict :=
  match l.prototypes.find? record.name with
  | some prior =>
    if prior.signature = record.signature then (l, some ⟨.duplicatePrototype, record, prior⟩)
    else (l, some ⟨.duplicatePrototypeMismatch, record, prior⟩)
  | none =>
    ({ l with prototypes := l.prototypes.insert record },
      (l.definitions.find? record.name).map (⟨.prototypeAfterDefinition, record, ·⟩))

/-- File a definition that agrees with its prototype. -/
def fileDefinition (l : Ledger) (record : Record) : Ledger × Option Conflict :=
  match l.definitions.find? record.name with
  | some prior => (l, some ⟨.duplicateDefinition, record, prior⟩)
  | none => ({ l with definitions := l.definitions.insert record }, none)

/-- Resolve a definition. -/
def resolveDefinition (l : Ledger) (record : Record) : Ledger × Option Conflict :=
  match l.prototypes.find? record.name with
  | some prototype =>
    if prototype.signature = record.signature then l.fileDefinition record
    else (l, some ⟨.definitionPrototypeMismatch, record, prototype⟩)
  | none => l.fileDefinition record

/-- Resolve a declaration of either kind. -/
def resolve (l : Ledger) : Kind → Record → Ledger × Option Conflict
  | .prototype => l.resolvePrototype
  | .definition => l.resolveDefinition

end Ledger

end PrototypeGate

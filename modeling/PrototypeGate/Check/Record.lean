import PrototypeGate.Declaration.Classify

/-!
# Records and registries

A declaration is filed under its name with the place it was read at. A registry keeps
its records in the order in which they were filed and never gives one up.
-/

namespace PrototypeGate

/-- A declaration with its name and its place in the sources. -/
structure Record where
  /-- Name of the function. -/
  name : Text
  /-- Text of the declaration. -/
  signature : Text
  /-- File in which the declaration stands. -/
  file : Text
  /-- Line on which the declaration begins. -/
  line : Int
  deriving DecidableEq, Repr

/-- The records of one kind of declaration, in filing order. -/
structure Registry where
  /-- The records, first filed first. -/
  records : List Record
  deriving DecidableEq, Repr

namespace Registry

/-- The registry without records. -/
def empty : Registry := ⟨[]⟩

/-- The record filed under a name. -/
def find? (r : Registry) (name : Text) : Option Record :=
  r.records.find? fun record => record.name == name

/-- File a record after all others. -/
def insert (r : Registry) (record : Record) : Registry :=
  ⟨r.records ++ [record]⟩

/-- Number of records. -/
def size (r : Registry) : Nat :=
  r.records.length

end Registry

end PrototypeGate

import PrototypeGate.Text.Blank

/-!
# Compiler dialects

Compilers for small microcontrollers declare special function registers with storage
classes of their own. Lines that begin with one of them look like prototypes and are
none.
-/

namespace PrototypeGate

/-- The compilers whose storage classes are known. -/
inductive Dialect where
  | c51
  | sdcc
  deriving DecidableEq, Repr

namespace Dialect

/-- The name of the dialect in options and settings. -/
def name : Dialect → String
  | c51 => "c51"
  | sdcc => "sdcc"

/-- All dialects, by name. -/
def all : List Dialect := [c51, sdcc]

/-- The dialect of the given name. -/
def ofName? (name : String) : Option Dialect :=
  all.find? fun d => d.name == name

/-- The storage classes of the dialect. -/
def storageKeywords : Dialect → List String
  | c51 => ["sfr", "sfr16", "sbit"]
  | sdcc => ["__sfr", "__sfr16", "__sbit"]

/-- The dialect in force when none is chosen. -/
def standard : Dialect := sdcc

end Dialect

end PrototypeGate

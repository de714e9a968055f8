import PrototypeGate.Text.Blank

/-!
# Tokens

The tokens of a document. Indentation shows as tokens that open and close block
collections.
-/

namespace PrototypeGate.Yaml

/-- What a directive says. -/
inductive Directive where
  /-- The version of the language. -/
  | version (major minor : Nat)
  /-- A handle for tags and the text it stands for. -/
  | handle (name replacement : Text)
  /-- A directive without meaning. -/
  | reserved
  deriving DecidableEq, Repr

/-- The tokens of a document. -/
inductive Token where
  | directive (d : Directive)
  | documentStart
  | documentEnd
  | streamEnd
  | blockSequenceStart
  | blockMappingStart
  | blockEnd
  | flowSequenceStart
  | flowSequenceEnd
  | flowMappingStart
  | flowMappingEnd
  | blockEntry
  | flowEntry
  | key
  | value
  | reference (name : Text)
  | anchor (name : Text)
  | tag (handle : Option Text) (suffix : Text)
  | scalar (text : Text) (plain : Bool)
  deriving DecidableEq, Repr

end PrototypeGate.Yaml

import PrototypeGate.Text.Blank

/-!
# Normalizers

Sources are normalized by the built-in stripper or by a helper command. The command is
given the paths of all sources, and the dialect where it asks for it.
-/

namespace PrototypeGate

/-- Replace each occurrence of a text, from left to right. `skip` characters belong to an
occurrence that was replaced already. -/
def replaceFrom (old new : Text) : Nat → Text → Text
  | _, [] => []
  | skip + 1, _ :: rest => replaceFrom old new skip rest
  | 0, c :: rest =>
    if old.isPrefixOf (c :: rest) then new ++ replaceFrom old new (old.length - 1) rest
    else c :: replaceFrom old new 0 rest

/-- How sources are normalized. -/
inductive Normalizer where
  /-- By the built-in stripper. -/
  | builtin (dialect : String)
  /-- By a helper command. -/
  | external (command : List String) (dialect : String)
  deriving DecidableEq, Repr

namespace Normalizer

/-- The normalizer for a command; without one it is the built-in stripper. -/
def ofCommand (command : List String) (dialect : String) : Normalizer :=
  if command.isEmpty then .builtin dialect else .external command dialect

/-- The text in a command that stands for the dialect. -/
def dialectMark : Text := "\x7bdialect\x7d".toList

/-- The words with which a helper is started. -/
def words (command : List String) (dialect : String) (paths : List String) : List String :=
  command.map (fun part =>
    String.ofList (replaceFrom dialectMark dialect.toList 0 part.toList)) ++ paths

end Normalizer

end PrototypeGate

/-!
# Character tables

A class of characters is given by closed ranges of code points.
-/

namespace PrototypeGate

/-- Whether the character's code point lies in one of the closed ranges. -/
def inRanges (table : List (Nat × Nat)) (c : Char) : Bool :=
  table.any fun r => r.1 ≤ c.toNat && c.toNat ≤ r.2

end PrototypeGate

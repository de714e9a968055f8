import PrototypeGate.Text.Blank

/-!
# Binary scalars

A scalar may hold bytes, four characters for three of them. Characters without a
meaning are skipped, and padding at the end of a group closes the scalar.
-/

namespace PrototypeGate.Yaml.Binary

/-- The six bits that a character stands for. -/
def sextet? (c : Char) : Option Nat :=
  if c.isUpper then some (c.toNat - 0x41)
  else if c.isLower then some (c.toNat - 0x61 + 26)
  else if c.isDigit then some (c.toNat - 0x30 + 52)
  else if c = '+' then some 62
  else if c = '/' then some 63
  else none

/-- The bytes of a text. `place` counts the characters of the open group, `left` holds the
bits that they leave over, and `pads` counts the padding after them. -/
def decodeFrom (place left pads : Nat) : Text → Option (List UInt8)
  | [] => if place = 0 then some [] else none
  | c :: rest =>
    if c = '=' then
      if 2 ≤ place then
        if 4 ≤ place + pads + 1 then some [] else decodeFrom place left (pads + 1) rest
      else decodeFrom place left pads rest
    else
      match sextet? c with
      | none => decodeFrom place left pads rest
      | some bits =>
        match place with
        | 0 => decodeFrom 1 bits 0 rest
        | 1 => (decodeFrom 2 (bits % 16) 0 rest).map (UInt8.ofNat (4 * left + bits / 16) :: ·)
        | 2 => (decodeFrom 3 (bits % 4) 0 rest).map (UInt8.ofNat (16 * left + bits / 4) :: ·)
        | _ => (decodeFrom 0 0 0 rest).map (UInt8.ofNat (64 * left + bits) :: ·)

/-- The bytes of a scalar. It must be ASCII, and its last group must be complete. -/
def decode? (t : Text) : Option (List UInt8) :=
  if t.all fun c => c.toNat < 0x80 then decodeFrom 0 0 0 t else none

end PrototypeGate.Yaml.Binary

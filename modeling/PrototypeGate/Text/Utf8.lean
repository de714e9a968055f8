import PrototypeGate.Text.Blank

/-!
# UTF-8

A text is written as bytes in one way, and bytes are decoded in two ways. The strict one
refuses bytes that are not UTF-8; the lenient one puts a replacement character for each
longest run of bytes that begins a character and breaks off, or for a byte that begins none.
-/

namespace PrototypeGate

/-- The bytes of a text. -/
def utf8 (t : Text) : List UInt8 :=
  (String.ofList t).toUTF8.toList

namespace Utf8

/-- The character put for bytes that cannot be decoded. -/
def replacement : Char := '\ufffd'

/-- What a first byte asks for: the number of further bytes, the bits it contributes,
and the range of the second byte. -/
structure Lead where
  /-- Number of further bytes. -/
  more : Nat
  /-- Bits from the first byte. -/
  bits : Nat
  /-- Least second byte. -/
  low : Nat
  /-- Greatest second byte. -/
  high : Nat

/-- The role of a byte at the start of a character of several bytes. -/
def lead? (b : Nat) : Option Lead :=
  if 0xc2 ≤ b ∧ b ≤ 0xdf then some ⟨1, b - 0xc0, 0x80, 0xbf⟩
  else if b = 0xe0 then some ⟨2, 0, 0xa0, 0xbf⟩
  else if b = 0xed then some ⟨2, 0xd, 0x80, 0x9f⟩
  else if 0xe1 ≤ b ∧ b ≤ 0xef then some ⟨2, b - 0xe0, 0x80, 0xbf⟩
  else if b = 0xf0 then some ⟨3, 0, 0x90, 0xbf⟩
  else if 0xf1 ≤ b ∧ b ≤ 0xf3 then some ⟨3, b - 0xf0, 0x80, 0xbf⟩
  else if b = 0xf4 then some ⟨3, 4, 0x80, 0x8f⟩
  else none

/-- A character begun but not finished. -/
structure Pending where
  /-- Number of bytes still missing. -/
  more : Nat
  /-- Bits read so far. -/
  bits : Nat
  /-- Least next byte. -/
  low : Nat
  /-- Greatest next byte. -/
  high : Nat

/-- Decode bytes; `none` stands for a run of bytes that cannot be decoded. -/
def decodeFrom : Option Pending → List UInt8 → List (Option Char)
  | none, [] => []
  | some _, [] => [none]
  | none, b :: rest =>
    if b.toNat < 0x80 then some (Char.ofNat b.toNat) :: decodeFrom none rest
    else
      match lead? b.toNat with
      | some l => decodeFrom (some ⟨l.more, l.bits, l.low, l.high⟩) rest
      | none => none :: decodeFrom none rest
  | some p, b :: rest =>
    if p.low ≤ b.toNat ∧ b.toNat ≤ p.high then
      let bits := p.bits * 64 + b.toNat % 64
      if p.more ≤ 1 then some (Char.ofNat bits) :: decodeFrom none rest
      else decodeFrom (some ⟨p.more - 1, bits, 0x80, 0xbf⟩) rest
    else if b.toNat < 0x80 then none :: some (Char.ofNat b.toNat) :: decodeFrom none rest
    else
      match lead? b.toNat with
      | some l => none :: decodeFrom (some ⟨l.more, l.bits, l.low, l.high⟩) rest
      | none => none :: none :: decodeFrom none rest

/-- Decode bytes, with a replacement for those that cannot be decoded. -/
def decodeLenient (bytes : List UInt8) : Text :=
  (decodeFrom none bytes).map (·.getD replacement)

/-- Decode bytes, unless some cannot be decoded. -/
def decodeStrict? (bytes : List UInt8) : Option Text :=
  (decodeFrom none bytes).mapM id

end Utf8

end PrototypeGate

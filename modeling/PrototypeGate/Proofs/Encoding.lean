import Mathlib.Tactic.SplitIfs
import PrototypeGate.Text.Utf8

/-!
# Reading back what was written

A text is written as UTF-8 and decoded when it is read. Decoding gives back every text that
was written: the first byte of a character tells how many bytes follow, and no byte that
follows lies outside the range that the decoder asks for.
-/

namespace PrototypeGate

private theorem toList_loop (bytes : ByteArray) (i : Nat) (done : List UInt8) :
    ByteArray.toList.loop bytes i done = done.reverse ++ bytes.data.toList.drop i := by
  fun_induction ByteArray.toList.loop bytes i done with
  | case1 i done hi ih =>
    have hbyte : bytes.get! i = bytes.data[i] := getElem!_pos bytes.data i hi
    rw [ih, List.drop_eq_getElem_cons hi, hbyte, List.reverse_cons, List.append_assoc,
      List.singleton_append, Array.getElem_toList]
  | case2 i done hi =>
    rw [List.drop_of_length_le (Nat.le_of_not_lt hi), List.append_nil]

/-- The bytes of a text are those of its characters. -/
theorem utf8_eq_flatMap (t : Text) : utf8 t = t.flatMap String.utf8EncodeChar := by
  simp [utf8, ByteArray.toList, toList_loop, String.toByteArray_ofList, List.utf8Encode]

namespace Utf8

/-- The last byte of a character ends it. -/
theorem decodeFrom_last {bits low high n : Nat} (hn : n < 256) (hlow : low ≤ n)
    (hhigh : n ≤ high) (rest : List UInt8) :
    decodeFrom (some ⟨1, bits, low, high⟩) (UInt8.ofNat n :: rest) =
      some (Char.ofNat (bits * 64 + n % 64)) :: decodeFrom none rest := by
  rw [decodeFrom, UInt8.toNat_ofNat_of_lt' hn]
  exact (if_pos ⟨hlow, hhigh⟩).trans (if_pos (Nat.le_refl 1))

/-- A byte before the last one gives six bits to the character. -/
theorem decodeFrom_more {more bits low high n : Nat} (hn : n < 256) (hlow : low ≤ n)
    (hhigh : n ≤ high) (rest : List UInt8) :
    decodeFrom (some ⟨more + 2, bits, low, high⟩) (UInt8.ofNat n :: rest) =
      decodeFrom (some ⟨more + 1, bits * 64 + n % 64, 0x80, 0xbf⟩) rest := by
  rw [decodeFrom, UInt8.toNat_ofNat_of_lt' hn]
  exact (if_pos ⟨hlow, hhigh⟩).trans (if_neg (by simp))

/-- A byte that begins a character of several bytes asks for the others. -/
theorem decodeFrom_none_cons {n more bits low high : Nat} (hn : n < 256)
    (hlead : lead? n = some ⟨more, bits, low, high⟩) (rest : List UInt8) :
    decodeFrom none (UInt8.ofNat n :: rest) =
      decodeFrom (some ⟨more, bits, low, high⟩) rest := by
  have hlarge : ¬n < 0x80 := by
    intro hsmall
    rw [lead?] at hlead
    split_ifs at hlead <;> omega
  rw [decodeFrom, UInt8.toNat_ofNat_of_lt' hn, if_neg hlarge, hlead]

/-- The first of two bytes. -/
theorem lead?_two {v : Nat} (h : 0x80 ≤ v) (h' : v < 0x800) :
    lead? (v / 64 + 192) = some ⟨1, v / 64, 0x80, 0xbf⟩ := by
  rw [lead?, if_pos (by omega)]
  simp only [Nat.add_sub_cancel]

/-- The first of three bytes, and the range of the second one. Code points of surrogates are
left out. -/
theorem lead?_three {v : Nat} (h : 0x800 ≤ v) (h' : v < 0x10000)
    (hscalar : v < 0xd800 ∨ 0xdfff < v) :
    ∃ low high, lead? (v / 4096 + 224) = some ⟨2, v / 4096, low, high⟩ ∧
      low ≤ v / 64 % 64 + 128 ∧ v / 64 % 64 + 128 ≤ high := by
  rw [lead?, if_neg (by omega)]
  by_cases hfirst : v / 4096 + 224 = 0xe0
  · refine ⟨0xa0, 0xbf, ?_, by omega, by omega⟩
    rw [if_pos hfirst, show v / 4096 = 0 by omega]
  · rw [if_neg hfirst]
    by_cases hsurrogate : v / 4096 + 224 = 0xed
    · refine ⟨0x80, 0x9f, ?_, by omega, by omega⟩
      rw [if_pos hsurrogate, show v / 4096 = 0xd by omega]
    · refine ⟨0x80, 0xbf, ?_, by omega, by omega⟩
      rw [if_neg hsurrogate, if_pos (by omega), Nat.add_sub_cancel]

/-- The first of four bytes, and the range of the second one. -/
theorem lead?_four {v : Nat} (h : 0x10000 ≤ v) (h' : v < 0x110000) :
    ∃ low high, lead? (v / 262144 + 240) = some ⟨3, v / 262144, low, high⟩ ∧
      low ≤ v / 4096 % 64 + 128 ∧ v / 4096 % 64 + 128 ≤ high := by
  rw [lead?, if_neg (by omega), if_neg (by omega), if_neg (by omega), if_neg (by omega)]
  by_cases hfirst : v / 262144 + 240 = 0xf0
  · refine ⟨0x90, 0xbf, ?_, by omega, by omega⟩
    rw [if_pos hfirst, show v / 262144 = 0 by omega]
  · rw [if_neg hfirst]
    by_cases hlast : v / 262144 + 240 = 0xf4
    · refine ⟨0x80, 0x8f, ?_, by omega, by omega⟩
      rw [if_neg (by omega), if_pos hlast, show v / 262144 = 4 by omega]
    · refine ⟨0x80, 0xbf, ?_, by omega, by omega⟩
      rw [if_pos (by omega), Nat.add_sub_cancel]

/-- The bytes of a character are decoded to the character. -/
theorem decodeFrom_utf8EncodeChar (c : Char) (rest : List UInt8) :
    decodeFrom none (String.utf8EncodeChar c ++ rest) = some c :: decodeFrom none rest := by
  obtain ⟨v, hv⟩ : ∃ v, v = c.toNat := ⟨_, rfl⟩
  have hscalar : v < 0xd800 ∨ 0xdfff < v ∧ v < 0x110000 := hv ▸ c.valid
  have hchar : Char.ofNat v = c := by rw [hv, Char.ofNat_toNat]
  have hencode : String.utf8EncodeChar c =
      if v ≤ 127 then [UInt8.ofNat v]
      else if v ≤ 2047 then [UInt8.ofNat (v / 64 % 32 + 192), UInt8.ofNat (v % 64 + 128)]
      else if v ≤ 65535 then
        [UInt8.ofNat (v / 4096 % 16 + 224), UInt8.ofNat (v / 64 % 64 + 128),
          UInt8.ofNat (v % 64 + 128)]
      else
        [UInt8.ofNat (v / 262144 % 8 + 240), UInt8.ofNat (v / 4096 % 64 + 128),
          UInt8.ofNat (v / 64 % 64 + 128), UInt8.ofNat (v % 64 + 128)] := by
    rw [hv]
    rfl
  rw [hencode]
  split_ifs with hone htwo hthree
  · have hsize : v < UInt8.size := Nat.lt_of_le_of_lt hone (by decide)
    rw [List.cons_append, List.nil_append, decodeFrom, UInt8.toNat_ofNat_of_lt' hsize,
      if_pos (by omega), hchar]
  · have hlead := lead?_two (v := v) (by omega) (by omega)
    rw [show v / 64 % 32 + 192 = v / 64 + 192 by omega, List.cons_append, List.cons_append,
      List.nil_append, decodeFrom_none_cons (by omega) hlead,
      decodeFrom_last (by omega) (by omega) (by omega), ← hchar]
    congr 3
    omega
  · obtain ⟨low, high, hlead, hlow, hhigh⟩ :=
      lead?_three (v := v) (by omega) (by omega) (by omega)
    rw [show v / 4096 % 16 + 224 = v / 4096 + 224 by omega, List.cons_append, List.cons_append,
      List.cons_append, List.nil_append, decodeFrom_none_cons (by omega) hlead,
      decodeFrom_more (by omega) hlow hhigh,
      decodeFrom_last (by omega) (by omega) (by omega), ← hchar]
    congr 3
    omega
  · obtain ⟨low, high, hlead, hlow, hhigh⟩ := lead?_four (v := v) (by omega) (by omega)
    rw [show v / 262144 % 8 + 240 = v / 262144 + 240 by omega, List.cons_append,
      List.cons_append, List.cons_append, List.cons_append, List.nil_append,
      decodeFrom_none_cons (by omega) hlead, decodeFrom_more (by omega) hlow hhigh,
      decodeFrom_more (by omega) (by omega) (by omega),
      decodeFrom_last (by omega) (by omega) (by omega), ← hchar]
    congr 3
    omega

/-- Decoding gives back a text that was written. -/
theorem decodeLenient_utf8 (t : Text) : decodeLenient (utf8 t) = t := by
  have hdecode : decodeFrom none (utf8 t) = t.map some := by
    rw [utf8_eq_flatMap]
    induction t with
    | nil => rfl
    | cons c rest ih => rw [List.flatMap_cons, decodeFrom_utf8EncodeChar, ih, List.map_cons]
  rw [decodeLenient, hdecode, List.map_map]
  exact List.map_id t

end Utf8

end PrototypeGate

import Mathlib.Data.List.Basic
import PrototypeGate.Proofs.Blank
import PrototypeGate.Stream.Marker

/-!
# Reading markers back

A marker that was written for a file and a line is read back as that file and that line,
whatever characters the path is made of and whatever follows the marker. Every quote and
every backslash of the path is written with a backslash before it, so the first quote
without one is the closing one.
-/

namespace PrototypeGate

/-! ### Digits -/

/-- An ASCII digit is a decimal digit with the value it has in numerals. -/
theorem decimalValue?_of_isDigit {c : Char} (h : c.isDigit = true) :
    decimalValue? c = some (c.toNat - '0'.toNat) := by
  have hrange : 48 ≤ c.toNat ∧ c.toNat ≤ 57 := Char.isDigit_iff_toNat.mp h
  rw [decimalValue?, if_pos (by omega), if_pos h]
  rfl

/-- An ASCII digit is no white space. -/
theorem isBlank_of_isDigit {c : Char} (h : c.isDigit = true) : isBlank c = false := by
  have hrange : 48 ≤ c.toNat ∧ c.toNat ≤ 57 := Char.isDigit_iff_toNat.mp h
  simp only [isBlank, inRanges, blankRanges, List.any_cons, List.any_nil, Bool.or_false,
    Bool.or_eq_false_iff, Bool.and_eq_false_iff, decide_eq_false_iff_not]
  omega

/-- Reading decimal digits is reading numerals. -/
theorem decimalNumber_eq_ofDigitChars {digits : Text} (h : ∀ c ∈ digits, c.isDigit = true) :
    decimalNumber digits = Nat.ofDigitChars 10 digits 0 := by
  rw [decimalNumber, Nat.ofDigitChars_eq_foldl]
  refine List.foldl_ext _ _ _ fun n c hc => ?_
  rw [decimalValue?_of_isDigit (h c hc), Option.getD_some]

/-- Reading the decimal digits of a number gives the number. -/
theorem decimalNumber_toDigits (n : Nat) : decimalNumber (Nat.toDigits 10 n) = n := by
  rw [decimalNumber_eq_ofDigitChars fun c hc =>
    Nat.isDigit_of_mem_toDigits (by decide) (by decide) hc]
  exact Nat.ofDigitChars_ten_toDigits

namespace Marker

/-- An escaped path is read back up to the quote that closes it. -/
theorem unescape?_escape (path rest : Text) :
    unescape? (escape path ++ '"' :: rest) = some path := by
  induction path with
  | nil => rfl
  | cons c path ih =>
    by_cases hc : c = '\\' ∨ c = '"'
    · have hline : c ≠ '\n' := by rintro rfl; simp at hc
      have hescape : escape (c :: path) = '\\' :: c :: escape path := if_pos hc
      rw [hescape, List.cons_append, List.cons_append, unescape?, if_neg hline, ih,
        Option.map_some]
    · have hescape : escape (c :: path) = c :: escape path := if_neg hc
      obtain ⟨hbackslash, hquote⟩ := not_or.mp hc
      rw [hescape, List.cons_append, unescape?, ih, Option.map_some]
      · exact hquote
      · exact fun h _ => hbackslash h
      · exact fun _ _ h _ => hbackslash h

/-- A line number in ASCII digits and a quoted path are read as they stand. -/
theorem read?_digits {digits : Text} (hne : digits ≠ [])
    (hdigits : ∀ c ∈ digits, c.isDigit = true) (quoted : Text) :
    read? ('#' :: (digits ++ ' ' :: '"' :: quoted)) =
      (unescape? quoted).map fun path => ⟨digits, path⟩ := by
  have hblank : (digits ++ ' ' :: '"' :: quoted).dropWhile isBlank =
      digits ++ ' ' :: '"' :: quoted := by
    obtain ⟨d, rest, rfl⟩ := List.exists_cons_of_ne_nil hne
    have hd := isBlank_of_isDigit (hdigits d List.mem_cons_self)
    rw [List.cons_append, List.dropWhile_cons_of_neg (by simp [hd])]
  have hdecimal : ∀ c ∈ digits, isDecimal c = true := fun c hc => by
    rw [isDecimal, decimalValue?_of_isDigit (hdigits c hc), Option.isSome_some]
  have hspace : isDecimal ' ' = false := by decide
  have htake : (digits ++ ' ' :: '"' :: quoted).takeWhile isDecimal = digits := by
    rw [List.takeWhile_append_of_pos hdecimal, List.takeWhile_cons_of_neg (by simp [hspace]),
      List.append_nil]
  have hdrop : (digits ++ ' ' :: '"' :: quoted).dropWhile isDecimal = ' ' :: '"' :: quoted := by
    rw [List.dropWhile_append_of_pos hdecimal, List.dropWhile_cons_of_neg (by simp [hspace])]
  have hspaceBlank : isBlank ' ' = true := by decide
  have hquoteBlank : isBlank '"' = false := by decide
  rw [read?]
  simp only [hblank, htake, hdrop, List.takeWhile_cons, List.dropWhile_cons, hspaceBlank,
    hquoteBlank, if_true, Bool.false_eq_true, if_false, if_neg hne]

/-- A text that does not begin with a hash sign is no marker. -/
theorem read?_eq_none {t : Text} (h : t.head? ≠ some '#') : read? t = none := by
  rw [read?]
  rintro rest rfl
  exact h rfl

/-- The marker that is written for a line of a file is read back as that line of that
file. -/
theorem read?_render (n : Nat) (path rest : Text) :
    read? (render n path ++ rest) = some ⟨Nat.toDigits 10 n, path⟩ := by
  have hrender : render n path ++ rest =
      '#' :: (Nat.toDigits 10 n ++ ' ' :: '"' :: (escape path ++ '"' :: rest)) := by
    simp [render, decimalText]
  have hdigits : ∀ c ∈ Nat.toDigits 10 n, c.isDigit = true := fun c hc =>
    Nat.isDigit_of_mem_toDigits (by decide) (by decide) hc
  rw [hrender, read?_digits Nat.toDigits_ne_nil hdigits, unescape?_escape, Option.map_some]

/-- The number of a marker that was written for a line is the number of the line, as long
as it has no more digits than can be read. -/
theorem number?_toDigits {n : Nat} (path : Text)
    (hlimit : (Nat.toDigits 10 n).length ≤ digitLimit) :
    number? ⟨Nat.toDigits 10 n, path⟩ = some n := by
  rw [number?, if_pos hlimit, decimalNumber_toDigits]

/-- A marker has no white space at its ends. -/
theorem trimmed_render (n : Nat) (path : Text) : Trimmed (render n path) := by
  have hrender : render n path =
      '#' :: ((Nat.toDigits 10 n ++ ' ' :: '"' :: escape path) ++ ['"']) := by
    simp [render, decimalText]
  rw [hrender]
  exact trimmed_cons_append _ (by decide) (by decide)

/-- The marker that is written for a line of a file is a line of the stream that is read
back as that line of that file. -/
theorem read?_trim_render (n : Nat) (path : Text) :
    read? (Text.trim (render n path)) = some ⟨Nat.toDigits 10 n, path⟩ := by
  rw [(trimmed_render n path).trim_eq, ← List.append_nil (render n path)]
  exact read?_render n path []

end Marker

end PrototypeGate

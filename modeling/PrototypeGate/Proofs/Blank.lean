import Mathlib.Data.List.TakeWhile
import PrototypeGate.Text.Blank

/-!
# Trimmed text

A text is trimmed when no white space stands at its ends. Trimming makes a text trimmed,
changes nothing in one that is, and the collapse of inner white space keeps it so.
-/

namespace PrototypeGate

/-- No white space stands at either end of the text. -/
structure Trimmed (t : Text) : Prop where
  /-- The text does not begin with white space. -/
  first : ∀ c ∈ t.head?, isBlank c = false
  /-- The text does not end with white space. -/
  last : ∀ c ∈ t.getLast?, isBlank c = false

instance (t : Text) : Decidable (Trimmed t) :=
  -- Only the characters at the ends are looked at, not all that there are.
  have : Decidable (∀ c ∈ t.head?, isBlank c = false) := Option.decidableForallMem _
  have : Decidable (∀ c ∈ t.getLast?, isBlank c = false) := Option.decidableForallMem _
  decidable_of_iff (_ ∧ _) ⟨fun h => ⟨h.1, h.2⟩, fun h => ⟨h.first, h.last⟩⟩

/-- A text that begins and ends with characters that are not blank is trimmed. -/
theorem trimmed_cons_append {c d : Char} (t : Text) (hc : isBlank c = false)
    (hd : isBlank d = false) : Trimmed (c :: (t ++ [d])) :=
  ⟨by simpa using hc, by simpa [List.getLast?_cons] using hd⟩

private theorem first_dropWhile (t : Text) :
    ∀ c ∈ (t.dropWhile isBlank).head?, isBlank c = false := by
  intro c hc
  have hfirst := List.head?_dropWhile_not isBlank t
  rw [Option.mem_def] at hc
  simpa [hc] using hfirst

private theorem dropWhile_of_first {t : Text} (h : ∀ c ∈ t.head?, isBlank c = false) :
    t.dropWhile isBlank = t := by
  cases t with
  | nil => rfl
  | cons c rest => simp [h c rfl]

/-- A text that does not begin with white space has none to drop in front. -/
theorem trimLeft_of_first {t : Text} (h : ∀ c ∈ t.head?, isBlank c = false) :
    Text.trimLeft t = t :=
  dropWhile_of_first h

/-- A text that does not end with white space has none to drop at its end. -/
theorem trimRight_of_last {t : Text} (h : ∀ c ∈ t.getLast?, isBlank c = false) :
    Text.trimRight t = t := by
  rw [← List.head?_reverse] at h
  rw [Text.trimRight, dropWhile_of_first h, List.reverse_reverse]

/-- White space behind a text is dropped. -/
theorem trimRight_append_blanks (t : Text) {blanks : Text}
    (hblanks : ∀ c ∈ blanks, isBlank c = true) :
    Text.trimRight (t ++ blanks) = Text.trimRight t := by
  have hreverse : ∀ c ∈ blanks.reverse, isBlank c = true := fun c hc =>
    hblanks c (List.mem_reverse.mp hc)
  rw [Text.trimRight, List.reverse_append, List.dropWhile_append_of_pos hreverse, Text.trimRight]

/-- White space behind a text is trimmed off. -/
theorem trim_append_blanks (t : Text) {blanks : Text} (hblanks : ∀ c ∈ blanks, isBlank c = true) :
    Text.trim (t ++ blanks) = Text.trim t := by
  rw [Text.trim, Text.trimLeft, List.dropWhile_append]
  split
  · next hempty =>
    have hall : blanks.dropWhile isBlank = [] := List.dropWhile_eq_nil_iff.mpr hblanks
    rw [hall, Text.trim, Text.trimLeft, List.isEmpty_iff.mp hempty]
  · exact trimRight_append_blanks _ hblanks

/-- Trimming the end of a text drops white space only. -/
theorem exists_trimRight_append (t : Text) :
    ∃ blanks, (∀ c ∈ blanks, isBlank c = true) ∧ Text.trimRight t ++ blanks = t := by
  refine ⟨(t.reverse.takeWhile isBlank).reverse, fun c hc => ?_, ?_⟩
  · exact List.all_eq_true.mp List.all_takeWhile c (List.mem_reverse.mp hc)
  · rw [Text.trimRight, ← List.reverse_append, List.takeWhile_append_dropWhile,
      List.reverse_reverse]

/-- What stands before a character that is not blank is kept when the end is trimmed. -/
theorem trimRight_append_cons {c : Char} (hc : isBlank c = false) (t rest : Text) :
    Text.trimRight (t ++ c :: rest) = t ++ c :: Text.trimRight rest := by
  have hstop : (c :: t.reverse).dropWhile isBlank = c :: t.reverse :=
    dropWhile_of_first (by simpa using hc)
  have hdrop : (rest.reverse ++ c :: t.reverse).dropWhile isBlank =
      rest.reverse.dropWhile isBlank ++ c :: t.reverse := by
    rw [List.dropWhile_append]
    split
    · next hempty => rw [List.isEmpty_iff.mp hempty, hstop, List.nil_append]
    · rfl
  rw [Text.trimRight, Text.trimRight, List.reverse_append, List.reverse_cons, List.append_assoc,
    List.singleton_append, hdrop]
  simp

/-- Trimming leaves no white space at the ends. -/
theorem trimmed_trim (t : Text) : Trimmed (Text.trim t) := by
  constructor
  · -- What is left after trimming the end is a beginning of the text.
    intro c hc
    apply first_dropWhile t c
    obtain ⟨dropped, hdropped⟩ := List.reverse_prefix.mpr
      (List.dropWhile_suffix (l := (Text.trimLeft t).reverse) isBlank)
    rw [List.reverse_reverse] at hdropped
    change Text.trim t ++ dropped = Text.trimLeft t at hdropped
    obtain ⟨rest, hrest⟩ := List.head?_eq_some_iff.mp hc
    change c ∈ (Text.trimLeft t).head?
    simp [← hdropped, hrest]
  · intro c hc
    rw [Text.trim, Text.trimRight, List.getLast?_reverse] at hc
    exact first_dropWhile _ c hc

/-- Trimming changes nothing in a text that is trimmed. -/
theorem Trimmed.trim_eq {t : Text} (h : Trimmed t) : Text.trim t = t := by
  rw [Text.trim, trimLeft_of_first h.first, trimRight_of_last h.last]

/-- Trimming keeps the front of a text that begins with a character that is not blank. -/
theorem trim_cons {c : Char} (hc : isBlank c = false) (rest : Text) :
    Text.trim (c :: rest) = c :: Text.trimRight rest := by
  rw [Text.trim, trimLeft_of_first (by simpa using hc)]
  exact trimRight_append_cons hc [] rest

/-- A character of a text after its white space is collapsed. -/
def collapseChar (c : Char) : Char :=
  if isBlank c then ' ' else c

/-- The first character of a text is kept when white space is collapsed, as a space if it
is blank. -/
theorem head?_collapse (t : Text) : (Text.collapse t).head? = t.head?.map collapseChar := by
  fun_induction Text.collapse t with
  | case1 => rfl
  | case2 c rest hblank hnext ih =>
    cases rest with
    | nil => simp at hnext
    | cons d rest =>
      have hd : isBlank d = true := by simpa using hnext
      simp [ih, collapseChar, hblank, hd]
  | case3 c rest hblank => simp [collapseChar, hblank]
  | case4 c rest hblank => simp [collapseChar, hblank]

/-- The last character of a text is kept when white space is collapsed, as a space if it
is blank. -/
theorem getLast?_collapse (t : Text) :
    (Text.collapse t).getLast? = t.getLast?.map collapseChar := by
  fun_induction Text.collapse t with
  | case1 => rfl
  | case2 c rest hblank hnext ih =>
    have hne : rest ≠ [] := by rintro rfl; simp at hnext
    rw [ih, List.getLast?_cons_of_ne_nil hne]
  | case3 c rest hblank hnext ih =>
    rw [List.getLast?_cons, List.getLast?_cons, ih]
    cases rest.getLast? <;> simp [collapseChar, hblank]
  | case4 c rest hblank ih =>
    rw [List.getLast?_cons, List.getLast?_cons, ih]
    cases rest.getLast? <;> simp [collapseChar, hblank]

/-- The only white space in a text after its white space is collapsed are spaces. -/
theorem eq_space_of_mem_collapse {c : Char} {t : Text} (hc : c ∈ Text.collapse t)
    (hblank : isBlank c = true) : c = ' ' := by
  fun_induction Text.collapse t with
  | case1 => cases hc
  | case2 d rest hd hnext ih => exact ih hc
  | case3 d rest hd hnext ih => exact (List.mem_cons.mp hc).elim id ih
  | case4 d rest hd ih =>
    rcases List.mem_cons.mp hc with rfl | hrest
    · exact absurd hblank hd
    · exact ih hrest

/-- Trimmed text stays so when its white space is collapsed. -/
theorem Trimmed.collapse {t : Text} (h : Trimmed t) : Trimmed (Text.collapse t) := by
  have hkeep (c d : Char) (hc : isBlank c = false) (hd : collapseChar c = d) :
      isBlank d = false := by
    rw [← hd, collapseChar, hc]
    exact hc
  constructor
  · intro d hd
    rw [head?_collapse, Option.mem_def, Option.map_eq_some_iff] at hd
    obtain ⟨c, hc, hcd⟩ := hd
    exact hkeep c d (h.first c hc) hcd
  · intro d hd
    rw [getLast?_collapse, Option.mem_def, Option.map_eq_some_iff] at hd
    obtain ⟨c, hc, hcd⟩ := hd
    exact hkeep c d (h.last c hc) hcd

end PrototypeGate

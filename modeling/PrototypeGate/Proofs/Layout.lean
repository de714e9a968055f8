import PrototypeGate.Proofs.Segment

/-!
# Laying out the elements of a source

The stripped lines of a source can be had in two stages that share no state. The first
one cuts the source into elements. The second one looks at the elements alone: it keeps
those outside braces, cuts them into lines, and writes each line out. This file defines
the second stage and shows that the scan of a source gives the same lines. The scan holds
the beginning of a line in its buffer, so the statement to be proved by induction puts
that beginning before the first line that is still to come.
-/

namespace PrototypeGate

namespace Element

/-- Number of open braces after an element. -/
def depthAfter (depth : Nat) : Element → Nat
  | openBrace => depth + 1
  | closeBrace => depth - 1
  | _ => depth

/-- Number of open parentheses after an element outside braces. -/
def parensAfter (parens : Nat) : Element → Nat
  | character c => if c = '(' then parens + 1 else if c = ')' then parens - 1 else parens
  | _ => parens

/-- Whether an element outside braces ends its line: an opening brace always does, a line
feed unless a parenthesis is open. -/
def ends (parens : Nat) : Element → Bool
  | openBrace => true
  | newline => parens = 0
  | _ => false

/-- What is left of an element in a stripped line. -/
def shown : Element → Text
  | newline => [' ']
  | splice => [' ']
  | comment _ => [' ']
  | lineComment _ => []
  | literal quote _ => [quote, quote]
  | directive _ => []
  | openBrace => []
  | closeBrace => []
  | character c => [c]

end Element

/-- The elements that stand outside braces, the opening ones of outermost braces
included. -/
def topLevel : Nat → List Element → List Element
  | _, [] => []
  | depth, e :: rest =>
    if depth = 0 then e :: topLevel (e.depthAfter depth) rest
    else topLevel (e.depthAfter depth) rest

/-- Cut elements into lines, given the number of parentheses that are open. The element
that ends a line is part of none. -/
def cutLines : Nat → List Element → List (List Element)
  | _, [] => [[]]
  | parens, e :: rest =>
    if e.ends parens then [] :: cutLines 0 rest
    else (cutLines (e.parensAfter parens) rest).modifyHead (e :: ·)

/-- Trim raw lines and collapse their white space; drop those that are blank. -/
def tidy (lines : List Text) : List Text :=
  (lines.map fun line => Text.collapse (Text.trim line)).filter (· ≠ [])

/-- The raw lines of elements. -/
def rawLines (parens : Nat) (es : List Element) : List Text :=
  (cutLines parens es).map (·.flatMap Element.shown)

/-- The stripped lines of elements. -/
def layOut (es : List Element) : List Text :=
  tidy (rawLines 0 (topLevel 0 es))

/-! ### Raw lines -/

/-- An element that ends a line. -/
theorem rawLines_cons_of_ends {parens : Nat} {e : Element} (he : e.ends parens = true)
    (es : List Element) : rawLines parens (e :: es) = [] :: rawLines 0 es := by
  simp [rawLines, cutLines, he]

/-- An element that stands inside a line. -/
theorem rawLines_cons_of_not_ends {parens : Nat} {e : Element} (he : e.ends parens = false)
    (es : List Element) :
    rawLines parens (e :: es) =
      (rawLines (e.parensAfter parens) es).modifyHead (e.shown ++ ·) := by
  simp only [rawLines, cutLines, he]
  cases cutLines (e.parensAfter parens) es <;> simp

/-- Tidying a list of raw lines tidies its first line and the others. -/
theorem tidy_cons (line : Text) (lines : List Text) :
    tidy (line :: lines) = tidy [line] ++ tidy lines := by
  simp only [tidy, List.map_cons, List.filter_cons, List.map_nil, List.filter_nil]
  split <;> rfl

namespace Scan

/-- The texts of the finished lines, first one first. -/
def texts (s : Scan) : List Text :=
  (s.emitted.map Line.text).reverse

/-- Nothing is pending inside braces. -/
def ClearInside (s : Scan) : Prop :=
  0 < s.depth → s.pending = [] ∧ s.parens = 0

/-- Finishing a line adds it, tidied, to the finished ones. -/
theorem texts_flush (s : Scan) : s.flush.texts = s.texts ++ tidy [s.pending.reverse] := by
  simp only [flush, texts, tidy, List.map_cons, List.map_nil, List.filter_cons, List.filter_nil]
  split <;> simp_all

/-- Inside braces an element changes nothing but the depth. -/
theorem absorb_inside {s : Scan} (hdepth : 0 < s.depth) (e : Element) :
    (s.absorb e).depth = e.depthAfter s.depth ∧ (s.absorb e).pending = s.pending ∧
      (s.absorb e).parens = s.parens ∧ (s.absorb e).texts = s.texts := by
  have hne : s.depth ≠ 0 := by omega
  cases e <;>
    simp [absorb, newline, put, advance, openBrace, closeBrace, character, texts,
      Element.depthAfter, hne]

/-- Outside braces an element that ends the line finishes it. -/
theorem absorb_end {s : Scan} {e : Element} (hdepth : s.depth = 0)
    (he : e.ends s.parens = true) :
    (s.absorb e).depth = e.depthAfter 0 ∧ (s.absorb e).pending = [] ∧
      (s.absorb e).parens = 0 ∧ (s.absorb e).texts = s.texts ++ tidy [s.pending.reverse] := by
  cases e with
  | newline =>
    have hparens : s.parens = 0 := by simpa [Element.ends] using he
    have hflush := texts_flush { s with line := s.line + 1, lineBlank := true }
    simpa [absorb, newline, hdepth, hparens, Element.depthAfter, flush, texts] using hflush
  | openBrace =>
    have hflush := texts_flush { s with lineBlank := false }
    simpa [absorb, openBrace, hdepth, Element.isBlank, Element.depthAfter, flush, texts]
      using hflush
  | splice | comment | lineComment | literal | directive | closeBrace | character =>
    simp [Element.ends] at he

/-- Outside braces any other element adds to the line what is left of it. -/
theorem absorb_within {s : Scan} {e : Element} (hdepth : s.depth = 0)
    (he : e.ends s.parens = false) :
    (s.absorb e).depth = e.depthAfter 0 ∧
      (s.absorb e).pending = e.shown.reverse ++ s.pending ∧
      (s.absorb e).parens = e.parensAfter s.parens ∧ (s.absorb e).texts = s.texts := by
  cases e with
  | newline =>
    have hparens : 0 < s.parens := by simpa [Element.ends, Nat.pos_iff_ne_zero] using he
    simp [absorb, newline, put, hdepth, hparens, texts, Element.depthAfter, Element.shown,
      Element.parensAfter]
  | character c =>
    by_cases hopen : c = '('
    · simp [absorb, character, put, hdepth, hopen, texts, Element.depthAfter, Element.shown,
        Element.parensAfter]
    · by_cases hclose : c = ')' <;>
        simp [absorb, character, put, hdepth, hopen, hclose, texts, Element.depthAfter,
          Element.shown, Element.parensAfter]
  | openBrace => simp [Element.ends] at he
  | splice | comment | lineComment | literal | directive | closeBrace =>
    simp [absorb, put, advance, closeBrace, hdepth, texts, Element.depthAfter, Element.shown,
      Element.parensAfter]

/-- An element that does not end the line opens no brace. -/
theorem depthAfter_zero_of_not_ends {e : Element} {parens : Nat} (he : e.ends parens = false) :
    e.depthAfter 0 = 0 := by
  cases e <;> simp_all [Element.ends, Element.depthAfter]

/-- Nothing is pending behind an element either if braces are open there. -/
theorem ClearInside.absorb {s : Scan} (h : s.ClearInside) (e : Element) :
    (s.absorb e).ClearInside := by
  intro hinside
  by_cases hdepth : s.depth = 0
  · cases he : e.ends s.parens with
    | true =>
      obtain ⟨-, hpending, hparens, -⟩ := absorb_end hdepth he
      exact ⟨hpending, hparens⟩
    | false =>
      obtain ⟨hdepth', -⟩ := absorb_within hdepth he
      rw [hdepth', depthAfter_zero_of_not_ends he] at hinside
      exact absurd hinside (Nat.lt_irrefl 0)
  · obtain ⟨-, hpending, hparens, -⟩ := absorb_inside (Nat.pos_of_ne_zero hdepth) e
    rw [hpending, hparens]
    exact h (Nat.pos_of_ne_zero hdepth)

/-- Absorbing elements and finishing the last line gives the lines already finished and
those of the elements, the first of which continues the pending one. -/
theorem texts_foldl_absorb (es : List Element) {s : Scan} (hclear : s.ClearInside) :
    (es.foldl absorb s).flush.texts =
      s.texts ++ tidy ((rawLines s.parens (topLevel s.depth es)).modifyHead
        (s.pending.reverse ++ ·)) := by
  induction es generalizing s with
  | nil => simp [texts_flush, topLevel, rawLines, cutLines]
  | cons e es ih =>
    rw [List.foldl_cons]
    by_cases hdepth : s.depth = 0
    · cases he : e.ends s.parens with
      | true =>
        obtain ⟨hdepth', hpending, hparens, htexts⟩ := absorb_end hdepth he
        rw [ih (hclear.absorb e), hdepth', hpending, hparens, htexts]
        have hraw : (rawLines 0 (topLevel (e.depthAfter 0) es)).modifyHead
            (([] : Text).reverse ++ ·) = rawLines 0 (topLevel (e.depthAfter 0) es) := by
          cases rawLines 0 (topLevel (e.depthAfter 0) es) <;> rfl
        simp only [topLevel, hdepth, if_true, rawLines_cons_of_ends he, List.modifyHead_cons,
          hraw, List.append_nil]
        rw [tidy_cons s.pending.reverse (rawLines _ _), List.append_assoc]
      | false =>
        obtain ⟨hdepth', hpending, hparens, htexts⟩ := absorb_within hdepth he
        have hinside : e.depthAfter 0 = 0 := depthAfter_zero_of_not_ends he
        rw [ih (hclear.absorb e), hdepth', hpending, hparens, htexts]
        simp only [topLevel, hdepth, if_true, rawLines_cons_of_not_ends he,
          List.modifyHead_modifyHead, List.reverse_append, List.reverse_reverse,
          Function.comp_def, List.append_assoc]
    · have hinside : 0 < s.depth := Nat.pos_of_ne_zero hdepth
      obtain ⟨hdepth', hpending, hparens, htexts⟩ := absorb_inside hinside e
      rw [ih (hclear.absorb e), hdepth', hpending, hparens, htexts]
      simp only [topLevel, if_neg hdepth]

end Scan

/-! ### Stripped lines -/

/-- The texts of the stripped lines of a source are those that its elements, laid out,
give. -/
theorem map_text_strip (t : Text) : (strip t).map Line.text = layOut (segment t) := by
  have hclear : Scan.initial.ClearInside := fun _ => ⟨rfl, rfl⟩
  have hfirst (lines : List Text) : lines.modifyHead (([] : Text) ++ ·) = lines := by
    cases lines <;> rfl
  calc (strip t).map Line.text
      = ((segment t).foldl Scan.absorb .initial).flush.texts := by
        rw [strip, segment, ← Scan.run_eq_foldl rfl t, List.map_reverse, Scan.texts]
    _ = layOut (segment t) := by
        rw [Scan.texts_foldl_absorb (segment t) hclear]
        exact congrArg tidy (hfirst _)

/-- A stripped line is a raw line, trimmed and with its white space collapsed. -/
theorem exists_raw_of_mem_strip {t : Text} {line : Line} (hline : line ∈ strip t) :
    ∃ raw, Text.collapse (Text.trim raw) = line.text := by
  have hmem : line.text ∈ layOut (segment t) := by
    rw [← map_text_strip]
    exact List.mem_map_of_mem hline
  obtain ⟨raw, -, hraw⟩ := List.mem_map.mp (List.mem_filter.mp hmem).1
  exact ⟨raw, hraw⟩

/-- The one pass over a source does what the two stages do: the elements make up the
source, and laying them out gives the texts of the stripped lines. -/
theorem strip_in_two_stages (t : Text) :
    (segment t).flatMap Element.source = t ∧ (strip t).map Line.text = layOut (segment t) :=
  ⟨flatMap_source_segmentFrom [] t, map_text_strip t⟩

end PrototypeGate

import Mathlib.Algebra.GroupWithZero.Nat
import PrototypeGate.Proofs.Course

/-!
# Where lines begin

A stripped line gets the number of the source line on which it begins, that is, on which the
scan first adds a character to it that shows. This file keeps the numbers of the lines that
have begun apart from their texts. The numbers are only ever added to, and what is added
depends on the texts and on the source line. Two scans that build the same line at different
places of a source therefore go on to the same texts, and the lines that begin from there on
are as far apart as the places are.
-/

namespace PrototypeGate

/-- Number of source lines that an element goes over. -/
def Element.lineFeeds : Element → Nat
  | newline => 1
  | splice => 1
  | comment body => body.newlines
  | literal _ body => body.newlines
  | directive body => body.newlines
  | lineComment _ | openBrace | closeBrace | character _ => 0

/-- An element goes over as many source lines as its text holds line feeds. -/
theorem lineFeeds_nextElement (line : List Element) (c : Char) (rest : Text) :
    (nextElement line c rest).1.lineFeeds = (nextElement line c rest).1.source.newlines := by
  fun_cases nextElement line c rest with
  | case4 =>
    have hnone : '\n' ∉ rest.tail.takeWhile (· ≠ '\n') := fun h => by
      simpa using List.mem_takeWhile_imp h
    simpa [Element.lineFeeds, Element.source, Text.newlines] using
      (List.count_eq_zero.mpr hnone).symm
  | case5 _ _ _ _ hliteral =>
    have hc : c ≠ '\n' := by rcases hliteral with rfl | rfl <;> decide
    simp [Element.lineFeeds, Element.source, Text.newlines, hc]
  | case9 hnewline =>
    simp [Element.lineFeeds, Element.source, Text.newlines, hnewline]
  | case1 | case2 | case3 | case6 | case7 | case8 =>
    simp [Element.lineFeeds, Element.source, Text.newlines]

/-- An element of a text goes over as many source lines as it holds line feeds. -/
theorem lineFeeds_of_mem_segmentFrom {line : List Element} {t : Text} {e : Element}
    (h : e ∈ segmentFrom line t) : e.lineFeeds = e.source.newlines := by
  obtain ⟨above, below, hcut⟩ := List.append_of_mem h
  obtain ⟨c, rest, rfl⟩ := segmentFrom_eq_append_cons hcut
  exact lineFeeds_nextElement _ c rest

/-- Elements go over as many source lines as their text holds line feeds if each of them does. -/
theorem sum_lineFeeds_of_forall {es : List Element}
    (h : ∀ e ∈ es, e.lineFeeds = e.source.newlines) :
    (es.map Element.lineFeeds).sum = Text.newlines (es.flatMap Element.source) := by
  rw [List.map_congr_left h, Text.newlines, List.count_flatMap]
  rfl

/-- The first elements of a text go over as many source lines as their text holds line
feeds. -/
theorem sum_lineFeeds {line es below : List Element} {t : Text}
    (h : segmentFrom line t = es ++ below) :
    (es.map Element.lineFeeds).sum = Text.newlines (es.flatMap Element.source) :=
  sum_lineFeeds_of_forall fun _ he =>
    lineFeeds_of_mem_segmentFrom (h ▸ List.mem_append_left below he)

/-- The lines, from the `m`-th on a number of source lines further down. -/
def lowerFrom (m k : Nat) (lines : List Line) : List Line :=
  lines.take m ++ (lines.drop m).map (Line.lower k)

namespace Scan

/-- Numbers of the lines that have begun: of the finished ones, and of the one being built if
it shows a character. -/
def begun (s : Scan) : List Nat :=
  s.emitted.reverse.map Line.number ++ s.start.toList

/-- The line being built has a number exactly if it shows a character. -/
def Numbered (s : Scan) : Prop :=
  s.start.isNone = s.pending.all isBlank

/-- The chunk begins a line: outside braces, it is the first to show a character. -/
def Begins (s : Scan) (chunk : Text) : Prop :=
  s.depth = 0 ∧ s.pending.all isBlank = true ∧ chunk.all isBlank = false

instance (s : Scan) (chunk : Text) : Decidable (s.Begins chunk) :=
  inferInstanceAs (Decidable (_ ∧ _))

variable {s : Scan}

/-! ### The numbers of the lines that have begun -/

/-- White space begins no line. -/
theorem not_begins {chunk : Text} (hblank : chunk.all isBlank = true) : ¬s.Begins chunk := by
  rintro ⟨-, -, hshown⟩
  rw [hblank] at hshown
  cases hshown

/-- A chunk that shows a character gives the line its number, if it has none. -/
theorem numbered_put (hs : s.Numbered) (chunk : Text) : (s.put chunk).Numbered := by
  have hs : s.start.isNone = s.pending.all isBlank := hs
  by_cases hdepth : s.depth = 0
  · simp only [Numbered, put, hdepth, if_true, List.all_append, List.all_reverse, ← hs]
    cases s.start <;> cases chunk.all isBlank <;> rfl
  · simpa only [Numbered, put, hdepth, if_false] using hs

/-- A chunk is put on a line that has begun, or begins one. -/
theorem begun_put (hs : s.Numbered) (chunk : Text) :
    (s.put chunk).begun = s.begun ++ if s.Begins chunk then [s.line] else [] := by
  have hs : s.start.isNone = s.pending.all isBlank := hs
  simp only [Begins, ← hs]
  by_cases hdepth : s.depth = 0
  · simp only [begun, put, hdepth, if_true, true_and, List.append_assoc]
    cases s.start <;> cases chunk.all isBlank <;> rfl
  · simp [begun, put, hdepth]

/-- A text is dropped by tidying exactly if it is blank. -/
theorem collapse_trim_eq_nil_iff (t : Text) :
    Text.collapse (Text.trim t) = [] ↔ t.all isBlank = true := by
  rw [← List.head?_eq_none_iff, head?_collapse_trim, Text.lead]
  simp

/-- Finishing a line begins none. -/
theorem begun_flush (hs : s.Numbered) : s.flush.begun = s.begun := by
  have hs : s.start.isNone = s.pending.all isBlank := hs
  have hblank := collapse_trim_eq_nil_iff s.pending.reverse
  rw [List.all_reverse, ← hs] at hblank
  simp only [begun, flush, hblank]
  cases s.start <;> simp

/-- A line feed begins no line. -/
theorem begun_newline (hs : s.Numbered) : s.newline.begun = s.begun := by
  let next : Scan := { s with line := s.line + 1, lineBlank := true }
  have hjoin : (next.put [' ']).begun = s.begun := by
    rw [begun_put (s := next) hs, if_neg (not_begins rfl), List.append_nil]
    rfl
  have hend : next.flush.begun = s.begun := begun_flush (s := next) hs
  simp only [newline]
  split_ifs
  · exact hjoin
  · exact hend
  · rfl

/-- An opening brace begins no line. -/
theorem begun_openBrace (hs : s.Numbered) : s.openBrace.begun = s.begun := by
  have hend : s.flush.begun = s.begun := begun_flush hs
  simp only [openBrace]
  split_ifs
  · exact hend
  · rfl

/-- A character is put on a line that has begun, or begins one. -/
theorem begun_character (hs : s.Numbered) (c : Char) :
    (s.character c).begun = s.begun ++ if s.Begins [c] then [s.line] else [] := by
  obtain ⟨parens, hput⟩ : ∃ parens, s.character c = put { s with parens := parens } [c] := by
    simp only [character]
    split_ifs <;> exact ⟨_, rfl⟩
  rw [hput]
  apply begun_put
  exact hs

/-- A line is numbered when it shows a character, and a finished line leaves one without
either. -/
theorem numbered_absorb (hs : s.Numbered) (e : Element) : (s.absorb e).Numbered := by
  cases e with
  | newline =>
    simp only [absorb, newline]
    split_ifs
    · apply numbered_put
      exact hs
    · rfl
    · exact hs
  | openBrace =>
    simp only [absorb, openBrace]
    split_ifs
    · rfl
    · exact hs
  | splice | comment | literal =>
    apply numbered_put
    exact hs
  | character c =>
    apply numbered_put
    split_ifs <;> exact hs
  | lineComment | directive | closeBrace => exact hs

/-- An element goes over its source lines. -/
theorem line_absorb (s : Scan) (e : Element) : (s.absorb e).line = s.line + e.lineFeeds := by
  have hput (s : Scan) (chunk : Text) : (s.put chunk).line = s.line := by
    simp only [put, apply_ite Scan.line, ite_self]
  cases e <;>
    simp only [absorb, newline, openBrace, closeBrace, character, hput, flush, advance,
      apply_ite Scan.line, ite_self, Element.lineFeeds, Nat.add_zero]

/-- Elements go over their source lines one after the other. -/
theorem line_foldl (s : Scan) (es : List Element) :
    (es.foldl absorb s).line = s.line + (es.map Element.lineFeeds).sum := by
  induction es generalizing s with
  | nil => rfl
  | cons e es ih =>
    rw [List.foldl_cons, ih, line_absorb, List.map_cons, List.sum_cons, Nat.add_assoc]

/-- What an element shows is put on a line that has begun, or begins one. -/
theorem begun_absorb (hs : s.Numbered) (e : Element) :
    (s.absorb e).begun = s.begun ++ if s.Begins e.shown then [s.line + e.lineFeeds] else [] := by
  let seen : Scan := { s with lineBlank := s.lineBlank && e.isBlank }
  have hseen : seen.Numbered := hs
  have hput (lines : Nat) (chunk : Text) : ((seen.advance lines).put chunk).begun =
      s.begun ++ if s.Begins chunk then [s.line + lines] else [] := by
    apply begun_put
    exact hs
  cases e with
  | newline =>
    rw [if_neg (not_begins rfl), List.append_nil]
    exact begun_newline hs
  | splice => exact hput 1 [' ']
  | comment body => exact hput body.newlines [' ']
  | literal quote body => exact hput body.newlines [quote, quote]
  | openBrace =>
    rw [if_neg (not_begins rfl), List.append_nil]
    exact begun_openBrace hseen
  | character c => exact begun_character hseen c
  | lineComment | directive | closeBrace =>
    rw [if_neg (not_begins rfl), List.append_nil]
    rfl

/-- Scanning keeps the number of the line being built. -/
theorem numbered_foldl (hs : s.Numbered) (es : List Element) : (es.foldl absorb s).Numbered := by
  induction es generalizing s with
  | nil => exact hs
  | cons e es ih => exact ih (numbered_absorb hs e)

/-- The lines of a scan have the numbers of those that have begun. -/
theorem map_number_lines (hs : s.Numbered) : s.lines.map Line.number = s.begun := by
  have hflush := begun_flush hs
  rwa [begun, show s.flush.start = none from rfl, Option.toList_none, List.append_nil] at hflush

/-- At every place of a source the scan numbers the line being built. -/
theorem numbered_of_mem_course {t rest : Text} (h : (s, rest) ∈ initial.course t) :
    s.Numbered := by
  obtain ⟨above, rfl⟩ := exists_foldl_of_mem_course h
  have hinitial : initial.Numbered := rfl
  exact numbered_foldl hinitial above

/-- The lines that have begun in front of a place are the lines of the text in front of it. -/
theorem length_begun {a x : Text} {d : Char} (h : (s, d :: x) ∈ initial.course (a ++ d :: x))
    (hd : d ≠ '\n') : s.begun.length = (strip a).length := by
  have hend : (s, []) ∈ initial.course (a ++ []) := by
    apply mem_course_append_congr h
    exact Or.inr ⟨hd, by simp, by simp⟩
  rw [List.append_nil] at hend
  have hlines : strip a = s.lines := by
    rw [strip_of_mem_course hend, run]
  rw [hlines, ← map_number_lines (numbered_of_mem_course h), List.length_map]

/-- The lines of a scan have the texts that are finished when the last line is. -/
theorem map_text_lines (s : Scan) : s.lines.map Line.text = s.flush.texts := by
  rw [lines, texts, List.map_reverse]

/-! ### Two scans at different places -/

/-- An element does the same to two scans that build the same line, source lines apart. -/
theorem absorb_congr {s' : Scan} (hdepth : s'.depth = s.depth) (hparens : s'.parens = s.parens)
    (hpending : s'.pending = s.pending) (htexts : s'.texts = s.texts) (e : Element) :
    (s'.absorb e).depth = (s.absorb e).depth ∧ (s'.absorb e).parens = (s.absorb e).parens ∧
      (s'.absorb e).pending = (s.absorb e).pending ∧
      (s'.absorb e).texts = (s.absorb e).texts := by
  by_cases houtside : s.depth = 0
  · have houtside' : s'.depth = 0 := hdepth.trans houtside
    cases he : e.ends s.parens with
    | true =>
      obtain ⟨hd, hp, hn, ht⟩ := absorb_end houtside he
      obtain ⟨hd', hp', hn', ht'⟩ := absorb_end houtside' (hparens ▸ he)
      exact ⟨by rw [hd, hd'], by rw [hn, hn'], by rw [hp, hp'],
        by rw [ht, ht', htexts, hpending]⟩
    | false =>
      obtain ⟨hd, hp, hn, ht⟩ := absorb_within houtside he
      obtain ⟨hd', hp', hn', ht'⟩ := absorb_within houtside' (hparens ▸ he)
      exact ⟨by rw [hd, hd'], by rw [hn, hn', hparens], by rw [hp, hp', hpending],
        by rw [ht, ht', htexts]⟩
  · have hinside : 0 < s.depth := Nat.pos_of_ne_zero houtside
    obtain ⟨hd, hp, hn, ht⟩ := absorb_inside hinside e
    obtain ⟨hd', hp', hn', ht'⟩ := absorb_inside (hdepth ▸ hinside) e
    exact ⟨by rw [hd, hd', hdepth], by rw [hn, hn', hparens], by rw [hp, hp', hpending],
      by rw [ht, ht', htexts]⟩

/-- Two scans that build the same line, the second one `k` source lines further down. They have
finished the same texts. Of the lines that have begun, the first ones have the same numbers,
and all others have begun in the second scan `k` lines further down. -/
structure Below (first : List Nat) (k : Nat) (s s' : Scan) : Prop where
  /-- The first scan numbers the line being built. -/
  numbered : s.Numbered
  /-- The second scan numbers the line being built. -/
  numbered' : s'.Numbered
  /-- The second scan stands `k` source lines further down. -/
  line : s'.line = s.line + k
  /-- The same number of braces is open. -/
  depth : s'.depth = s.depth
  /-- The same number of parentheses is open. -/
  parens : s'.parens = s.parens
  /-- The same line is being built. -/
  pending : s'.pending = s.pending
  /-- The same lines are finished, numbers apart. -/
  texts : s'.texts = s.texts
  /-- All lines but the first ones have begun `k` lines further down. -/
  begun : ∃ later, s.begun = first ++ later ∧ s'.begun = first ++ later.map (· + k)

variable {s' : Scan} {first : List Nat} {k : Nat}

/-- An element does the same to both scans. -/
theorem Below.absorb (h : Below first k s s') (e : Element) :
    Below first k (s.absorb e) (s'.absorb e) := by
  have hline : (s'.absorb e).line = (s.absorb e).line + k := by
    rw [line_absorb, line_absorb, h.line]
    omega
  have hbegun : ∃ later, (s.absorb e).begun = first ++ later ∧
      (s'.absorb e).begun = first ++ later.map (· + k) := by
    obtain ⟨later, hlater, hlater'⟩ := h.begun
    have hsame : s'.Begins e.shown ↔ s.Begins e.shown := by
      rw [Begins, Begins, h.depth, h.pending]
    rw [begun_absorb h.numbered, begun_absorb h.numbered', hlater, hlater']
    by_cases hbegins : s.Begins e.shown
    · refine ⟨later ++ [s.line + e.lineFeeds], ?_, ?_⟩
      · rw [if_pos hbegins, List.append_assoc]
      · rw [if_pos (hsame.mpr hbegins), h.line, List.map_append, List.append_assoc]
        simp only [List.map_cons, List.map_nil]
        rw [Nat.add_right_comm]
    · refine ⟨later, ?_, ?_⟩
      · rw [if_neg hbegins, List.append_nil]
      · rw [if_neg (mt hsame.mp hbegins), List.append_nil]
  obtain ⟨hdepth, hparens, hpending, htexts⟩ :=
    absorb_congr h.depth h.parens h.pending h.texts e
  exact ⟨numbered_absorb h.numbered e, numbered_absorb h.numbered' e, hline, hdepth, hparens,
    hpending, htexts, hbegun⟩

/-- Elements do the same to both scans. -/
theorem Below.foldl (h : Below first k s s') (es : List Element) :
    Below first k (es.foldl Scan.absorb s) (es.foldl Scan.absorb s') := by
  induction es generalizing s s' with
  | nil => exact h
  | cons e es ih => exact ih (h.absorb e)

end Scan

/-! ### The lines of two scans -/

/-- Lines are known by their numbers and their texts. -/
theorem lines_ext {lines lines' : List Line}
    (hnumbers : lines.map Line.number = lines'.map Line.number)
    (htexts : lines.map Line.text = lines'.map Line.text) : lines = lines' := by
  have hzip (ls : List Line) :
      (List.zip (ls.map Line.number) (ls.map Line.text)).map (fun p => Line.mk p.1 p.2) = ls := by
    rw [List.zip_map', List.map_map]
    exact List.map_id ls
  rw [← hzip lines, ← hzip lines', hnumbers, htexts]

/-- Further down the texts are the same. -/
theorem map_text_lowerFrom (m k : Nat) (lines : List Line) :
    (lowerFrom m k lines).map Line.text = lines.map Line.text := by
  have htext : Line.text ∘ Line.lower k = Line.text := rfl
  rw [lowerFrom, List.map_append, List.map_map, htext, ← List.map_append, List.take_append_drop]

/-- Further down the first numbers are the same. -/
theorem map_number_lowerFrom (m k : Nat) (lines : List Line) :
    (lowerFrom m k lines).map Line.number =
      (lines.map Line.number).take m ++ ((lines.map Line.number).drop m).map (· + k) := by
  have hnumber : Line.number ∘ Line.lower k = (· + k) ∘ Line.number := rfl
  rw [lowerFrom, List.map_append, List.map_map, hnumber, ← List.map_map, List.map_take,
    List.map_drop]

/-- Lines are put further down from the `m`-th on only. -/
theorem take_lowerFrom (m k : Nat) (lines : List Line) :
    (lowerFrom m k lines).take m = lines.take m := by
  rw [lowerFrom, List.take_append, List.length_take]
  rcases Nat.le_total m lines.length with hlong | hshort
  · simp [hlong]
  · simp [List.drop_eq_nil_of_le hshort]

/-- From the `m`-th on, all lines are put further down. -/
theorem drop_lowerFrom (m k : Nat) (lines : List Line) :
    (lowerFrom m k lines).drop m = (lines.drop m).map (Line.lower k) := by
  rw [lowerFrom, List.drop_append, List.length_take]
  rcases Nat.le_total m lines.length with hlong | hshort
  · simp [hlong]
  · simp [List.drop_eq_nil_of_le hshort]

/-- The second of two scans has the lines of the first one, and all but the first lines are
further down. -/
theorem Scan.Below.lines_eq {first : List Nat} {k : Nat} {s s' : Scan} (h : Below first k s s') :
    s'.lines = lowerFrom first.length k s.lines := by
  apply lines_ext
  · obtain ⟨later, hlater, hlater'⟩ := h.begun
    rw [map_number_lowerFrom, map_number_lines h.numbered', map_number_lines h.numbered, hlater,
      hlater', List.take_left, List.drop_left]
  · rw [map_text_lowerFrom, map_text_lines, map_text_lines, texts_flush, texts_flush, h.texts,
      h.pending]

/-- Two scans that go on with the same text have the same lines at its end, and all but the
first lines are further down in the second one. A hash sign in front of the text could begin a
directive in one of them only. -/
theorem Scan.Below.lines_run {first : List Nat} {k : Nat} {s s' : Scan} (h : Below first k s s')
    {t : Text} (ht : s'.lineBlank = s.lineBlank ∨ t.lead ≠ some '#') :
    (s'.run t).lines = lowerFrom first.length k (s.run t).lines := by
  obtain ⟨es, hrun, hrun'⟩ := exists_common_elements ht
  rw [hrun, hrun']
  exact (h.foldl es).lines_eq

end PrototypeGate

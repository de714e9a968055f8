import PrototypeGate.Proofs.Beginnings

/-!
# Sources one behind the other

A line feed outside braces and with no parenthesis open leaves the scan as it was before the
first character, only further down and with some lines finished. Finished lines have no say in
what the scan does next. The lines of a source that goes on behind such a line feed are
therefore those of its two parts, each taken as a source of its own.
-/

namespace PrototypeGate

/-- The text ends with a line feed that is read as one, outside braces and with no parenthesis
open. -/
def EndsLine (a : Text) : Prop :=
  ∃ place ∈ Scan.initial.course a,
    place.2 = ['\n'] ∧ place.1.depth = 0 ∧ place.1.parens = 0

instance (a : Text) : Decidable (EndsLine a) :=
  inferInstanceAs (Decidable (∃ place ∈ Scan.initial.course a,
    place.2 = ['\n'] ∧ place.1.depth = 0 ∧ place.1.parens = 0))

namespace Scan

/-! ### Finished lines -/

/-- The same scan, with some lines finished before its own. The last of them comes first. -/
def behind (lines : List Line) (s : Scan) : Scan :=
  { s with emitted := s.emitted ++ lines }

variable (lines : List Line) (s : Scan)

/-- Behind finished lines, a chunk is added to the line being built all the same. -/
theorem put_behind (chunk : Text) : (s.behind lines).put chunk = (s.put chunk).behind lines := by
  by_cases hdepth : s.depth = 0 <;> simp only [put, behind, hdepth, if_true, if_false]

/-- Behind finished lines, the next one is finished all the same. -/
theorem flush_behind : (s.behind lines).flush = s.flush.behind lines := by
  simp only [flush, behind, apply_ite (· ++ lines), List.cons_append]
  rfl

/-- Behind finished lines, a line feed does the same. -/
theorem newline_behind : (s.behind lines).newline = s.newline.behind lines := by
  let next : Scan := { s with line := s.line + 1, lineBlank := true }
  calc (s.behind lines).newline
      = if s.depth = 0 then
          if 0 < s.parens then (next.behind lines).put [' '] else (next.behind lines).flush
        else next.behind lines := rfl
    _ = s.newline.behind lines := by
        rw [put_behind, flush_behind]
        simp only [newline, apply_ite (behind lines), next]

/-- Behind finished lines, an opening brace does the same. -/
theorem openBrace_behind : (s.behind lines).openBrace = s.openBrace.behind lines := by
  by_cases hdepth : s.depth = 0
  · have hdepth' : (s.behind lines).depth = 0 := hdepth
    simp only [openBrace, hdepth, hdepth', if_true, flush_behind]
    rfl
  · have hdepth' : (s.behind lines).depth ≠ 0 := hdepth
    simp only [openBrace, hdepth, hdepth', if_false]
    rfl

/-- Behind finished lines, an ordinary character does the same. -/
theorem character_behind (c : Char) :
    (s.behind lines).character c = (s.character c).behind lines := by
  let counted (t : Scan) : Scan :=
    if t.depth = 0 then
      if c = '(' then { t with parens := t.parens + 1 }
      else if c = ')' then { t with parens := t.parens - 1 }
      else t
    else t
  have hcounted : counted (s.behind lines) = (counted s).behind lines := by
    simp only [counted, apply_ite (behind lines)]
    rfl
  calc (s.behind lines).character c
      = (counted (s.behind lines)).put [c] := rfl
    _ = (s.character c).behind lines := by rw [hcounted, put_behind]; rfl

/-- Behind finished lines, an element does the same. -/
theorem absorb_behind (e : Element) : (s.behind lines).absorb e = (s.absorb e).behind lines := by
  let seen : Scan := { s with lineBlank := s.lineBlank && e.isBlank }
  cases e with
  | newline => exact newline_behind lines s
  | splice => exact put_behind lines (seen.advance 1) [' ']
  | comment body => exact put_behind lines (seen.advance body.newlines) [' ']
  | literal quote body => exact put_behind lines (seen.advance body.newlines) [quote, quote]
  | openBrace => exact openBrace_behind lines seen
  | character c => exact character_behind lines seen c
  | lineComment | directive | closeBrace => rfl

/-- Behind finished lines, elements do the same. -/
theorem foldl_absorb_behind (es : List Element) :
    es.foldl absorb (s.behind lines) = (es.foldl absorb s).behind lines := by
  induction es generalizing s with
  | nil => rfl
  | cons e es ih => rw [List.foldl_cons, List.foldl_cons, absorb_behind, ih]

/-- The lines that were finished before come first. -/
theorem lines_behind : (s.behind lines).lines = lines.reverse ++ s.lines := by
  rw [Scan.lines, flush_behind, behind, List.reverse_append, Scan.lines]

/-- The lines of a scan further down are further down. -/
theorem lines_lower (k : Nat) : (s.lower k).lines = s.lines.map (Line.lower k) := by
  rw [Scan.lines, flush_lower, lower, ← List.map_reverse, Scan.lines]

variable {lines s}

/-! ### Places where a source can be cut -/

/-- At every place of a source the scan has counted the line feeds in front of it. -/
theorem line_of_mem_course {a rest : Text} (h : (s, rest) ∈ initial.course (a ++ rest)) :
    s.line = 1 + a.newlines := by
  have hblank : initial.lineBlank = ([] : List Element).all Element.isBlank := rfl
  obtain ⟨es, below, hcut, hsource, -, rfl⟩ := exists_cut_of_mem_course hblank h
  rw [line_foldl, sum_lineFeeds hcut, hsource]
  rfl

/-- What is left at a place of a source is the end of the source. -/
theorem exists_append_of_mem_course {t rest : Text} (h : (s, rest) ∈ initial.course t) :
    ∃ a, a ++ rest = t := by
  have hblank : initial.lineBlank = ([] : List Element).all Element.isBlank := rfl
  obtain ⟨above, below, hcut, -, rfl⟩ := (mem_course_iff hblank t).mp h
  refine ⟨above.flatMap Element.source, ?_⟩
  rw [← List.flatMap_append, ← hcut, flatMap_source_segmentFrom]

/-- A line feed outside braces and with no parenthesis open leaves the scan as it was before the
first character, behind the lines that are finished now. -/
theorem absorb_newline_eq (hs : s.Numbered) (hdepth : s.depth = 0) (hparens : s.parens = 0) :
    s.absorb .newline = (initial.lower s.line).behind s.flush.emitted := by
  have hblank := collapse_trim_eq_nil_iff s.pending.reverse
  have hs : s.start.isNone = s.pending.all isBlank := hs
  rw [List.all_reverse, ← hs] at hblank
  -- A line without a number shows nothing, so that the number it would get does not matter.
  have hemitted : s.newline.emitted = s.flush.emitted := by
    simp only [newline, flush, hdepth, hparens, if_true, Nat.lt_irrefl, if_false, hblank]
    cases s.start <;> simp
  have hrest : s.absorb .newline =
      ⟨s.line + 1, 0, 0, true, [], none, s.newline.emitted⟩ := by
    simp only [absorb, newline, flush, hdepth, hparens, if_true, Nat.lt_irrefl, if_false]
  rw [hrest, hemitted, lower, behind, Nat.add_comm]
  rfl

/-- The lines of a source that goes on behind a line feed outside braces and with no parenthesis
open: those in front of the line feed, and those of the rest, further down. -/
theorem strip_of_place {a b : Text} (hplace : (s, '\n' :: b) ∈ initial.course (a ++ '\n' :: b))
    (hdepth : s.depth = 0) (hparens : s.parens = 0) :
    strip (a ++ '\n' :: b) = s.lines ++ (strip b).map (Line.lower (a.newlines + 1)) := by
  let fresh := (initial.lower s.line).behind s.flush.emitted
  have hnewline : s.run ('\n' :: b) = fresh.run b := by
    rw [s.run_cons (fun _ => rfl : ∀ line, nextElement line '\n' b = (.newline, b)),
      absorb_newline_eq (numbered_of_mem_course hplace) hdepth hparens]
  have hfresh : fresh.lineBlank = ([] : List Element).all Element.isBlank := rfl
  have hline : s.line = a.newlines + 1 := by
    rw [line_of_mem_course hplace, Nat.add_comm]
  calc strip (a ++ '\n' :: b)
      = (fresh.run b).lines := by rw [strip_of_mem_course hplace, hnewline]
    _ = (((segment b).foldl absorb initial).lower s.line |>.behind s.flush.emitted).lines := by
        rw [run_eq_foldl hfresh, foldl_absorb_behind, foldl_absorb_lower, segment]
    _ = s.lines ++ (strip b).map (Line.lower (a.newlines + 1)) := by
        rw [lines_behind, lines_lower, hline, strip_eq_foldl]
        rfl

end Scan

/-- An empty source has no lines. -/
theorem strip_nil : strip [] = [] := by
  rw [strip, Scan.run]
  rfl

/-- If a text ends with a line feed outside braces and with no parenthesis open, the lines of a
source that goes on behind it are those of the text, and those of what stands behind, further
down by the line feeds of the text. -/
theorem strip_append {a : Text} (h : EndsLine a) (b : Text) :
    strip (a ++ b) = strip a ++ (strip b).map (Line.lower a.newlines) := by
  obtain ⟨⟨s, _⟩, hplace, rfl, hdepth, hparens⟩ := h
  obtain ⟨front, rfl⟩ := Scan.exists_append_of_mem_course hplace
  have hplace' : (s, '\n' :: b) ∈ Scan.initial.course (front ++ '\n' :: b) :=
    Scan.mem_course_append_congr hplace (Or.inl rfl)
  have hfront : strip (front ++ ['\n']) = s.lines := by
    rw [Scan.strip_of_place hplace hdepth hparens, strip_nil, List.map_nil, List.append_nil]
  have hfeeds : Text.newlines (front ++ ['\n']) = front.newlines + 1 := by
    simp [Text.newlines]
  rw [hfront, hfeeds, List.append_assoc]
  exact Scan.strip_of_place hplace' hdepth hparens

/-- A source that begins with a directive can stand behind one that has a directive over two
lines, a wrapped parameter list and a body. A line feed in a parameter list, in a body, in a
comment or behind a backslash is no such place. -/
theorem strip_directive_behind_body :
    let a := "#define A /* \n */ 1\nint f(int a,\n int b) \x7b\n '\x7d' \x7d\n".toList
    let b := "#if 0\nint g(void);".toList
    let f := "int f(int a, int b)".toList
    EndsLine a ∧ strip a = [⟨3, f⟩] ∧ strip b = [⟨2, "int g(void);".toList⟩] ∧
      strip (a ++ b) = [⟨3, f⟩, ⟨7, "int g(void);".toList⟩] ∧
      ∀ c ∈ ["int f(\n", "int f(void) \x7b\n", "/* \n", "#define A \\\n"], ¬EndsLine c.toList := by
  intro a b f
  have hends : EndsLine a := by decide +kernel
  have hfirst : strip a = [⟨3, f⟩] := by decide +kernel
  have hsecond : strip b = [⟨2, "int g(void);".toList⟩] := by decide +kernel
  refine ⟨hends, hfirst, hsecond, ?_, by decide +kernel⟩
  rw [strip_append hends, hfirst, hsecond]
  decide

end PrototypeGate

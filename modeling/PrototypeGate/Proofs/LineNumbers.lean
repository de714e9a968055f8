import PrototypeGate.Proofs.Segment

/-!
# Scanning further down

The scan counts source lines and records the count with the lines it finishes, but no
decision depends on it. A scan that starts some lines further down therefore finds the
same lines, and all their numbers are greater by as much.
-/

namespace PrototypeGate

/-- The same line, a number of lines further down in its source. -/
def Line.lower (k : Nat) (line : Line) : Line :=
  { line with number := line.number + k }

namespace Scan

/-- The same scan, a number of lines further down in its source. -/
def lower (k : Nat) (s : Scan) : Scan :=
  { s with
    line := s.line + k
    start := s.start.map (· + k)
    emitted := s.emitted.map (Line.lower k) }

variable (k : Nat) (s : Scan)

@[simp] theorem depth_lower : (s.lower k).depth = s.depth := rfl

/-- Further down, moving on by some lines does the same. -/
theorem advance_lower (lines : Nat) : (s.lower k).advance lines = (s.advance lines).lower k := by
  simp only [advance, lower, Scan.mk.injEq, and_true]
  omega

/-- Further down, a chunk is added to the line being built all the same. -/
theorem put_lower (chunk : Text) : (s.lower k).put chunk = (s.put chunk).lower k := by
  by_cases hdepth : s.depth = 0
  · have hstart : (s.start.map (· + k)).or (if chunk.all isBlank then none else some (s.line + k)) =
        (s.start.or (if chunk.all isBlank then none else some s.line)).map (· + k) := by
      cases s.start <;> by_cases hchunk : chunk.all isBlank <;> simp [hchunk]
    simp only [put, lower, hdepth, if_true, hstart]
  · simp only [put, lower, hdepth, if_false]

/-- Further down, a finished line has the same text and a greater number. -/
theorem flush_lower : (s.lower k).flush = s.flush.lower k := by
  have hnumber : (s.start.map (· + k)).getD (s.line + k) = s.start.getD s.line + k := by
    cases s.start <;> rfl
  simp only [flush, lower, hnumber, apply_ite (List.map (Line.lower k)), List.map_cons,
    Line.lower, Option.map_none]

/-- Further down, a line feed does the same. -/
theorem newline_lower : (s.lower k).newline = s.newline.lower k := by
  let next : Scan := { s with line := s.line + 1, lineBlank := true }
  have hnext : ({ s.lower k with line := s.line + k + 1, lineBlank := true } : Scan) =
      next.lower k := by
    simp only [next, lower, Scan.mk.injEq, and_true]
    omega
  by_cases hdepth : s.depth = 0
  · by_cases hparens : 0 < s.parens
    · calc (s.lower k).newline
          = Scan.put { s.lower k with line := s.line + k + 1, lineBlank := true } [' '] := by
            simp only [newline, lower, hdepth, hparens, if_true]
        _ = (next.put [' ']).lower k := by rw [hnext, put_lower]
        _ = s.newline.lower k := by simp only [newline, hdepth, hparens, if_true, next]
    · calc (s.lower k).newline
          = Scan.flush { s.lower k with line := s.line + k + 1, lineBlank := true } := by
            simp only [newline, lower, hdepth, hparens, if_true, if_false]
        _ = next.flush.lower k := by rw [hnext, flush_lower]
        _ = s.newline.lower k := by simp only [newline, hdepth, hparens, if_true, if_false, next]
  · simpa only [newline, lower, hdepth, if_false] using hnext

/-- Further down, an opening brace does the same. -/
theorem openBrace_lower : (s.lower k).openBrace = s.openBrace.lower k := by
  by_cases hdepth : s.depth = 0
  · simp only [openBrace, depth_lower, hdepth, if_true, flush_lower]
    rfl
  · simp only [openBrace, depth_lower, hdepth, if_false]
    rfl

/-- Further down, an ordinary character does the same. -/
theorem character_lower (c : Char) : (s.lower k).character c = (s.character c).lower k := by
  let counted (t : Scan) : Scan :=
    if t.depth = 0 then
      if c = '(' then { t with parens := t.parens + 1 }
      else if c = ')' then { t with parens := t.parens - 1 }
      else t
    else t
  have hcounted : counted (s.lower k) = (counted s).lower k := by
    simp only [counted, depth_lower, apply_ite (lower k)]
    rfl
  calc (s.lower k).character c
      = (counted (s.lower k)).put [c] := rfl
    _ = (s.character c).lower k := by rw [hcounted, put_lower]; rfl

/-- Further down, an element does the same to the scan. -/
theorem absorb_lower (e : Element) : (s.lower k).absorb e = (s.absorb e).lower k := by
  let seen : Scan := { s with lineBlank := s.lineBlank && e.isBlank }
  have hput (lines : Nat) (chunk : Text) : ((seen.lower k).advance lines).put chunk =
      ((seen.advance lines).put chunk).lower k := by
    rw [advance_lower, put_lower]
  cases e with
  | newline => exact newline_lower k s
  | splice => exact hput 1 [' ']
  | comment body => exact hput body.newlines [' ']
  | lineComment body => rfl
  | literal quote body => exact hput body.newlines [quote, quote]
  | directive body => exact advance_lower k seen body.newlines
  | openBrace => exact openBrace_lower k seen
  | closeBrace => rfl
  | character c => exact character_lower k seen c

/-- Further down, elements do the same to the scan. -/
theorem foldl_absorb_lower (es : List Element) :
    es.foldl absorb (s.lower k) = (es.foldl absorb s).lower k := by
  induction es generalizing s with
  | nil => rfl
  | cons e es ih => rw [List.foldl_cons, List.foldl_cons, absorb_lower, ih]

end Scan

/-- The stripped lines of a source are those that the scan has finished when it has
absorbed all elements. -/
theorem strip_eq_foldl (t : Text) :
    strip t = ((segment t).foldl Scan.absorb .initial).flush.emitted.reverse := by
  rw [strip, segment, ← Scan.run_eq_foldl rfl t]

end PrototypeGate

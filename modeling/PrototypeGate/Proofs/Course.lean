import PrototypeGate.Proofs.Lookahead

/-!
# The course of a scan

A scan goes through one state before every element of its text. What it does up to such a
place depends on the text in front of the place only, as long as what stands behind does
not complete a mark that begins in front: a scan of another text with the same beginning
comes to the same place in the same state.
-/

namespace PrototypeGate

namespace Scan

/-- The states of a scan, each with the text that is left: one before every element and one
at the end. -/
def course (s : Scan) : Text → List (Scan × Text)
  | [] => [(s, [])]
  | c :: rest => (s, c :: rest) :: course (s.step c rest).1 (s.step c rest).2
termination_by t => t.length
decreasing_by
  have := length_step_le s c rest
  simp only [List.length_cons]
  omega

/-- The stripped lines of a source that ends where the scan stands. -/
def lines (s : Scan) : List Line :=
  s.flush.emitted.reverse

/-- From every place of its course the scan goes on as a scan of the text that is left. -/
theorem run_of_mem_course {s s' : Scan} {t rest : Text} (h : (s', rest) ∈ s.course t) :
    s.run t = s'.run rest := by
  fun_induction course s t with
  | case1 s =>
    obtain ⟨rfl, rfl⟩ : s' = s ∧ rest = [] := by simpa using h
    rfl
  | case2 s c after ih =>
    rcases List.mem_cons.mp h with hfirst | hlater
    · obtain ⟨rfl, rfl⟩ := Prod.mk.inj hfirst
      rfl
    · rw [run]
      exact ih hlater

/-- The places of a scan are those between two elements of its text. -/
theorem mem_course_iff {s : Scan} {line : List Element}
    (hblank : s.lineBlank = line.all Element.isBlank) (t : Text) {s' : Scan} {rest : Text} :
    (s', rest) ∈ s.course t ↔ ∃ above below, segmentFrom line t = above ++ below ∧
      above.foldl absorb s = s' ∧ below.flatMap Element.source = rest := by
  induction line, t using segmentFrom.induct generalizing s with
  | case1 line =>
    simp only [course, segmentFrom, List.mem_singleton, Prod.mk.injEq, List.nil_eq_append_iff]
    constructor
    · rintro ⟨rfl, rfl⟩
      exact ⟨[], [], ⟨rfl, rfl⟩, rfl, rfl⟩
    · rintro ⟨_, _, ⟨rfl, rfl⟩, rfl, rfl⟩
      exact ⟨rfl, rfl⟩
  | case2 line c after next =>
    rename_i ih
    have hlater := ih (lineBlank_absorb hblank next.1)
    have hall : (segmentFrom line (c :: after)).flatMap Element.source = c :: after :=
      flatMap_source_segmentFrom line (c :: after)
    rw [course, List.mem_cons, step_eq_absorb hblank, hlater]
    constructor
    · rintro (hfirst | ⟨above, below, hcut, hstate, hrest⟩)
      · obtain ⟨rfl, rfl⟩ := Prod.mk.inj hfirst
        exact ⟨[], _, rfl, rfl, hall⟩
      · refine ⟨next.1 :: above, below, ?_, hstate, hrest⟩
        rw [segmentFrom, hcut]
        rfl
    · rintro ⟨_ | ⟨e, above⟩, below, hcut, rfl, rfl⟩
      · left
        rw [← hall, hcut]
        rfl
      · right
        rw [segmentFrom, List.cons_append, List.cons.injEq] at hcut
        obtain ⟨rfl, hcut⟩ := hcut
        exact ⟨above, below, hcut, rfl, rfl⟩

/-- Every scan stands behind some elements of its source line. -/
theorem exists_line (s : Scan) : ∃ line : List Element, s.lineBlank = line.all Element.isBlank := by
  cases hblank : s.lineBlank with
  | true => exact ⟨[], rfl⟩
  | false => exact ⟨[.splice], rfl⟩

/-- A scan has absorbed some elements at every place of its course. -/
theorem exists_foldl_of_mem_course {s s' : Scan} {t rest : Text} (h : (s', rest) ∈ s.course t) :
    ∃ es : List Element, es.foldl absorb s = s' := by
  obtain ⟨line, hblank⟩ := s.exists_line
  obtain ⟨es, _, _, hstate, _⟩ := (mem_course_iff hblank t).mp h
  exact ⟨es, hstate⟩

/-- The stripped lines of a source are those of the scan of what is left at any place. -/
theorem strip_of_mem_course {s : Scan} {t rest : Text} (h : (s, rest) ∈ initial.course t) :
    strip t = (s.run rest).lines := by
  rw [← run_of_mem_course h]
  rfl

/-- A scan absorbs the element in front of it, if what stands on its line before does not
matter for the element. -/
theorem run_cons (s : Scan) {c : Char} {rest behind : Text} {e : Element}
    (h : ∀ line, nextElement line c rest = (e, behind)) :
    s.run (c :: rest) = (s.absorb e).run behind := by
  obtain ⟨line, hblank⟩ := s.exists_line
  rw [run, step_eq_absorb hblank, h]

/-- The first place of a scan is in front of the first element, and the others are those behind
it. -/
theorem course_cons (s : Scan) {c : Char} {rest behind : Text} {e : Element}
    (h : ∀ line, nextElement line c rest = (e, behind)) :
    s.course (c :: rest) = (s, c :: rest) :: (s.absorb e).course behind := by
  obtain ⟨line, hblank⟩ := s.exists_line
  rw [course, step_eq_absorb hblank, h]

/-- A place behind `a` is a cut between the elements of `a` and those behind. -/
theorem exists_cut_of_mem_course {s s' : Scan} {line : List Element}
    (hblank : s.lineBlank = line.all Element.isBlank) {a x : Text}
    (h : (s', x) ∈ s.course (a ++ x)) :
    ∃ es below, segmentFrom line (a ++ x) = es ++ below ∧ es.flatMap Element.source = a ∧
      below.flatMap Element.source = x ∧ es.foldl absorb s = s' := by
  obtain ⟨es, below, hcut, hstate, hbelow⟩ := (mem_course_iff hblank _).mp h
  have hall := flatMap_source_segmentFrom line (a ++ x)
  rw [hcut, List.flatMap_append, hbelow] at hall
  exact ⟨es, below, hcut, List.append_cancel_right hall, hbelow, hstate⟩

/-- A scan comes to the place behind `a` in the same state if the same character stands there. If
it is not a line feed, the scan does so whatever stands there, as long as no mark begins in `a`
and ends behind it. -/
theorem mem_course_append_congr {s s' : Scan} {a x y : Text} {d : Char}
    (h : (s', d :: x) ∈ s.course (a ++ d :: x))
    (hnext : y.head? = some d ∨ d ≠ '\n' ∧ Apart a y) : (s', y) ∈ s.course (a ++ y) := by
  obtain ⟨line, hblank⟩ := s.exists_line
  obtain ⟨es, below, hcut, hsource, -, hstate⟩ := exists_cut_of_mem_course hblank h
  rw [mem_course_iff hblank]
  exact ⟨es, _, segmentFrom_append_congr hcut hsource hnext, hstate,
    flatMap_source_segmentFrom _ y⟩

end Scan

/-! ### What stands on the line before -/

/-- Of the elements before a text on its line it only matters whether all are white space. -/
theorem segmentFrom_congr {line line' : List Element}
    (h : line.all Element.isBlank = line'.all Element.isBlank) (t : Text) :
    segmentFrom line t = segmentFrom line' t := by
  induction line, t using segmentFrom.induct generalizing line' with
  | case1 line => simp [segmentFrom]
  | case2 line c rest next =>
    rename_i ih
    have hsame : nextElement line' c rest = next := by simp only [nextElement, ← h, next]
    have hfollow : (next.1.follow line).all Element.isBlank =
        (next.1.follow line').all Element.isBlank := by
      by_cases hnewline : next.1 = .newline <;> simp [Element.follow, hnewline, h]
    rw [segmentFrom, segmentFrom, hsame]
    exact congrArg (next.1 :: ·) (ih hfollow)

/-- White space on a line is an element of its own. -/
theorem nextElement_of_isBlank {c : Char} (hblank : isBlank c = true) (hnewline : c ≠ '\n')
    (line : List Element) (rest : Text) : nextElement line c rest = (.character c, rest) := by
  have hmark (mark : Char) (hmark : isBlank mark = false) : c ≠ mark := by
    rintro rfl
    rw [hmark] at hblank
    cases hblank
  simp [nextElement, hnewline, hmark '\\' rfl, hmark '/' rfl, hmark '"' rfl, hmark '\'' rfl,
    hmark '#' rfl, hmark '\x7b' rfl, hmark '\x7d' rfl]

/-- An element that begins with a character that is not white space is not white space. -/
theorem isBlank_nextElement {c : Char} (hblank : isBlank c = false) (line : List Element)
    (rest : Text) : (nextElement line c rest).1.isBlank = false := by
  fun_cases nextElement line c rest with
  | case9 => exact hblank
  | case1 | case2 | case3 | case4 | case5 | case6 | case7 | case8 => rfl

/-- If a text does not lead with a hash sign, what stands before it on its line does not
matter for its elements. -/
theorem segmentFrom_eq_of_lead {t : Text} (h : t.lead ≠ some '#') (line line' : List Element) :
    segmentFrom line t = segmentFrom line' t := by
  induction t generalizing line line' with
  | nil => simp [segmentFrom]
  | cons c rest ih =>
    by_cases hnewline : c = '\n'
    · simp [segmentFrom, nextElement, hnewline, Element.follow]
    cases hblank : isBlank c with
    | true =>
      have hrest : Text.lead rest ≠ some '#' := by simpa [Text.lead, hblank] using h
      simp only [segmentFrom, nextElement_of_isBlank hblank hnewline]
      rw [ih hrest]
    | false =>
      have hhash : c ≠ '#' := by simpa [Text.lead, hblank] using h
      have hsame : nextElement line c rest = nextElement line' c rest := by
        simp [nextElement, hhash]
      have hfollow : ((nextElement line' c rest).1.follow line).all Element.isBlank =
          ((nextElement line' c rest).1.follow line').all Element.isBlank := by
        have hsolid := isBlank_nextElement hblank line' rest
        by_cases hfeed : (nextElement line' c rest).1 = .newline <;>
          simp [Element.follow, hfeed, hsolid]
      rw [segmentFrom, segmentFrom, hsame]
      exact congrArg _ (segmentFrom_congr hfollow _)

/-- Two scans absorb the same elements of a text if as much of their lines is blank, or if the
text does not lead with a hash sign. -/
theorem Scan.exists_common_elements {s s' : Scan} {t : Text}
    (h : s'.lineBlank = s.lineBlank ∨ t.lead ≠ some '#') :
    ∃ es : List Element, s.run t = es.foldl absorb s ∧ s'.run t = es.foldl absorb s' := by
  obtain ⟨line, hline⟩ := s.exists_line
  obtain ⟨line', hline'⟩ := s'.exists_line
  have hsame : segmentFrom line' t = segmentFrom line t := by
    rcases h with hblank | hlead
    · exact segmentFrom_congr (by rw [← hline, ← hline', hblank]) t
    · exact segmentFrom_eq_of_lead hlead line' line
  exact ⟨segmentFrom line t, run_eq_foldl hline t, hsame ▸ run_eq_foldl hline' t⟩

end PrototypeGate

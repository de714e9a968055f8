import PrototypeGate.Proofs.Beginnings

/-!
# Function bodies

What stands between a brace and the brace that closes it is not looked at. Inside braces the
scan puts no character on a line, counts no parenthesis and begins and finishes no line, and
behind the closing brace it goes on as behind an empty block, only further down. Two bodies
can therefore be told apart by the number of their line feeds alone.
-/

namespace PrototypeGate

/-- The text is the body of a block. The scan of the block comes to its last brace and closes
the first one there, and a brace is open at every place before. -/
structure ClosedBody (body : Text) : Prop where
  /-- The last brace is read as one, and no brace is open behind it. -/
  closes : ∃ place ∈ Scan.initial.course ('{' :: (body ++ ['}'])),
    place.2 = ['}'] ∧ place.1.closeBrace.depth = 0
  /-- Between the two braces a brace is open. -/
  inside : ∀ place ∈ (Scan.initial.course ('{' :: (body ++ ['}']))).tail,
    place.2 ≠ [] → 0 < place.1.depth

instance (body : Text) : Decidable (ClosedBody body) :=
  decidable_of_iff (_ ∧ _) ⟨fun h => ⟨h.1, h.2⟩, fun h => ⟨h.closes, h.inside⟩⟩

/-- From this number of open braces on, a brace is open before and behind every element. -/
def StaysInside (depth : Nat) (es : List Element) : Prop :=
  ∀ above, above <+: es → 0 < above.foldl Element.depthAfter depth

/-- A brace is open behind the first element, too. -/
theorem StaysInside.tail {depth : Nat} {e : Element} {es : List Element}
    (h : StaysInside depth (e :: es)) : StaysInside (e.depthAfter depth) es :=
  fun above habove => h (e :: above) (List.cons_prefix_cons.mpr ⟨rfl, habove⟩)

namespace Scan

variable {s : Scan}

/-- Braces are counted inside braces and outside. -/
theorem depth_absorb (s : Scan) (e : Element) : (s.absorb e).depth = e.depthAfter s.depth := by
  by_cases hdepth : s.depth = 0
  · rw [hdepth]
    cases he : e.ends s.parens with
    | true => exact (absorb_end hdepth he).1
    | false => exact (absorb_within hdepth he).1
  · exact (absorb_inside (Nat.pos_of_ne_zero hdepth) e).1

/-- Elements open and close braces one after the other. -/
theorem depth_foldl (s : Scan) (es : List Element) :
    (es.foldl absorb s).depth = es.foldl Element.depthAfter s.depth := by
  induction es generalizing s with
  | nil => rfl
  | cons e es ih => rw [List.foldl_cons, List.foldl_cons, ih, depth_absorb]

/-- Nothing is left of elements inside braces. -/
theorem foldl_absorb_inside {es : List Element} (hs : s.Numbered) (h : StaysInside s.depth es) :
    (es.foldl absorb s).pending = s.pending ∧ (es.foldl absorb s).parens = s.parens ∧
      (es.foldl absorb s).texts = s.texts ∧ (es.foldl absorb s).begun = s.begun := by
  induction es generalizing s with
  | nil => exact ⟨rfl, rfl, rfl, rfl⟩
  | cons e es ih =>
    have hdepth : 0 < s.depth := h [] List.nil_prefix
    obtain ⟨hafter, hpending, hparens, htexts⟩ := absorb_inside hdepth e
    have hbegun : (s.absorb e).begun = s.begun := by
      rw [begun_absorb hs, if_neg (fun hbegins => hdepth.ne' hbegins.1), List.append_nil]
    have hrest : StaysInside (s.absorb e).depth es := hafter ▸ h.tail
    obtain ⟨hp, hn, ht, hb⟩ := ih (numbered_absorb hs e) hrest
    exact ⟨hp.trans hpending, hn.trans hparens, ht.trans htexts, hb.trans hbegun⟩

/-- Something shows on the source line of an opening brace. -/
theorem lineBlank_openBrace (s : Scan) : (s.absorb .openBrace).lineBlank = false := by
  simp only [absorb, openBrace, Element.isBlank, Bool.and_false]
  split_ifs <;> rfl

end Scan

/-- An opening brace is an element of its own, whatever stands before it on its line. -/
theorem nextElement_openBrace (rest : Text) (line : List Element) :
    nextElement line '{' rest = (.openBrace, rest) := rfl

/-- A closing brace is one, too. -/
theorem nextElement_closeBrace (rest : Text) (line : List Element) :
    nextElement line '}' rest = (.closeBrace, rest) := rfl

/-- Behind its opening brace a body is cut from its closing brace, and its elements stay inside
the two. -/
theorem ClosedBody.exists_cut {body : Text} (h : ClosedBody body) :
    ∃ es below, segmentFrom [.openBrace] (body ++ ['}']) = es ++ below ∧
      es.flatMap Element.source = body ∧ StaysInside 1 es ∧
      es.foldl Element.depthAfter 1 = 1 := by
  let opened := Scan.initial.absorb .openBrace
  have hcourse : Scan.initial.course ('{' :: (body ++ ['}'])) =
      (Scan.initial, '{' :: (body ++ ['}'])) :: opened.course (body ++ ['}']) :=
    Scan.initial.course_cons (nextElement_openBrace _)
  have hclosed : ∃ s, (s, ['}']) ∈ opened.course (body ++ ['}']) ∧ s.closeBrace.depth = 0 := by
    obtain ⟨⟨s, _⟩, hmem, rfl, hdepth⟩ := h.closes
    rw [hcourse, List.mem_cons] at hmem
    rcases hmem with hfirst | hmem
    · simp at hfirst
    · exact ⟨s, hmem, hdepth⟩
  obtain ⟨s, hmem, hdepth⟩ := hclosed
  have hblank : opened.lineBlank = [Element.openBrace].all Element.isBlank := rfl
  obtain ⟨es, below, hcut, hsource, hbelow, rfl⟩ := Scan.exists_cut_of_mem_course hblank hmem
  have hstays : StaysInside 1 es := by
    rintro above ⟨mid, rfl⟩
    rw [show (1 : Nat) = opened.depth from rfl, ← Scan.depth_foldl]
    let place := (above.foldl Scan.absorb opened, (mid ++ below).flatMap Element.source)
    have hplace : place ∈ opened.course (body ++ ['}']) := by
      rw [Scan.mem_course_iff hblank]
      exact ⟨above, mid ++ below, by rw [hcut, List.append_assoc], rfl, rfl⟩
    have hleft : place.2 ≠ [] := by simp [place, hbelow]
    exact h.inside place (by rwa [hcourse]) hleft
  have hinside : 0 < es.foldl Element.depthAfter 1 := hstays es List.prefix_rfl
  have hclose : es.foldl Element.depthAfter 1 - 1 = 0 := by
    rwa [Scan.closeBrace, Scan.depth_foldl] at hdepth
  exact ⟨es, below, hcut, hsource, hstays, by omega⟩

/-- The elements of a body stay inside its braces, and every scan that comes to the opening
brace goes over them to the closing one. -/
theorem ClosedBody.exists_elements {body : Text} (h : ClosedBody body) :
    ∃ es : List Element, (es.map Element.lineFeeds).sum = body.newlines ∧ StaysInside 1 es ∧
      es.foldl Element.depthAfter 1 = 1 ∧
      ∀ (s : Scan) (b : Text), (es.foldl Scan.absorb (s.absorb .openBrace), '}' :: b) ∈
        (s.absorb .openBrace).course (body ++ '}' :: b) := by
  obtain ⟨es, below, hcut, hsource, hstays, hone⟩ := h.exists_cut
  refine ⟨es, ?_, hstays, hone, ?_⟩
  · rw [sum_lineFeeds hcut, hsource]
  · intro s b
    have hapart : Apart body ('}' :: b) := ⟨fun _ => by simp, fun _ => by simp⟩
    have hline : (s.absorb .openBrace).lineBlank = [Element.openBrace].all Element.isBlank :=
      s.lineBlank_openBrace
    rw [Scan.mem_course_iff hline]
    exact ⟨es, _, segmentFrom_append_congr hcut hsource (.inr ⟨by decide, hapart⟩), rfl,
      flatMap_source_segmentFrom _ _⟩

/-- Behind a body the scan has the state it has behind an empty body, further down. -/
theorem Scan.below_of_body {s : Scan} (hs : s.Numbered) (hdepth : s.depth = 0)
    {es : List Element} (hstays : StaysInside 1 es) (hone : es.foldl Element.depthAfter 1 = 1) :
    Below s.begun (es.map Element.lineFeeds).sum ((s.absorb .openBrace).absorb .closeBrace)
      ((es.foldl absorb (s.absorb .openBrace)).absorb .closeBrace) := by
  let opened := s.absorb .openBrace
  have hopened : opened.Numbered := numbered_absorb hs .openBrace
  have hdepth' : opened.depth = 1 := by rw [depth_absorb, hdepth, Element.depthAfter]
  have hbegun : opened.begun = s.begun := by
    rw [begun_absorb hs, if_neg (not_begins rfl), List.append_nil]
  obtain ⟨hp, hn, ht, hb⟩ := foldl_absorb_inside hopened (hdepth' ▸ hstays)
  have hinner : Below s.begun (es.map Element.lineFeeds).sum opened (es.foldl absorb opened) :=
    ⟨hopened, numbered_foldl hopened es, line_foldl opened es,
      by rw [depth_foldl, hdepth', hone], hn, hp, ht, [], by simpa using hbegun,
      by simpa [hb] using hbegun⟩
  exact hinner.absorb .closeBrace

/-- A body in the place of an empty one gives the same lines. Those that begin behind it are
further down by the line feeds in it. -/
theorem strip_body {a b body : Text} {s : Scan}
    (hplace : (s, '{' :: b) ∈ Scan.initial.course (a ++ '{' :: b)) (hdepth : s.depth = 0)
    (hbody : ClosedBody body) :
    strip (a ++ '{' :: (body ++ '}' :: b)) =
      lowerFrom (strip a).length body.newlines (strip (a ++ '{' :: '}' :: b)) := by
  have hmoved (x : Text) : (s, '{' :: x) ∈ Scan.initial.course (a ++ '{' :: x) := by
    apply Scan.mem_course_append_congr hplace
    exact Or.inr ⟨by decide, fun _ => by simp, fun _ => by simp⟩
  have hopen (x : Text) : s.run ('{' :: x) = (s.absorb .openBrace).run x :=
    s.run_cons (nextElement_openBrace x)
  have hclose (s' : Scan) : s'.run ('}' :: b) = (s'.absorb .closeBrace).run b :=
    s'.run_cons (nextElement_closeBrace b)
  obtain ⟨es, hfeeds, hstays, hone, hbody⟩ := hbody.exists_elements
  have hbelow := Scan.below_of_body (Scan.numbered_of_mem_course hplace) hdepth hstays hone
  rw [Scan.strip_of_mem_course (hmoved (body ++ '}' :: b)), hopen,
    Scan.run_of_mem_course (hbody s b), hclose, Scan.strip_of_mem_course (hmoved ('}' :: b)),
    hopen, hclose, ← hfeeds, ← Scan.length_begun hplace (by decide)]
  apply hbelow.lines_run
  left
  simp [Scan.absorb, Element.isBlank, Scan.closeBrace]

/-- Two bodies that stand outside other braces, between the same texts, give lines of the same
texts. The lines that begin in front of the bodies, as many as the text in front has, are the
same, and those behind are as far apart as the line feeds of the bodies are. -/
theorem strip_with_other_body {a b body body' : Text} {s : Scan}
    (hplace : (s, '{' :: b) ∈ Scan.initial.course (a ++ '{' :: b)) (hdepth : s.depth = 0)
    (hbody : ClosedBody body) (hbody' : ClosedBody body') :
    let first := (strip a).length
    let lines := strip (a ++ '{' :: (body ++ '}' :: b))
    let lines' := strip (a ++ '{' :: (body' ++ '}' :: b))
    lines.map Line.text = lines'.map Line.text ∧ lines.take first = lines'.take first ∧
      (lines.drop first).map (Line.lower body'.newlines) =
        (lines'.drop first).map (Line.lower body.newlines) := by
  intro first lines lines'
  let empty := strip (a ++ '{' :: '}' :: b)
  have hlines : lines = lowerFrom first body.newlines empty := strip_body hplace hdepth hbody
  have hlines' : lines' = lowerFrom first body'.newlines empty := strip_body hplace hdepth hbody'
  rw [hlines, hlines']
  refine ⟨?_, ?_, ?_⟩
  · rw [map_text_lowerFrom, map_text_lowerFrom]
  · rw [take_lowerFrom, take_lowerFrom]
  · rw [drop_lowerFrom, drop_lowerFrom, List.map_map, List.map_map]
    apply List.map_congr_left
    intro line _
    simp [Line.lower, Nat.add_right_comm]

/-- A body with an inner block, a parenthesis that is not closed, and braces in a character, a
string, comments and a directive is as good as an empty one: the declaration behind it is only
four lines further down. -/
theorem strip_with_nested_body :
    let a := "int before(void);\nint f(int a) ".toList
    let body := "\n if (a) \x7b call('\x7d'; \x7d\n#define X \x7d\n \"\x7d\" /* \x7d */ // \x7d\n".toList
    let b := "\nint g(void);".toList
    let s : Scan := ⟨2, 0, 0, false, "int f(int a) ".toList.reverse, some 2,
      [⟨1, "int before(void);".toList⟩]⟩
    (s, '{' :: b) ∈ Scan.initial.course (a ++ '{' :: b) ∧ s.depth = 0 ∧ ClosedBody body ∧
      ClosedBody [] ∧
      strip (a ++ '{' :: '}' :: b) = [⟨1, "int before(void);".toList⟩,
        ⟨2, "int f(int a)".toList⟩, ⟨3, "int g(void);".toList⟩] ∧
      strip (a ++ '{' :: (body ++ '}' :: b)) = [⟨1, "int before(void);".toList⟩,
        ⟨2, "int f(int a)".toList⟩, ⟨7, "int g(void);".toList⟩] := by
  intro a body b s
  have hplace : (s, '{' :: b) ∈ Scan.initial.course (a ++ '{' :: b) := by decide +kernel
  have hbody : ClosedBody body := by decide +kernel
  have hempty : ClosedBody [] := by decide +kernel
  have hlines : strip (a ++ '{' :: '}' :: b) = [⟨1, "int before(void);".toList⟩,
      ⟨2, "int f(int a)".toList⟩, ⟨3, "int g(void);".toList⟩] := by decide +kernel
  have hfirst : (strip a).length = 2 := by decide +kernel
  have hfeeds : Text.newlines body = 4 := by decide
  obtain ⟨-, hbefore, hbehind⟩ := strip_with_other_body hplace rfl hbody hempty
  have hlower : Line.lower (Text.newlines []) = id := rfl
  rw [hlower, List.map_id, hfeeds] at hbehind
  rw [hfirst, List.nil_append, hlines] at hbefore hbehind
  refine ⟨hplace, rfl, hbody, hempty, hlines, ?_⟩
  rw [← List.take_append_drop 2 (strip _), hbefore, hbehind]
  rfl

end PrototypeGate

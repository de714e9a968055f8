import PrototypeGate.Proofs.Cleanness
import PrototypeGate.Proofs.Composition

/-!
# Lines that are left as they are

Stripped lines are clean, but not every clean line is left as it is when it is stripped again.
It may hold the mark of a comment, begin like a directive, end in a splice, or leave a
parenthesis open, so that the next line is joined to it. The lines without any of this are the
normal forms: every element of such a line shows what stands in the source, and at its end the
scan is where it was at its beginning.
-/

namespace PrototypeGate

/-- Number of open parentheses after one more character. -/
def countParen (parens : Nat) (c : Char) : Nat :=
  if c = '(' then parens + 1 else if c = ')' then parens - 1 else parens

/-- A clean line in which the scan finds nothing to drop, to replace or to join. -/
structure Plain (text : Text) : Prop extends Clean text where
  /-- The line is no directive. -/
  hash : text.head? ≠ some '#'
  /-- The next line is not spliced to it. -/
  splice : ¬['\\'] <:+ text
  /-- No comment begins on the line. -/
  comments : ¬['/', '/'] <:+: text ∧ ¬['/', '*'] <:+: text
  /-- No parenthesis is open at its end. -/
  parens : text.foldl countParen 0 = 0

instance (text : Text) : Decidable (Plain text) :=
  decidable_of_iff (_ ∧ _ ∧ _ ∧ _ ∧ _)
    ⟨fun ⟨hclean, hhash, hsplice, hcomments, hparens⟩ =>
      ⟨hclean, hhash, hsplice, hcomments, hparens⟩,
    fun h => ⟨h.toClean, h.hash, h.splice, h.comments, h.parens⟩⟩

/-- The lines, numbered from one on. -/
def numberLines (texts : List Text) : List Line :=
  (texts.zipIdx 1).map fun (text, number) => ⟨number, text⟩

/-- All lines but the first one are numbered one further on. -/
theorem numberLines_cons (text : Text) (texts : List Text) :
    numberLines (text :: texts) = ⟨1, text⟩ :: (numberLines texts).map (Line.lower 1) := by
  rw [numberLines, List.zipIdx_cons, List.zipIdx_succ, List.map_cons, List.map_map, numberLines,
    List.map_map]
  rfl

/-! ### Elements of a plain line -/

/-- What is left of the element is what stands in the source. Outside braces it does nothing
else but open and close parentheses. -/
structure Element.Verbatim (e : Element) : Prop where
  /-- The element shows its source. -/
  shown : e.shown = e.source
  /-- The element ends no line. -/
  stays : ∀ parens, e.ends parens = false
  /-- The element opens no brace. -/
  depth : e.depthAfter 0 = 0
  /-- The parentheses are those of the source. -/
  parens : ∀ parens, e.parensAfter parens = e.source.foldl countParen parens

/-- A single character is verbatim. -/
theorem Element.verbatim_character (c : Char) : (character c).Verbatim :=
  ⟨rfl, fun _ => rfl, rfl, fun _ => rfl⟩

/-- An empty literal is verbatim. -/
theorem Element.verbatim_literal {q : Char} (hq : IsQuote q) : (literal q [q]).Verbatim := by
  refine ⟨rfl, fun _ => rfl, rfl, fun parens => ?_⟩
  rcases hq with rfl | rfl <;> rfl

/-- Two quotes of a kind are an empty literal. -/
theorem nextElement_pair {q : Char} (hq : IsQuote q) (line : List Element) (rest : Text) :
    nextElement line q (q :: rest) = (.literal q [q], rest) := by
  have hsplit : Literal.split q (q :: rest) = ([q], rest) := by
    rcases hq with rfl | rfl <;> cases rest <;> simp [Literal.split]
  rcases hq with rfl | rfl <;> simp [nextElement, hsplit]

/-- Apart from quotes, nothing in a piece of a source line makes the scan look further than one
character. -/
structure Inert (t : Text) : Prop where
  /-- The piece is on one line. -/
  feed : '\n' ∉ t
  /-- No brace stands in it. -/
  braces : '{' ∉ t ∧ '}' ∉ t
  /-- The next line is not spliced to it. -/
  splice : ¬['\\'] <:+ t
  /-- No comment begins in it. -/
  comments : ¬['/', '/'] <:+: t ∧ ¬['/', '*'] <:+: t

/-- The end of an inert piece is inert. -/
theorem Inert.of_suffix {t u : Text} (h : Inert t) (hu : u <:+ t) : Inert u :=
  ⟨fun hmem => h.feed (hu.mem hmem),
    ⟨fun hmem => h.braces.1 (hu.mem hmem), fun hmem => h.braces.2 (hu.mem hmem)⟩,
    fun hsplice => h.splice (hsplice.trans hu),
    ⟨fun hmark => h.comments.1 (hmark.trans hu.isInfix),
      fun hmark => h.comments.2 (hmark.trans hu.isInfix)⟩⟩

/-- A character of an inert piece is an element of its own, whether the piece goes on behind it
or the line ends there. -/
theorem Inert.nextElement_eq {c : Char} {t y : Text} (h : Inert (c :: t)) (hc : ¬IsQuote c)
    (hy : ∀ d ∈ y.head?, d = '\n') {line : List Element}
    (hline : line.all Element.isBlank = false) :
    nextElement line c (t ++ y) = (.character c, t ++ y) := by
  have hnewline : c ≠ '\n' := fun hc => h.feed (hc ▸ List.mem_cons_self)
  have hopen : c ≠ '{' := fun hc => h.braces.1 (hc ▸ List.mem_cons_self)
  have hclose : c ≠ '}' := fun hc => h.braces.2 (hc ▸ List.mem_cons_self)
  have hquote : ¬(c = '"' ∨ c = '\'') := hc
  have hnosplice : ¬(c = '\\' ∧ (t ++ y).head? = some '\n') := by
    rintro ⟨rfl, hhead⟩
    cases t with
    | nil => exact h.splice List.suffix_rfl
    | cons d t =>
      obtain rfl : d = '\n' := Option.some.inj hhead
      exact h.feed (by simp)
  have hnomark {d : Char} (hd : d ≠ '\n') (hmark : ¬['/', d] <:+: c :: t) :
      ¬(c = '/' ∧ (t ++ y).head? = some d) := by
    rintro ⟨rfl, hhead⟩
    cases t with
    | nil => exact hd (hy d hhead)
    | cons e t =>
      obtain rfl : e = d := Option.some.inj hhead
      exact hmark ⟨[], t, rfl⟩
  have hblock := hnomark (d := '*') (by decide) h.comments.2
  have hcomment := hnomark (d := '/') (by decide) h.comments.1
  simp only [nextElement, hnewline, hnosplice, hblock, hcomment, hquote, hline,
    hopen, hclose, Bool.false_eq_true, and_false, if_false]

/-- An inert piece with paired quotes consists of verbatim elements, if something stands before
it on its line. -/
theorem exists_verbatim {l y : Text} (hquotes : PairedQuotes l) (hinert : Inert l)
    (hy : ∀ c ∈ y.head?, c = '\n') {line : List Element}
    (hline : line.all Element.isBlank = false) :
    ∃ es : List Element, (∀ e ∈ es, e.Verbatim) ∧ es.flatMap Element.source = l ∧
      segmentFrom line (l ++ y) = es ++ segmentFrom (es.foldl Element.follow line) y := by
  induction hquotes generalizing line with
  | nil => exact ⟨[], by simp, rfl, rfl⟩
  | @char c t hc _ ih =>
    have hfollow : (Element.follow line (.character c)).all Element.isBlank = false := by
      simp [Element.follow, hline]
    obtain ⟨es, hes, hsource, hcut⟩ := ih (hinert.of_suffix (List.suffix_cons c t)) hfollow
    refine ⟨.character c :: es, ?_, by rw [List.flatMap_cons, hsource]; rfl, ?_⟩
    · exact List.forall_mem_cons.mpr ⟨Element.verbatim_character c, hes⟩
    · rw [List.cons_append, segmentFrom, hinert.nextElement_eq hc hy hline]
      exact congrArg _ hcut
  | @pair q t hq _ ih =>
    have hfollow : (Element.follow line (.literal q [q])).all Element.isBlank = false := by
      simp [Element.follow, hline]
    have htail : t <:+ q :: q :: t := (List.suffix_cons q t).trans (List.suffix_cons q (q :: t))
    obtain ⟨es, hes, hsource, hcut⟩ := ih (hinert.of_suffix htail) hfollow
    refine ⟨.literal q [q] :: es, ?_, by rw [List.flatMap_cons, hsource]; rfl, ?_⟩
    · exact List.forall_mem_cons.mpr ⟨Element.verbatim_literal hq, hes⟩
    · rw [List.cons_append, List.cons_append, segmentFrom, nextElement_pair hq]
      exact congrArg _ hcut

/-! ### The scan of a plain line -/

/-- Outside braces, verbatim elements put their source on the line being built. -/
theorem Scan.foldl_verbatim {es : List Element} (hes : ∀ e ∈ es, e.Verbatim) {s : Scan}
    (hdepth : s.depth = 0) :
    (es.foldl absorb s).depth = 0 ∧
      (es.foldl absorb s).pending = (es.flatMap Element.source).reverse ++ s.pending ∧
      (es.foldl absorb s).parens = (es.flatMap Element.source).foldl countParen s.parens ∧
      (es.foldl absorb s).texts = s.texts := by
  induction es generalizing s with
  | nil => exact ⟨hdepth, rfl, rfl, rfl⟩
  | cons e es ih =>
    obtain ⟨he, hes⟩ := List.forall_mem_cons.mp hes
    obtain ⟨hdepth', hpending, hparens, htexts⟩ := absorb_within hdepth (he.stays s.parens)
    obtain ⟨hd, hp, hn, ht⟩ := ih hes (hdepth'.trans he.depth)
    refine ⟨hd, ?_, ?_, ht.trans htexts⟩
    · rw [List.foldl_cons, hp, hpending, he.shown, List.flatMap_cons, List.reverse_append,
        List.append_assoc]
    · rw [List.foldl_cons, hn, hparens, he.parens, List.flatMap_cons, List.foldl_append]

/-- Collapsing white space changes nothing if there are single spaces only. -/
theorem collapse_eq_self {t : Text} (hspaces : ∀ c ∈ t, isBlank c = true → c = ' ')
    (hsingle : ¬[' ', ' '] <:+: t) : Text.collapse t = t := by
  fun_induction Text.collapse t with
  | case1 => rfl
  | case2 c rest hblank hnext ih =>
    cases rest with
    | nil => simp at hnext
    | cons d rest =>
      have hc : c = ' ' := hspaces c List.mem_cons_self hblank
      have hd : d = ' ' := hspaces d (by simp) (by simpa using hnext)
      exact absurd ⟨[], rest, by rw [hc, hd]; rfl⟩ hsingle
  | case3 c rest hblank hnext ih =>
    have hc : c = ' ' := hspaces c List.mem_cons_self hblank
    rw [ih (fun d hd => hspaces d (List.mem_cons_of_mem c hd))
      fun h => hsingle (h.trans (List.suffix_cons c rest).isInfix), hc]
  | case4 c rest hblank ih =>
    rw [ih (fun d hd => hspaces d (List.mem_cons_of_mem c hd))
      fun h => hsingle (h.trans (List.suffix_cons c rest).isInfix)]

/-- Tidying a clean line changes nothing. -/
theorem Clean.tidy_singleton {l : Text} (h : Clean l) : tidy [l] = [l] := by
  have hsame : Text.collapse (Text.trim l) = l := by
    rw [h.trimmed.trim_eq, collapse_eq_self h.spaces h.single]
  simp [tidy, hsame, h.nonempty]

/-- A clean line holds no line feed. -/
theorem Clean.feed {l : Text} (h : Clean l) : '\n' ∉ l := fun hmem =>
  absurd (h.spaces '\n' hmem rfl) (by decide)

/-- A plain line begins with a character that is no white space and no hash sign. -/
theorem Plain.lead_append {l : Text} (h : Plain l) (y : Text) : (l ++ y).lead ≠ some '#' := by
  obtain ⟨c, rest, rfl⟩ := List.exists_cons_of_ne_nil h.nonempty
  have hblank : isBlank c = false := h.trimmed.first c rfl
  have hhash : c ≠ '#' := by simpa using h.hash
  simpa [Text.lead, hblank] using hhash

/-- The scan of a plain line comes to its end outside braces and with no parenthesis open, and
has built the line and nothing else. -/
theorem Plain.exists_place {l : Text} (h : Plain l) {y : Text} (hy : ∀ c ∈ y.head?, c = '\n') :
    ∃ s, (s, y) ∈ Scan.initial.course (l ++ y) ∧ s.depth = 0 ∧ s.parens = 0 ∧
      s.lines = [⟨1, l⟩] := by
  have hinert : Inert l := ⟨h.feed, h.braces, h.splice, h.comments⟩
  have hline : [Element.splice].all Element.isBlank = false := rfl
  obtain ⟨es, hes, hsource, hcut⟩ := exists_verbatim h.quotes hinert hy hline
  let s := es.foldl Scan.absorb .initial
  have houtside : Scan.initial.depth = 0 := rfl
  obtain ⟨hdepth, hpending, hparens, htexts⟩ := Scan.foldl_verbatim hes houtside
  have hplace : (s, y) ∈ Scan.initial.course (l ++ y) := by
    have hblank : Scan.initial.lineBlank = ([] : List Element).all Element.isBlank := rfl
    rw [Scan.mem_course_iff hblank, segmentFrom_eq_of_lead (h.lead_append y) [] [.splice]]
    exact ⟨es, _, hcut, rfl, flatMap_source_segmentFrom _ y⟩
  refine ⟨s, hplace, hdepth, by rw [hparens, hsource]; exact h.parens, ?_⟩
  have htext : s.lines.map Line.text = [l] := by
    rw [Scan.map_text_lines, Scan.texts_flush, htexts, hpending, hsource, ← h.tidy_singleton]
    simp [Scan.initial, Scan.texts]
  obtain ⟨line, hlines, rfl⟩ := List.map_eq_singleton_iff.mp htext
  -- The scan is still on the first source line.
  have hnumber : line.number = 1 := by
    have hmem : line.number ∈ s.begun := by
      rw [← Scan.map_number_lines (Scan.numbered_of_mem_course hplace), hlines]
      exact List.mem_singleton_self _
    have hordered := Scan.ordered_of_mem_course hplace
    have hcurrent := Scan.line_of_mem_course hplace
    have hcount : Text.newlines line.text = 0 := List.count_eq_zero.mpr h.feed
    have hpositive := hordered.positive _ hmem
    have hwithin := hordered.within _ hmem
    omega
  rw [hlines, ← hnumber]

/-- Lines that are plain are left as they are, each with its own number. -/
theorem strip_plain_lines {ls : List Text} (h : ∀ l ∈ ls, Plain l) :
    strip (['\n'].intercalate ls) = numberLines ls := by
  induction ls with
  | nil => exact strip_nil
  | cons l ls ih =>
    obtain ⟨hl, hls⟩ := List.forall_mem_cons.mp h
    cases ls with
    | nil =>
      have hend : ∀ c ∈ ([] : Text).head?, c = '\n' := nofun
      obtain ⟨s, hplace, -, -, hlines⟩ := hl.exists_place hend
      rw [List.append_nil] at hplace
      rw [List.intercalate_singleton, Scan.strip_of_mem_course hplace, Scan.run, hlines]
      rfl
    | cons l' ls =>
      let rest := ['\n'].intercalate (l' :: ls)
      have hend : ∀ c ∈ ('\n' :: rest).head?, c = '\n' := by simp
      obtain ⟨s, hplace, hdepth, hparens, hlines⟩ := hl.exists_place hend
      have hcount : Text.newlines l = 0 := List.count_eq_zero.mpr hl.feed
      calc strip (['\n'].intercalate (l :: l' :: ls))
          = strip (l ++ '\n' :: rest) := by
            rw [List.intercalate_cons_cons, List.append_assoc, List.singleton_append]
        _ = ⟨1, l⟩ :: (numberLines (l' :: ls)).map (Line.lower 1) := by
            rw [Scan.strip_of_place hplace hdepth hparens, hlines, hcount, ih hls]
            rfl
        _ = numberLines (l :: l' :: ls) := (numberLines_cons l (l' :: ls)).symm

/-- Plain lines with hash signs, empty literals behind backslashes, slashes and stars, closing
parentheses too many, and one line that is a literal. A line with a comment, one that splices and
one that leaves a parenthesis open are clean, but not plain. -/
theorem strip_lines_of_marks :
    let ls := ["f(g(), \"\") # '';".toList, "\\\"\"''\\ */ / * )(a))".toList, "''".toList]
    (∀ l ∈ ls, Plain l) ∧ strip (['\n'].intercalate ls) = numberLines ls ∧
      ∀ l ∈ ["a //", "a \\", "f(", "#f"], Clean l.toList ∧ ¬Plain l.toList := by
  intro ls
  have hplain : ∀ l ∈ ls, Plain l := by decide
  exact ⟨hplain, strip_plain_lines hplain, by decide⟩

end PrototypeGate

import PrototypeGate.Proofs.LineNumbers

/-!
# How far a directive reaches

A directive takes its own source line and leaves the rest of the source as it stands,
except if a block comment is open at the end of the line. The scan of a directive knows
block comments only. It finds their opening marks inside string literals and behind `//`
as well, where they open nothing for the scan of the source, and from there it takes
everything up to the next closing mark. This file says exactly which directives take no
more than their line.
-/

namespace PrototypeGate

/-- Whether a block comment is open after a text, if quotes and `//` have no meaning in
it. The flag tells whether one is open before the text. -/
def commentOpenAfter : Bool → Text → Bool
  | isOpen, [] => isOpen
  | true, '*' :: '/' :: rest => commentOpenAfter false rest
  | true, _ :: rest => commentOpenAfter true rest
  | false, '/' :: '*' :: rest => commentOpenAfter true rest
  | false, _ :: rest => commentOpenAfter false rest

/-- Whether the element is a block comment. -/
def Element.isComment : Element → Bool
  | comment _ => true
  | _ => false

/-- The text of a directive holds the opening marks of block comments only inside
literals and behind `//`. -/
def CommentsShielded (d : Text) : Prop :=
  ∀ e ∈ segmentFrom [.character '#'] d, e.isComment = false

instance (d : Text) : Decidable (CommentsShielded d) :=
  inferInstanceAs (Decidable (∀ e ∈ segmentFrom [.character '#'] d, e.isComment = false))

/-! ### The line of a directive -/

/-- What is not the last character of a text is not that of its rest. -/
theorem getLast?_rest_ne {c d : Char} {rest : Text}
    (h : (c :: rest).getLast? ≠ some d) : rest.getLast? ≠ some d := by
  intro hrest
  rw [List.getLast?_cons, hrest] at h
  exact h rfl

/-- A line in front of a line feed begins with any other character that is found first. -/
theorem exists_cons_of_append_newline {c : Char} {line rest more : Text}
    (h : line ++ '\n' :: rest = c :: more) (hc : c ≠ '\n') : ∃ after, line = c :: after := by
  cases line with
  | nil => exact absurd (List.cons.inj h).1.symm hc
  | cons d after => exact ⟨after, by rw [(List.cons.inj h).1]⟩

/-- A directive takes its whole line, and what stands behind the line as far as a comment
that is open at the end of the line makes it go. -/
theorem splitDirective_line {d : Text} (hline : '\n' ∉ d) (hsplice : d.getLast? ≠ some '\\')
    (isOpen : Bool) (rest : Text) :
    splitDirective isOpen (d ++ '\n' :: rest) =
      (splitDirective (commentOpenAfter isOpen d) ('\n' :: rest)).map (d ++ ·) id := by
  fun_induction commentOpenAfter isOpen d with
  | case1 isOpen => simp [Prod.map]
  | case2 after ih =>
    have hlast := getLast?_rest_ne (getLast?_rest_ne hsplice)
    rw [List.cons_append, List.cons_append, splitDirective, ih (by simp_all) hlast]
    simp [Prod.map]
  | case3 c after hopen ih =>
    rw [List.cons_append, splitDirective, ih (by simp_all) (getLast?_rest_ne hsplice)]
    · simp [Prod.map]
    · intro more hc hmore
      obtain ⟨tail, htail⟩ := exists_cons_of_append_newline hmore (by decide)
      exact hopen tail hc htail
  | case4 after ih =>
    have hlast := getLast?_rest_ne (getLast?_rest_ne hsplice)
    rw [List.cons_append, List.cons_append, splitDirective, ih (by simp_all) hlast]
    simp [Prod.map]
  | case5 c after hopen ih =>
    have hc : c ≠ '\n' := fun hc => hline (hc ▸ List.mem_cons_self)
    rw [List.cons_append, splitDirective, ih (by simp_all) (getLast?_rest_ne hsplice)]
    · simp [Prod.map]
    · -- A backslash before the line feed would be the last character of the line.
      rintro more rfl hmore
      cases after with
      | nil => exact hsplice rfl
      | cons e after =>
        obtain ⟨rfl, -⟩ := List.cons.inj hmore
        exact hline (by simp)
    · intro more hslash hmore
      obtain ⟨tail, htail⟩ := exists_cons_of_append_newline hmore (by decide)
      exact hopen tail hslash htail
    · exact hc

/-- A directive whose comments are closed on its line is one element, and the elements
behind its line are those of the rest of the source. -/
theorem segment_directive_line {d : Text} (hline : '\n' ∉ d) (hsplice : d.getLast? ≠ some '\\')
    (hclosed : commentOpenAfter false d = false) (rest : Text) :
    segment ('#' :: (d ++ '\n' :: rest)) = .directive d :: .newline :: segment rest := by
  have hsplit : splitDirective false (d ++ '\n' :: rest) = (d, '\n' :: rest) := by
    rw [splitDirective_line hline hsplice, hclosed, splitDirective]
    simp [Prod.map]
  have hdirective : nextElement [] '#' (d ++ '\n' :: rest) = (.directive d, '\n' :: rest) := by
    simp [nextElement, hsplit]
  have hnewline : nextElement [.directive d] '\n' rest = (.newline, rest) := by
    simp [nextElement]
  rw [segment, segmentFrom, hdirective]
  simp only [Element.follow, reduceCtorEq, if_false]
  rw [segmentFrom, hnewline]
  simp [Element.follow, segment]

/-- A directive whose comments are closed on its line leaves the rest of the source as it
stands, one line further down. -/
theorem strip_directive_line {d : Text} (hline : '\n' ∉ d) (hsplice : d.getLast? ≠ some '\\')
    (hclosed : commentOpenAfter false d = false) (rest : Text) :
    strip ('#' :: (d ++ '\n' :: rest)) = (strip rest).map (Line.lower 1) := by
  have hcount : Text.newlines d = 0 := List.count_eq_zero.mpr hline
  have hstart : (Scan.initial.absorb (.directive d)).absorb .newline = Scan.initial.lower 1 := by
    simp only [Scan.absorb, Scan.advance, hcount]
    rfl
  rw [strip_eq_foldl, strip_eq_foldl, segment_directive_line hline hsplice hclosed,
    List.foldl_cons, List.foldl_cons, hstart, Scan.foldl_absorb_lower, Scan.flush_lower,
    List.map_reverse]
  rfl

/-- A directive that leaves a comment open takes the rest of a source in which the comment
is not closed. -/
theorem strip_directive_open {d : Text} (hline : '\n' ∉ d) (hsplice : d.getLast? ≠ some '\\')
    (hopen : commentOpenAfter false d = true) {rest : Text}
    (hrest : (splitDirective true rest).2 = []) :
    strip ('#' :: (d ++ '\n' :: rest)) = [] := by
  have hsplit : (splitDirective false (d ++ '\n' :: rest)).2 = [] := by
    rw [splitDirective_line hline hsplice, hopen, splitDirective]
    · exact hrest
    · simp
  have hdirective : ∃ body, segment ('#' :: (d ++ '\n' :: rest)) = [.directive body] := by
    simp [segment, segmentFrom, nextElement, hsplit]
  obtain ⟨body, hbody⟩ := hdirective
  rw [strip_eq_foldl, hbody]
  rfl

/-- A directive takes no more than its line exactly if all comments that its marks open
are closed on the line: then the lines of the rest of the source come out as they do
without the directive, with numbers greater by one. -/
theorem strip_directive_line_iff {d : Text} (hline : '\n' ∉ d)
    (hsplice : d.getLast? ≠ some '\\') :
    (∀ rest, strip ('#' :: (d ++ '\n' :: rest)) = (strip rest).map (Line.lower 1)) ↔
      commentOpenAfter false d = false := by
  constructor
  · intro htakes
    cases hopen : commentOpenAfter false d with
    | false => rfl
    | true =>
      have hlost := strip_directive_open hline hsplice hopen
        (show (splitDirective true "int f(void);".toList).2 = [] from rfl)
      rw [htakes, List.map_eq_nil_iff] at hlost
      have hkept : strip "int f(void);".toList ≠ [] := by decide +kernel
      exact absurd hlost hkept
  · intro hclosed rest
    exact strip_directive_line hline hsplice hclosed rest

/-- A directive with a quote, a comment and a slash at its end takes its line only. -/
theorem strip_commented_directive_line :
    let d := "define A '\"' /* one */ 1 /".toList
    '\n' ∉ d ∧ d.getLast? ≠ some '\\' ∧ commentOpenAfter false d = false ∧
      ∀ rest, strip ('#' :: (d ++ '\n' :: rest)) = (strip rest).map (Line.lower 1) := by
  intro d
  have hline : '\n' ∉ d := by decide
  have hsplice : d.getLast? ≠ some '\\' := by decide
  have hclosed : commentOpenAfter false d = false := by decide
  exact ⟨hline, hsplice, hclosed, (strip_directive_line_iff hline hsplice).mpr hclosed⟩

/-- A directive with the opening mark of a comment in a string, or behind `//`, drops the
declaration on the next line. -/
theorem directives_taking_more_than_their_line :
    let quoted := "define OPEN \"/*\"".toList
    let behindSlashes := "define A 1 // see dir/*".toList
    let next := "int f(void);".toList
    strip next = [⟨1, next⟩] ∧
      ('\n' ∉ quoted ∧ quoted.getLast? ≠ some '\\' ∧ CommentsShielded quoted ∧
        strip ('#' :: (quoted ++ '\n' :: next)) = []) ∧
      '\n' ∉ behindSlashes ∧ behindSlashes.getLast? ≠ some '\\' ∧
        CommentsShielded behindSlashes ∧ strip ('#' :: (behindSlashes ++ '\n' :: next)) = [] := by
  decide +kernel

end PrototypeGate

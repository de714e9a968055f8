import Mathlib.Data.List.Basic
import PrototypeGate.Source.Scan

/-!
# The elements of a source

A source falls into elements: line feeds, splices, comments, literals, directives, braces
and single characters. Where an element ends depends on nothing but the text from its
first character on, except that a hash sign begins a directive only if nothing but white
space stands before it on its line. This file cuts a text into its elements and shows
that the scan of a text is a fold over them, so that everything a scan computes can be
proved by induction over the elements.
-/

namespace PrototypeGate

/-- An element of a source, with the text after its opening mark if it has one. -/
inductive Element where
  /-- A line feed. -/
  | newline
  /-- A backslash before a line feed. -/
  | splice
  /-- A block comment, with its closing mark if it has one. -/
  | comment (body : Text)
  /-- A comment up to the end of its line. -/
  | lineComment (body : Text)
  /-- A literal, with its closing quote if it has one. -/
  | literal (quote : Char) (body : Text)
  /-- A directive. -/
  | directive (body : Text)
  /-- An opening brace. -/
  | openBrace
  /-- A closing brace. -/
  | closeBrace
  /-- Any other character. -/
  | character (c : Char)
  deriving DecidableEq, Repr

namespace Element

/-- The text of an element in the source. -/
def source : Element → Text
  | newline => ['\n']
  | splice => ['\\', '\n']
  | comment body => '/' :: '*' :: body
  | lineComment body => '/' :: '/' :: body
  | literal quote body => quote :: body
  | directive body => '#' :: body
  | openBrace => ['{']
  | closeBrace => ['}']
  | character c => [c]

/-- Whether the element is a white-space character. -/
def isBlank : Element → Bool
  | character c => PrototypeGate.isBlank c
  | _ => false

end Element

/-- Number of characters up to the end of the first closing mark of a block comment. It
is more than the text has if there is none. -/
def closingLength (t : Text) : Nat :=
  t.tails.findIdx (['*', '/'].isPrefixOf ·) + 2

/-- The first element of a text, which begins with `c`, and the text after it. `line`
holds the elements that stand before it on its line. -/
def nextElement (line : List Element) (c : Char) (rest : Text) : Element × Text :=
  if c = '\n' then (.newline, rest)
  else if c = '\\' ∧ rest.head? = some '\n' then (.splice, rest.tail)
  else if c = '/' ∧ rest.head? = some '*' then
    (.comment (rest.tail.take (closingLength rest.tail)), rest.tail.drop (closingLength rest.tail))
  else if c = '/' ∧ rest.head? = some '/' then
    (.lineComment (rest.tail.takeWhile (· ≠ '\n')), rest.tail.dropWhile (· ≠ '\n'))
  else if c = '"' ∨ c = '\'' then
    (.literal c (Literal.split c rest).1, (Literal.split c rest).2)
  else if c = '#' ∧ line.all Element.isBlank then
    (.directive (splitDirective false rest).1, (splitDirective false rest).2)
  else if c = '{' then (.openBrace, rest)
  else if c = '}' then (.closeBrace, rest)
  else (.character c, rest)

/-- The elements on the current line after one more element, last one first. -/
def Element.follow (line : List Element) (e : Element) : List Element :=
  if e = .newline then [] else e :: line

/-- An element and the text after it make up the text it was taken from. -/
theorem source_nextElement (line : List Element) (c : Char) (rest : Text) :
    (nextElement line c rest).1.source ++ (nextElement line c rest).2 = c :: rest := by
  fun_cases nextElement line c rest with
  | case1 hnewline => simp [Element.source, hnewline]
  | case2 _ hsplice =>
    obtain ⟨rfl, hrest⟩ := hsplice
    obtain ⟨rest, rfl⟩ := List.head?_eq_some_iff.mp hrest
    rfl
  | case3 _ _ hcomment =>
    obtain ⟨rfl, hrest⟩ := hcomment
    obtain ⟨rest, rfl⟩ := List.head?_eq_some_iff.mp hrest
    simp [Element.source]
  | case4 _ _ _ hcomment =>
    obtain ⟨rfl, hrest⟩ := hcomment
    obtain ⟨rest, rfl⟩ := List.head?_eq_some_iff.mp hrest
    simp [Element.source, List.takeWhile_append_dropWhile]
  | case5 => simp [Element.source, Literal.split_append]
  | case6 _ _ _ _ _ hdirective => simp [Element.source, splitDirective_append, hdirective.1]
  | case7 => simp_all [Element.source]
  | case8 => simp_all [Element.source]
  | case9 => rfl

/-- Every element takes at least one character from the text. -/
theorem length_nextElement_lt (line : List Element) (c : Char) (rest : Text) :
    (nextElement line c rest).2.length < (c :: rest).length := by
  have hsource := congrArg List.length (source_nextElement line c rest)
  have hpos : 0 < (nextElement line c rest).1.source.length := by
    cases (nextElement line c rest).1 <;> simp [Element.source]
  rw [List.length_append] at hsource
  omega

/-- The elements of a text, given the elements before it on its first line. -/
def segmentFrom (line : List Element) : Text → List Element
  | [] => []
  | c :: rest =>
    let next := nextElement line c rest
    next.1 :: segmentFrom (next.1.follow line) next.2
termination_by t => t.length
decreasing_by exact length_nextElement_lt line c rest

/-- The elements of a source text. -/
def segment (t : Text) : List Element :=
  segmentFrom [] t

/-- The elements of a text make up the text. -/
theorem flatMap_source_segmentFrom (line : List Element) (t : Text) :
    (segmentFrom line t).flatMap Element.source = t := by
  fun_induction segmentFrom line t with
  | case1 => rfl
  | case2 line c rest next ih =>
    rw [List.flatMap_cons, ih]
    exact source_nextElement line c rest

/-! ### Scanning by elements -/

/-- A block comment is split off at the end of its first closing mark. -/
theorem splitComment_eq (t : Text) :
    splitComment t = (t.take (closingLength t), t.drop (closingLength t)) := by
  fun_induction splitComment t with
  | case1 => rfl
  | case2 rest => simp [closingLength, List.findIdx_cons]
  | case3 c rest hopen ih =>
    have hnot : ['*', '/'].isPrefixOf (c :: rest) = false := by
      rw [Bool.eq_false_iff]
      intro hclosing
      obtain ⟨after, hafter⟩ := List.isPrefixOf_iff_prefix.mp hclosing
      obtain ⟨rfl, rfl⟩ := List.cons.inj hafter
      exact hopen after rfl rfl
    have hlength : closingLength (c :: rest) = closingLength rest + 1 := by
      simp [closingLength, List.findIdx_cons, hnot]
    simp [ih, hlength, Prod.map]

namespace Scan

/-- What an element does to the scan. -/
def absorb (s : Scan) (e : Element) : Scan :=
  let seen := { s with lineBlank := s.lineBlank && e.isBlank }
  match e with
  | .newline => s.newline
  | .splice => (seen.advance 1).put [' ']
  | .comment body => (seen.advance body.newlines).put [' ']
  | .lineComment _ => seen
  | .literal quote body => (seen.advance body.newlines).put [quote, quote]
  | .directive body => seen.advance body.newlines
  | .openBrace => seen.openBrace
  | .closeBrace => seen.closeBrace
  | .character c => seen.character c

/-- A step of the scan takes the first element of the text and lets the scan absorb
it. -/
theorem step_eq_absorb {s : Scan} {line : List Element}
    (hblank : s.lineBlank = line.all Element.isBlank) (c : Char) (rest : Text) :
    s.step c rest = (s.absorb (nextElement line c rest).1, (nextElement line c rest).2) := by
  have hmark : ∀ mark ∈ ['\\', '/', '"', '\'', '#', '{', '}'],
      PrototypeGate.isBlank mark = false := by
    simp only [List.forall_mem_cons]
    exact ⟨rfl, rfl, rfl, rfl, rfl, rfl, rfl, nofun⟩
  unfold step
  dsimp only
  fun_cases nextElement line c rest with
  | case1 hnewline => rw [if_pos hnewline]; rfl
  | case2 hnewline hsplice =>
    rw [if_neg hnewline, if_pos hsplice, hmark c (by simp [hsplice])]
    rfl
  | case3 hnewline hsplice hcomment =>
    rw [if_neg hnewline, if_neg hsplice, if_pos hcomment, hmark c (by simp [hcomment]),
      splitComment_eq]
    rfl
  | case4 hnewline hsplice hblock hcomment =>
    obtain ⟨rest, rfl⟩ := List.head?_eq_some_iff.mp hcomment.2
    rw [if_neg hnewline, if_neg hsplice, if_neg hblock, if_pos hcomment,
      hmark c (by simp [hcomment])]
    rfl
  | case5 hnewline hsplice hblock hcomment hliteral =>
    rw [if_neg hnewline, if_neg hsplice, if_neg hblock, if_neg hcomment, if_pos hliteral,
      hmark c (by grind)]
    rfl
  | case6 hnewline hsplice hblock hcomment hliteral hdirective =>
    rw [← hblank] at hdirective
    rw [if_neg hnewline, if_neg hsplice, if_neg hblock, if_neg hcomment, if_neg hliteral,
      if_pos hdirective, hmark c (by simp [hdirective])]
    rfl
  | case7 hnewline hsplice hblock hcomment hliteral hdirective hopen =>
    rw [← hblank] at hdirective
    rw [if_neg hnewline, if_neg hsplice, if_neg hblock, if_neg hcomment, if_neg hliteral,
      if_neg hdirective, if_pos hopen, hmark c (by simp [hopen])]
    rfl
  | case8 hnewline hsplice hblock hcomment hliteral hdirective hopen hclose =>
    rw [← hblank] at hdirective
    rw [if_neg hnewline, if_neg hsplice, if_neg hblock, if_neg hcomment, if_neg hliteral,
      if_neg hdirective, if_neg hopen, if_pos hclose, hmark c (by simp [hclose])]
    rfl
  | case9 hnewline hsplice hblock hcomment hliteral hdirective hopen hclose =>
    rw [← hblank] at hdirective
    rw [if_neg hnewline, if_neg hsplice, if_neg hblock, if_neg hcomment, if_neg hliteral,
      if_neg hdirective, if_neg hopen, if_neg hclose]
    rfl

/-- Absorbing an element leaves the line blank exactly if all its elements are. -/
theorem lineBlank_absorb {s : Scan} {line : List Element}
    (hblank : s.lineBlank = line.all Element.isBlank) (e : Element) :
    (s.absorb e).lineBlank = (e.follow line).all Element.isBlank := by
  cases e <;>
    simp [absorb, Element.follow, newline, put, flush, advance, openBrace, closeBrace, character,
      Element.isBlank, hblank, apply_ite Scan.lineBlank, Bool.and_comm]

/-- Scanning a text absorbs its elements one after the other. -/
theorem run_eq_foldl {s : Scan} {line : List Element}
    (hblank : s.lineBlank = line.all Element.isBlank) (t : Text) :
    s.run t = (segmentFrom line t).foldl absorb s := by
  induction line, t using segmentFrom.induct generalizing s with
  | case1 => simp [run, segmentFrom]
  | case2 line c rest next =>
    rename_i ih
    rw [run, segmentFrom, step_eq_absorb hblank, List.foldl_cons]
    exact ih (lineBlank_absorb hblank next.1)

end Scan

end PrototypeGate

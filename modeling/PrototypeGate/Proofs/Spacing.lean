import PrototypeGate.Declaration.Classify
import PrototypeGate.Proofs.Beginnings

/-!
# Comments and line feeds as white space

A block comment does what a space does, and so does a line feed inside open parentheses,
except that they go over source lines. If one of them stands in the place of a space, the
stripped lines are the same, and those that begin behind it are further down by the line
feeds in it. A parameter list can therefore be wrapped at any number of its spaces.
-/

namespace PrototypeGate

/-- With this many parentheses open, the element does nothing but put a space. -/
structure Element.IsSpace (parens : Nat) (e : Element) : Prop where
  /-- The element ends no line. -/
  stays : e.ends parens = false
  /-- A space is left of the element. -/
  shown : e.shown = [' ']
  /-- The element opens and closes no brace. -/
  depth : ∀ depth, e.depthAfter depth = depth
  /-- The element opens and closes no parenthesis. -/
  parens : e.parensAfter parens = parens

/-- A space does, anywhere. -/
theorem Element.isSpace_space (parens : Nat) : (character ' ').IsSpace parens :=
  ⟨rfl, rfl, fun _ => rfl, rfl⟩

/-- A block comment does, anywhere. -/
theorem Element.isSpace_comment (parens : Nat) (body : Text) : (comment body).IsSpace parens :=
  ⟨rfl, rfl, fun _ => rfl, rfl⟩

/-- A line feed does inside parentheses, where it ends no line. -/
theorem Element.isSpace_newline {parens : Nat} (h : 0 < parens) : newline.IsSpace parens :=
  ⟨by simpa [ends] using h.ne', rfl, fun _ => rfl, rfl⟩

namespace Scan

variable {s : Scan}

/-- What an element does that puts a space. -/
theorem absorb_isSpace {e : Element} (hs : s.Numbered) (he : e.IsSpace s.parens) :
    (s.absorb e).depth = s.depth ∧ (s.absorb e).parens = s.parens ∧
      (s.absorb e).pending = (if s.depth = 0 then [' '] else []) ++ s.pending ∧
      (s.absorb e).texts = s.texts ∧ (s.absorb e).begun = s.begun := by
  have hbegun : (s.absorb e).begun = s.begun := by
    rw [begun_absorb hs, if_neg (not_begins (by rw [he.shown]; rfl)), List.append_nil]
  by_cases hdepth : s.depth = 0
  · obtain ⟨hd, hp, hn, ht⟩ := absorb_within hdepth he.stays
    rw [he.depth] at hd
    rw [he.shown] at hp
    rw [he.parens] at hn
    rw [if_pos hdepth]
    exact ⟨hd.trans hdepth.symm, hn, hp, ht, hbegun⟩
  · obtain ⟨hd, hp, hn, ht⟩ := absorb_inside (Nat.pos_of_ne_zero hdepth) e
    rw [he.depth] at hd
    rw [if_neg hdepth]
    exact ⟨hd, hn, hp, ht, hbegun⟩

/-- Behind two elements that put a space, the scans are as far apart as the elements go over
source lines. -/
theorem below_of_isSpace {e e' : Element} {k : Nat} (hs : s.Numbered) (he : e.IsSpace s.parens)
    (he' : e'.IsSpace s.parens) (hk : e'.lineFeeds = e.lineFeeds + k) :
    Below s.begun k (s.absorb e) (s.absorb e') := by
  obtain ⟨hd, hn, hp, ht, hb⟩ := absorb_isSpace hs he
  obtain ⟨hd', hn', hp', ht', hb'⟩ := absorb_isSpace hs he'
  have hline : (s.absorb e').line = (s.absorb e).line + k := by
    rw [line_absorb, line_absorb, hk]
    omega
  exact ⟨numbered_absorb hs e, numbered_absorb hs e', hline, by rw [hd, hd'], by rw [hn, hn'],
    by rw [hp, hp'], by rw [ht, ht'], [], by rw [hb]; simp, by rw [hb']; simp⟩

end Scan

/-- If an element that puts a space stands in the place of a space, the lines are the same, and
those that begin behind it are further down by the source lines that it goes over. -/
theorem strip_space_replaced {a b behind : Text} {c : Char} {e : Element} {s : Scan}
    (hplace : (s, ' ' :: b) ∈ Scan.initial.course (a ++ ' ' :: b))
    (hapart : Apart a (c :: behind)) (hfirst : ∀ line, nextElement line c behind = (e, b))
    (he : e.IsSpace s.parens) (hhash : b.lead ≠ some '#') :
    strip (a ++ c :: behind) =
      lowerFrom (strip a).length e.lineFeeds (strip (a ++ ' ' :: b)) := by
  have hplace' : (s, c :: behind) ∈ Scan.initial.course (a ++ c :: behind) :=
    Scan.mem_course_append_congr hplace (.inr ⟨by decide, hapart⟩)
  have hspace : s.run (' ' :: b) = (s.absorb (.character ' ')).run b :=
    s.run_cons fun line => nextElement_of_isBlank rfl (by decide) line b
  have hbelow : Scan.Below s.begun e.lineFeeds (s.absorb (.character ' ')) (s.absorb e) := by
    apply Scan.below_of_isSpace (Scan.numbered_of_mem_course hplace)
    · exact Element.isSpace_space s.parens
    · exact he
    · exact (Nat.zero_add _).symm
  rw [Scan.strip_of_mem_course hplace', Scan.strip_of_mem_course hplace, hspace,
    s.run_cons hfirst, ← Scan.length_begun hplace (by decide)]
  exact hbelow.lines_run (Or.inr hhash)

/-! ### Comments -/

/-- A comment ends at its closing mark if it holds none before. -/
theorem splitComment_closed {c : Text} (hc : ¬['*', '/'] <:+: c) (b : Text) :
    splitComment (c ++ '*' :: '/' :: b) = (c ++ ['*', '/'], b) := by
  induction c with
  | nil => rfl
  | cons d c ih =>
    have hrest : ¬['*', '/'] <:+: c := fun h => hc (h.trans (List.suffix_cons d c).isInfix)
    rw [List.cons_append, splitComment, ih hrest]
    · rfl
    · rintro more rfl hmore
      cases c with
      | nil => exact absurd (List.cons.inj hmore).1 (by decide)
      | cons e c =>
        obtain ⟨rfl, -⟩ := List.cons.inj hmore
        exact hc ⟨[], c, rfl⟩

/-- A block comment in the place of a space, wherever the space stands, gives the same lines.
Those that begin behind the comment are further down by the line feeds in it. -/
theorem strip_comment_for_space {a b c : Text} {s : Scan}
    (hplace : (s, ' ' :: b) ∈ Scan.initial.course (a ++ ' ' :: b))
    (hslash : a.getLast? ≠ some '/') (hclosing : ¬['*', '/'] <:+: c)
    (hhash : b.lead ≠ some '#') :
    strip (a ++ '/' :: '*' :: (c ++ '*' :: '/' :: b)) =
      lowerFrom (strip a).length c.newlines (strip (a ++ ' ' :: b)) := by
  have hapart : Apart a ('/' :: '*' :: (c ++ '*' :: '/' :: b)) :=
    ⟨fun _ => by simp, fun h => absurd h hslash⟩
  have hfirst (line : List Element) : nextElement line '/' ('*' :: (c ++ '*' :: '/' :: b)) =
      (.comment (c ++ ['*', '/']), b) := by
    have hsplit := splitComment_closed hclosing b
    rw [splitComment_eq, Prod.mk.injEq] at hsplit
    simp [nextElement, hsplit]
  have hfeeds : Element.lineFeeds (.comment (c ++ ['*', '/'])) = c.newlines := by
    simp [Element.lineFeeds, Text.newlines]
  rw [← hfeeds]
  exact strip_space_replaced hplace hapart hfirst (Element.isSpace_comment s.parens _) hhash

/-- A comment with a quote, a brace, a parenthesis and two line feeds, inside a parameter list:
the declaration around it keeps its number, and the next one is two lines further down. -/
theorem strip_comment_in_parameters :
    let a := "int f(int a,".toList
    let c := " \"\x7b\n// ' # (\n ".toList
    let b := "char b);\nint g(void);".toList
    (∃ s, (s, ' ' :: b) ∈ Scan.initial.course (a ++ ' ' :: b)) ∧ a.getLast? ≠ some '/' ∧
      ¬['*', '/'] <:+: c ∧ Text.lead b ≠ some '#' ∧
      strip (a ++ ' ' :: b) = [⟨1, "int f(int a, char b);".toList⟩, ⟨2, "int g(void);".toList⟩] ∧
      strip (a ++ '/' :: '*' :: (c ++ '*' :: '/' :: b)) =
        [⟨1, "int f(int a, char b);".toList⟩, ⟨4, "int g(void);".toList⟩] := by
  intro a c b
  let s : Scan := ⟨1, 0, 1, false, a.reverse, some 1, []⟩
  have hplace : (s, ' ' :: b) ∈ Scan.initial.course (a ++ ' ' :: b) := by decide +kernel
  have hslash : a.getLast? ≠ some '/' := by decide
  have hclosing : ¬['*', '/'] <:+: c := by decide
  have hhash : Text.lead b ≠ some '#' := by decide
  have hlines : strip (a ++ ' ' :: b) =
      [⟨1, "int f(int a, char b);".toList⟩, ⟨2, "int g(void);".toList⟩] := by decide +kernel
  have hfirst : (strip a).length = 1 := by decide +kernel
  refine ⟨⟨s, hplace⟩, hslash, hclosing, hhash, hlines, ?_⟩
  rw [strip_comment_for_space hplace hslash hclosing hhash, hlines, hfirst]
  decide

/-! ### Line feeds inside parentheses -/

namespace Scan

/-- The line being built shows a character if a parenthesis is open on it. -/
def ShowsParens (s : Scan) : Prop :=
  0 < s.parens → s.pending.all isBlank = false

/-- The parenthesis itself shows, and a line that is finished leaves none open. -/
theorem ShowsParens.absorb {s : Scan} (h : s.ShowsParens) (e : Element) :
    (s.absorb e).ShowsParens := by
  intro hparens
  by_cases hdepth : s.depth = 0
  · cases he : e.ends s.parens with
    | true =>
      obtain ⟨-, -, hnone, -⟩ := absorb_end hdepth he
      omega
    | false =>
      obtain ⟨-, hpending, hafter, -⟩ := absorb_within hdepth he
      rw [hpending, List.all_append, List.all_reverse]
      by_cases hopen : 0 < s.parens
      · rw [h hopen, Bool.and_false]
      · -- The element is the first parenthesis that opens on the line.
        have hzero : s.parens = 0 := by omega
        rw [hafter, hzero] at hparens
        cases e with
        | character c =>
          by_cases hc : c = '('
          · rw [hc]
            rfl
          · simp [Element.parensAfter, hc] at hparens
        | _ => simp [Element.parensAfter] at hparens
  · obtain ⟨-, hpending, hsame, -⟩ := absorb_inside (Nat.pos_of_ne_zero hdepth) e
    rw [hpending]
    exact h (hsame ▸ hparens)

/-- At every place of a source where a parenthesis is open, the line being built has begun. -/
theorem start_of_parens {s : Scan} {t rest : Text} (h : (s, rest) ∈ initial.course t)
    (hparens : 0 < s.parens) : s.start.isSome = true := by
  have hnumbered : s.start.isNone = s.pending.all isBlank := numbered_of_mem_course h
  have hshows : s.ShowsParens := by
    obtain ⟨above, rfl⟩ := exists_foldl_of_mem_course h
    have hinitial : initial.ShowsParens := nofun
    exact List.foldlRecOn above absorb hinitial fun s hs e _ => hs.absorb e
  rw [hshows hparens] at hnumbered
  rwa [Option.isNone_eq_false_iff] at hnumbered

end Scan

/-- The space between the two texts stands inside open parentheses and outside braces, and a
line feed can take its place: it would not be spliced, and no hash sign would come to stand at
the beginning of a source line. -/
structure CanWrap (a b : Text) : Prop where
  /-- The scan comes to the space, outside braces and inside open parentheses. -/
  place : ∃ s, (s, ' ' :: b) ∈ Scan.initial.course (a ++ ' ' :: b) ∧ s.depth = 0 ∧ 0 < s.parens
  /-- No backslash stands in front of the space. -/
  splice : a.getLast? ≠ some '\\'
  /-- No hash sign follows the space. -/
  hash : b.lead ≠ some '#'

/-- The second text is the first one, behind `a`, with line feeds for any number of spaces at
which the first one can be wrapped. -/
inductive Wraps : Text → Text → Text → Prop
  | nil (a : Text) : Wraps a [] []
  | keep {a x y : Text} (c : Char) : Wraps (a ++ [c]) x y → Wraps a (c :: x) (c :: y)
  | wrap {a x y : Text} : CanWrap a x → Wraps (a ++ [' ']) x y → Wraps a (' ' :: x) ('\n' :: y)

/-- A line feed in the place of a space at which a text can be wrapped gives the same lines.
Those that begin behind it are one line further down. -/
theorem strip_newline_for_space {a b : Text} (h : CanWrap a b) :
    strip (a ++ '\n' :: b) = lowerFrom (strip a).length 1 (strip (a ++ ' ' :: b)) := by
  obtain ⟨s, hplace, -, hparens⟩ := h.place
  have hapart : Apart a ('\n' :: b) := ⟨fun hlast => absurd hlast h.splice, fun _ => by simp⟩
  have hfirst (line : List Element) : nextElement line '\n' b = (.newline, b) := rfl
  exact strip_space_replaced hplace hapart hfirst (Element.isSpace_newline hparens) h.hash

/-- Wrapping a text does not change its first character that is not white space. -/
theorem Wraps.lead_eq {a x y : Text} (h : Wraps a x y) : y.lead = x.lead := by
  induction h with
  | nil => rfl
  | keep c _ ih =>
    cases hblank : isBlank c with
    | true => simpa [Text.lead, hblank] using ih
    | false => simp [Text.lead, hblank]
  | wrap _ _ ih =>
    have hspace : isBlank ' ' = true := rfl
    have hfeed : isBlank '\n' = true := rfl
    simpa [Text.lead, hspace, hfeed] using ih

/-- Wrapping a text does not change the texts of its lines. -/
theorem Wraps.map_text_strip {a x y : Text} (h : Wraps a x y) :
    (strip (a ++ y)).map Line.text = (strip (a ++ x)).map Line.text := by
  induction h with
  | nil => rfl
  | keep c _ ih => simpa using ih
  | @wrap a x y hwrap hrest ih =>
    have hwrap' : CanWrap a y := by
      obtain ⟨s, hplace, hs⟩ := hwrap.place
      have hapart : Apart a (' ' :: y) := ⟨fun _ => by simp, fun _ => by simp⟩
      have hplace' := Scan.mem_course_append_congr hplace (.inr ⟨by decide, hapart⟩)
      exact ⟨⟨s, hplace', hs⟩, hwrap.splice, hrest.lead_eq ▸ hwrap.hash⟩
    calc (strip (a ++ '\n' :: y)).map Line.text
        = (strip (a ++ ' ' :: y)).map Line.text := by
          rw [strip_newline_for_space hwrap', map_text_lowerFrom]
      _ = (strip (a ++ ' ' :: x)).map Line.text := by simpa using ih

/-- The text in front of the wrapped part may be longer. -/
theorem Wraps.append_left (p : Text) {a x y : Text} (h : Wraps (a ++ p) x y) :
    Wraps a (p ++ x) (p ++ y) := by
  induction p generalizing a with
  | nil => simpa using h
  | cons c p ih => exact Wraps.keep c (ih (by simpa using h))

/-- A line feed in the place of a space inside a parameter list gives the same lines. The line
that is wrapped has begun in front of the line feed and keeps its number as all lines before,
and those that begin behind the line feed are one line further down. Wrapping at any number of
such places does not change the texts of the lines. -/
theorem strip_wrapped_parameters {a b : Text} {s : Scan}
    (hplace : (s, ' ' :: b) ∈ Scan.initial.course (a ++ ' ' :: b)) (hdepth : s.depth = 0)
    (hparens : 0 < s.parens) (hsplice : a.getLast? ≠ some '\\') (hhash : b.lead ≠ some '#') :
    s.start.isSome = true ∧
      strip (a ++ '\n' :: b) = lowerFrom (strip a).length 1 (strip (a ++ ' ' :: b)) ∧
      ∀ t, Wraps [] (a ++ ' ' :: b) t →
        (strip t).map Line.text = (strip (a ++ ' ' :: b)).map Line.text := by
  have hwrap : CanWrap a b := ⟨⟨s, hplace, hdepth, hparens⟩, hsplice, hhash⟩
  exact ⟨Scan.start_of_parens hplace hparens, strip_newline_for_space hwrap,
    fun t ht => ht.map_text_strip⟩

/-- A prototype that is wrapped at two places inside its parameter list is the one of its header
on one line. The prototype behind it is further down by the line feeds. -/
theorem strip_twice_wrapped_parameters :
    let a := "char f(int a,".toList
    let b := "int b);\nint g(void);".toList
    let twice := "char f(int\na,\nint b);\nint g(void);".toList
    let h := "char f(int a, int b)".toList
    let g := "int g(void);".toList
    (∃ s, (s, ' ' :: b) ∈ Scan.initial.course (a ++ ' ' :: b) ∧ s.depth = 0 ∧ 0 < s.parens) ∧
      a.getLast? ≠ some '\\' ∧ Text.lead b ≠ some '#' ∧
      strip (a ++ ' ' :: b) = [⟨1, h ++ [';']⟩, ⟨2, g⟩] ∧
      strip (a ++ '\n' :: b) = [⟨1, h ++ [';']⟩, ⟨3, g⟩] ∧
      Wraps [] (a ++ ' ' :: b) twice ∧ (strip twice).map Line.text = [h ++ [';'], g] ∧
      classify [] (h ++ [';']) = some ⟨.prototype, h⟩ ∧ classify [] h = some ⟨.definition, h⟩ := by
  intro a b twice h g
  let front := "char f(int".toList
  let s : Scan := ⟨1, 0, 1, false, front.reverse, some 1, []⟩
  let s' : Scan := ⟨1, 0, 1, false, a.reverse, some 1, []⟩
  have hplace : (s, ' ' :: ("a, ".toList ++ b)) ∈
      Scan.initial.course (front ++ ' ' :: ("a, ".toList ++ b)) := by decide +kernel
  have hplace' : (s', ' ' :: b) ∈ Scan.initial.course (a ++ ' ' :: b) := by decide +kernel
  have hsplice : a.getLast? ≠ some '\\' := by decide
  have hhash : Text.lead b ≠ some '#' := by decide
  have hwraps : Wraps [] (a ++ ' ' :: b) twice := by
    apply Wraps.append_left front
    apply Wraps.wrap ⟨⟨s, hplace, rfl, by decide⟩, by decide, by decide⟩
    apply Wraps.append_left "a,".toList
    apply Wraps.wrap ⟨⟨s', hplace', rfl, by decide⟩, hsplice, hhash⟩
    apply Wraps.append_left b
    exact Wraps.nil _
  have hlines : strip (a ++ ' ' :: b) = [⟨1, h ++ [';']⟩, ⟨2, g⟩] := by decide +kernel
  have hfirst : (strip a).length = 1 := by decide +kernel
  obtain ⟨-, hwrapped, htexts⟩ :=
    strip_wrapped_parameters hplace' rfl (by decide) hsplice hhash
  rw [hlines, hfirst] at hwrapped
  refine ⟨⟨s', hplace', rfl, by decide⟩, hsplice, hhash, hlines, hwrapped, hwraps, ?_,
    by decide +kernel, by decide +kernel⟩
  rw [htexts twice hwraps, hlines]
  rfl

end PrototypeGate

import PrototypeGate.Proofs.Beginnings
import PrototypeGate.Proofs.Directive

/-!
# The last line feed of a source

Most sources end with a line feed, and some do not. This file shows that it makes no
difference, unless a backslash stands at the end. A line feed behind an element that ends a
source is read as one, and at the end of a source it adds nothing to a line. The exceptions are
a block comment that is not closed and a directive with such a comment: they take the line feed
in, but they show nothing with or without it.
-/

namespace PrototypeGate

/-! ### The element at the end of a source -/

/-- A comment that ends a source ends before a line feed behind it, or takes it in. -/
theorem splitComment_append_newline {t : Text} (h : (splitComment t).2 = []) :
    splitComment (t ++ ['\n']) = (t, ['\n']) ∨ splitComment (t ++ ['\n']) = (t ++ ['\n'], []) := by
  fun_induction splitComment t with
  | case1 => exact .inr rfl
  | case2 rest =>
    obtain rfl : rest = [] := h
    exact .inl rfl
  | case3 c rest hopen ih =>
    have hrest : splitComment (c :: (rest ++ ['\n'])) =
        (splitComment (rest ++ ['\n'])).map (c :: ·) id := by
      rw [splitComment]
      intro more hc hmore
      obtain ⟨tail, htail⟩ := exists_cons_of_append_newline hmore (by decide)
      exact hopen tail hc htail
    rw [List.cons_append, hrest]
    rcases ih h with hends | htakes
    · exact .inl (by rw [hends]; rfl)
    · exact .inr (by rw [htakes]; rfl)

/-- A literal that ends a source ends before a line feed behind it, if there is no backslash in
between. -/
theorem Literal.split_append_newline {quote : Char} (hquote : quote ≠ '\n') {t : Text}
    (h : (split quote t).2 = []) (hlast : t.getLast? ≠ some '\\') :
    split quote (t ++ ['\n']) = (t, ['\n']) := by
  fun_induction split quote t with
  | case1 => simp [split, hquote.symm]
  | case2 c hfeed => cases h
  | case3 c hfeed =>
    have hc : c ≠ '\\' := fun hc => hlast (by rw [hc]; rfl)
    by_cases hclosed : c = quote
    · subst hclosed
      simp [split, hc]
    · have hline : c ≠ '\n' := fun hline => hfeed ⟨hline, hclosed⟩
      simp [split, hc, hclosed, hline, hquote.symm, Prod.map]
  | case4 d rest ih =>
    have hrest := ih h (getLast?_rest_ne (getLast?_rest_ne hlast))
    simp [split, hrest, Prod.map]
  | case5 d rest hc => cases h
  | case6 d rest hc hopen => cases h
  | case7 c d rest hc hopen hline ih =>
    have hrest := ih h (getLast?_rest_ne hlast)
    rw [List.cons_append] at hrest
    simp [split, hc, hopen, hline, hrest, Prod.map]

/-- A directive that ends a source ends before a line feed behind it, or takes it in, if there is
no backslash in between. -/
theorem splitDirective_append_newline {isOpen : Bool} {t : Text}
    (h : (splitDirective isOpen t).2 = []) (hlast : t.getLast? ≠ some '\\') :
    splitDirective isOpen (t ++ ['\n']) = (t, ['\n']) ∨
      splitDirective isOpen (t ++ ['\n']) = (t ++ ['\n'], []) := by
  have hprepend (front : Text) {rest : Text} {isOpen isOpen' : Bool}
      (hrest : splitDirective isOpen' (rest ++ ['\n']) = (rest, ['\n']) ∨
        splitDirective isOpen' (rest ++ ['\n']) = (rest ++ ['\n'], []))
      (hfront : splitDirective isOpen (front ++ (rest ++ ['\n'])) =
        (splitDirective isOpen' (rest ++ ['\n'])).map (front ++ ·) id) :
      splitDirective isOpen (front ++ rest ++ ['\n']) = (front ++ rest, ['\n']) ∨
        splitDirective isOpen (front ++ rest ++ ['\n']) = (front ++ rest ++ ['\n'], []) := by
    rw [List.append_assoc, hfront]
    rcases hrest with hends | htakes
    · exact .inl (by rw [hends]; rfl)
    · exact .inr (by rw [htakes]; rfl)
  fun_induction splitDirective isOpen t with
  | case1 isOpen =>
    cases isOpen with
    | true => exact .inr rfl
    | false => exact .inl rfl
  | case2 rest ih =>
    exact hprepend ['*', '/'] (ih h (getLast?_rest_ne (getLast?_rest_ne hlast))) rfl
  | case3 c rest hopen ih =>
    refine hprepend [c] (ih h (getLast?_rest_ne hlast)) ?_
    rw [List.singleton_append, splitDirective]
    · rfl
    · intro more hc hmore
      obtain ⟨tail, htail⟩ := exists_cons_of_append_newline hmore (by decide)
      exact hopen tail hc htail
  | case4 rest ih =>
    exact hprepend ['\\', '\n'] (ih h (getLast?_rest_ne (getLast?_rest_ne hlast))) rfl
  | case5 rest ih =>
    exact hprepend ['/', '*'] (ih h (getLast?_rest_ne (getLast?_rest_ne hlast))) rfl
  | case6 rest => cases h
  | case7 c rest hsplice hopen hline ih =>
    refine hprepend [c] (ih h (getLast?_rest_ne hlast)) ?_
    rw [List.singleton_append, splitDirective]
    · rfl
    · -- A backslash before the line feed would be the last character of the source.
      rintro more rfl hmore
      cases rest with
      | nil => exact hlast rfl
      | cons d tail =>
        obtain ⟨rfl, -⟩ := List.cons.inj hmore
        exact hsplice tail rfl rfl
    · intro more hslash hmore
      obtain ⟨tail, htail⟩ := exists_cons_of_append_newline hmore (by decide)
      exact hopen tail hslash htail
    · exact hline

/-- An element that ends a source ends before a line feed behind it, if there is no backslash in
between. Otherwise it takes the line feed in, and only white space is left of it either way. -/
theorem nextElement_append_newline {line : List Element} {c : Char} {rest : Text} {e : Element}
    (h : nextElement line c rest = (e, [])) (hlast : (c :: rest).getLast? ≠ some '\\') :
    nextElement line c (rest ++ ['\n']) = (e, ['\n']) ∨
      ∃ e', nextElement line c (rest ++ ['\n']) = (e', []) ∧ e.shown.all isBlank = true ∧
        e'.shown.all isBlank = true := by
  have hrest : rest.getLast? ≠ some '\\' := getLast?_rest_ne hlast
  revert h
  fun_cases nextElement line c rest with
  | case1 hnewline =>
    rintro ⟨⟩
    exact .inl (by simp [nextElement, hnewline])
  | case2 hnewline hsplice =>
    intro h
    obtain ⟨rfl, hhead⟩ := hsplice
    obtain ⟨rest, rfl⟩ := List.head?_eq_some_iff.mp hhead
    obtain ⟨rfl, rfl⟩ := Prod.mk.inj h
    exact .inl (by simp [nextElement])
  | case3 hnewline hsplice hcomment =>
    intro h
    obtain ⟨rfl, hhead⟩ := hcomment
    obtain ⟨rest, rfl⟩ := List.head?_eq_some_iff.mp hhead
    obtain ⟨rfl, hleft⟩ := Prod.mk.inj h
    have hall : rest.take (closingLength rest) = rest := by
      have hcut := List.take_append_drop (closingLength rest) rest
      rwa [show rest.drop (closingLength rest) = [] from hleft, List.append_nil] at hcut
    have hends : (splitComment rest).2 = [] := by rwa [splitComment_eq]
    rcases splitComment_append_newline hends with hsplit | hsplit <;>
      simp only [splitComment_eq, Prod.mk.injEq] at hsplit
    · exact .inl (by simp [nextElement, hsplit, hall])
    · exact .inr ⟨.comment (rest ++ ['\n']), by simp [nextElement, hsplit], rfl, rfl⟩
  | case4 hnewline hsplice hblock hcomment =>
    intro h
    obtain ⟨rfl, hhead⟩ := hcomment
    obtain ⟨rest, rfl⟩ := List.head?_eq_some_iff.mp hhead
    obtain ⟨rfl, hleft⟩ := Prod.mk.inj h
    have hbody : ∀ d ∈ rest, decide (d ≠ '\n') = true := List.dropWhile_eq_nil_iff.mp hleft
    have hall : rest.takeWhile (· ≠ '\n') = rest := List.takeWhile_eq_self_iff.mpr hbody
    have hspan := span_append hbody (show ∀ d ∈ ['\n'].head?, decide (d ≠ '\n') = false by simp)
    have hnext : nextElement line '/' ('/' :: rest ++ ['\n']) =
        (.lineComment ((rest ++ ['\n']).takeWhile (· ≠ '\n')),
          (rest ++ ['\n']).dropWhile (· ≠ '\n')) := by
      simp [nextElement]
    exact .inl (by rw [hnext, hspan.1, hspan.2, List.tail_cons, hall])
  | case5 hnewline hsplice hblock hcomment hliteral =>
    intro h
    obtain ⟨rfl, hleft⟩ := Prod.mk.inj h
    have hall : (Literal.split c rest).1 = rest := by
      have hcut := Literal.split_append c rest
      rwa [hleft, List.append_nil] at hcut
    have hsplit := Literal.split_append_newline hnewline hleft hrest
    have hc : c ≠ '\\' ∧ c ≠ '/' := by
      rcases hliteral with rfl | rfl <;> decide
    exact .inl (by simp [nextElement, hsplit, hall, hnewline, hc, hliteral])
  | case6 hnewline hsplice hblock hcomment hliteral hdirective =>
    intro h
    obtain ⟨rfl, hline⟩ := hdirective
    obtain ⟨rfl, hleft⟩ := Prod.mk.inj h
    have hall : (splitDirective false rest).1 = rest := by
      have hcut := splitDirective_append false rest
      rwa [hleft, List.append_nil] at hcut
    rcases splitDirective_append_newline hleft hrest with hsplit | hsplit
    · exact .inl (by simp [nextElement, hsplit, hall, hline])
    · exact .inr ⟨.directive (rest ++ ['\n']), by simp [nextElement, hsplit, hline], rfl, rfl⟩
  | case7 hnewline hsplice hblock hcomment hliteral hdirective hopen =>
    rintro ⟨⟩
    exact .inl (by simp [nextElement, hopen])
  | case8 hnewline hsplice hblock hcomment hliteral hdirective hopen hclose =>
    rintro ⟨⟩
    exact .inl (by simp [nextElement, hclose])
  | case9 hnewline hsplice hblock hcomment hliteral hdirective hopen hclose =>
    rintro ⟨⟩
    have hc : c ≠ '\\' := fun hc => hlast (by rw [hc]; rfl)
    exact .inl (by simp only [nextElement, List.nil_append, List.head?_cons, Option.some.injEq,
      hnewline, hc, hliteral, hdirective, hopen, hclose, false_and, if_false, Char.reduceEq,
      and_false])

/-- A line feed behind a source is an element of its own, if there is no backslash in front of it,
or it belongs to the last element, of which only white space is left with or without it. -/
theorem segmentFrom_append_newline (line : List Element) {t : Text}
    (hlast : t.getLast? ≠ some '\\') :
    segmentFrom line (t ++ ['\n']) = segmentFrom line t ++ [.newline] ∨
      ∃ es e e', segmentFrom line t = es ++ [e] ∧ segmentFrom line (t ++ ['\n']) = es ++ [e'] ∧
        e.shown.all isBlank = true ∧ e'.shown.all isBlank = true := by
  have hfeed (line : List Element) : segmentFrom line ['\n'] = [.newline] := by
    simp [segmentFrom, nextElement]
  induction line, t using segmentFrom.induct with
  | case1 line => exact .inl (by rw [List.nil_append, hfeed, segmentFrom, List.nil_append])
  | case2 line c rest next =>
    rename_i ih
    cases hleft : next.2 with
    | nil =>
      have hnext : nextElement line c rest = (next.1, []) := Prod.ext rfl hleft
      rw [List.cons_append, segmentFrom, segmentFrom, hnext]
      rcases nextElement_append_newline hnext hlast with hends | ⟨e', htakes, hblank, hblank'⟩
      · exact .inl (by simp [hends, hfeed, segmentFrom])
      · exact .inr ⟨[], next.1, e', by simp [segmentFrom], by simp [htakes, segmentFrom],
          hblank, hblank'⟩
    | cons d left =>
      have hnext : nextElement line c rest = (next.1, d :: left) := Prod.ext rfl hleft
      obtain ⟨p, hsource, hcut⟩ := nextElement_append_congr (y := d :: left ++ ['\n']) hnext
        (List.cons_ne_nil d left) (.inl rfl)
      have hall : c :: rest = (c :: p) ++ d :: left := by
        have hsplit := source_nextElement line c rest
        rwa [hnext, hsource, eq_comm] at hsplit
      have hlater : (d :: left).getLast? ≠ some '\\' := by
        rwa [hall, List.getLast?_append_of_ne_nil _ (List.cons_ne_nil d left)] at hlast
      have hbehind : rest ++ ['\n'] = p ++ (d :: left ++ ['\n']) := by
        have hrest : rest = p ++ d :: left := (List.cons.inj hall).2
        rw [hrest, List.append_assoc]
      have hthis : segmentFrom line (c :: rest) =
          next.1 :: segmentFrom (next.1.follow line) (d :: left) := by
        rw [segmentFrom, hnext]
      have hthis' : segmentFrom line (c :: rest ++ ['\n']) =
          next.1 :: segmentFrom (next.1.follow line) (d :: left ++ ['\n']) := by
        rw [List.cons_append, hbehind, segmentFrom, hcut]
      rw [hleft] at ih
      rw [hthis, hthis']
      rcases ih hlater with hfollows | ⟨es, e, e', hes, hes', hblank, hblank'⟩
      · exact .inl (by rw [hfollows, List.cons_append])
      · exact .inr ⟨next.1 :: es, e, e', by rw [hes, List.cons_append],
          by rw [hes', List.cons_append], hblank, hblank'⟩

/-! ### The line at the end of a source -/

/-- An element of which only white space is left changes no line at the end of a source. -/
theorem Scan.lines_absorb_of_blank {s : Scan} (hs : s.Numbered) {e : Element}
    (hblank : e.shown.all isBlank = true) : (s.absorb e).lines = s.lines := by
  apply lines_ext
  · rw [map_number_lines (numbered_absorb hs e), map_number_lines hs, begun_absorb hs,
      if_neg (not_begins hblank), List.append_nil]
  · rw [map_text_lines, map_text_lines, texts_flush, texts_flush]
    by_cases hdepth : s.depth = 0
    · cases he : e.ends s.parens with
      | true =>
        obtain ⟨-, hpending, -, htexts⟩ := absorb_end hdepth he
        have hempty : tidy [[]] = [] := rfl
        rw [hpending, htexts, List.reverse_nil, hempty, List.append_nil]
      | false =>
        obtain ⟨-, hpending, -, htexts⟩ := absorb_within hdepth he
        have htrim : Text.trim (s.pending.reverse ++ e.shown) = Text.trim s.pending.reverse :=
          trim_append_blanks _ (List.all_eq_true.mp hblank)
        rw [hpending, htexts, List.reverse_append, List.reverse_reverse, tidy, List.map_singleton,
          htrim, tidy, List.map_singleton]
    · obtain ⟨-, hpending, -, htexts⟩ := absorb_inside (Nat.pos_of_ne_zero hdepth) e
      rw [hpending, htexts]

/-- The stripped lines of a source are the same with a line feed behind it, if it does not end
with a backslash: whatever the scan is in the middle of at the end, a comment, a literal, a
directive, a body or a list of parameters. -/
theorem strip_append_newline {t : Text} (hlast : t.getLast? ≠ some '\\') :
    strip (t ++ ['\n']) = strip t := by
  have hlines (t : Text) : strip t = ((segment t).foldl Scan.absorb .initial).lines :=
    strip_eq_foldl t
  have hnumbered (es : List Element) : (es.foldl Scan.absorb .initial).Numbered :=
    Scan.numbered_foldl (show Scan.initial.Numbered from rfl) es
  rw [hlines, hlines]
  rcases segmentFrom_append_newline [] hlast with hends | ⟨es, e, e', hes, hes', hblank, hblank'⟩
  · rw [segment, hends, List.foldl_append, List.foldl_cons, List.foldl_nil]
    have hblank : Element.newline.shown.all isBlank = true := by decide
    exact Scan.lines_absorb_of_blank (hnumbered _) hblank
  · rw [segment, segment, hes, hes', List.foldl_append, List.foldl_append]
    simp only [List.foldl_cons, List.foldl_nil]
    exact (Scan.lines_absorb_of_blank (hnumbered es) hblank').trans
      (Scan.lines_absorb_of_blank (hnumbered es) hblank).symm

/-- A source that ends in a comment in a list of parameters. Behind a backslash the line feed
matters. -/
theorem strip_newline_behind_open_comment :
    let t := "int f(int a, /* *".toList
    t.getLast? ≠ some '\\' ∧ strip (t ++ ['\n']) = strip t ∧
      strip t = [⟨1, "int f(int a,".toList⟩] ∧
      strip ("int f\\".toList ++ ['\n']) ≠ strip "int f\\".toList := by
  intro t
  have hlast : t.getLast? ≠ some '\\' := by decide
  exact ⟨hlast, strip_append_newline hlast, by decide +kernel, by decide +kernel⟩

end PrototypeGate

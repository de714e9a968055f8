import PrototypeGate.Proofs.HashLines
import PrototypeGate.Proofs.HeaderReading

/-!
# What stands behind an element

An element of a source is found by looking at the text from its first character on, without
a bound. This file shows how little of the text behind the element has a say. A comment and
a literal that are closed end where they are closed, a directive and a line comment end at a
line feed, and a single character looks one character ahead, since it may be the first half
of a mark. The elements of the beginning of a text are therefore found in every other text
with the same beginning, unless a mark begins in one part and ends in the other.
-/

namespace PrototypeGate

/-- No mark of two characters begins at the end of the first text and ends in the second. -/
structure Apart (a x : Text) : Prop where
  /-- A backslash does not come to stand before a line feed. -/
  splice : a.getLast? = some '\\' → x.head? ≠ some '\n'
  /-- A slash does not come to stand before a slash or a star. -/
  comment : a.getLast? = some '/' → x.head? ≠ some '/' ∧ x.head? ≠ some '*'

/-- What is apart from a text is apart from its last part. -/
theorem Apart.of_append_left {b x : Text} (front : Text) (h : Apart (front ++ b) x) :
    Apart b x := by
  by_cases hb : b = []
  · subst hb
    exact ⟨nofun, nofun⟩
  · have hlast : (front ++ b).getLast? = b.getLast? := List.getLast?_append_of_ne_nil front hb
    exact ⟨fun h' => h.splice (hlast.trans h'), fun h' => h.comment (hlast.trans h')⟩

/-! ### Comments, literals and directives -/

/-- Of two texts with the same beginning, the first characters are the same if the beginning
is not empty or what stands behind begins alike. -/
theorem head?_append_congr {a x y : Text} (h : a = [] → x.head? = y.head?) :
    (a ++ x).head? = (a ++ y).head? := by
  cases a with
  | nil => exact h rfl
  | cons c a => rfl

/-- A comment takes something from every text. -/
theorem fst_splitComment_ne_nil {t : Text} (ht : t ≠ []) : (splitComment t).1 ≠ [] := by
  fun_cases splitComment t <;> simp_all

/-- A comment that ends in a text ends at the same place whatever stands behind it. -/
theorem splitComment_append_congr {t : Text} (hends : (splitComment t).2 ≠ []) (rest : Text) :
    splitComment ((splitComment t).1 ++ rest) = ((splitComment t).1, rest) := by
  fun_induction splitComment t with
  | case1 => exact absurd rfl hends
  | case2 after => rfl
  | case3 c after hopen ih =>
    have hne : after ≠ [] := by
      rintro rfl
      exact hends rfl
    have hhead : ((splitComment after).1 ++ rest).head? = after.head? := by
      conv_rhs => rw [← splitComment_append after]
      exact head?_append_congr fun h => absurd h (fst_splitComment_ne_nil hne)
    change splitComment (c :: ((splitComment after).1 ++ rest)) = _
    rw [splitComment, ih hends]
    · rfl
    · intro more hc hmore
      rw [hmore] at hhead
      obtain ⟨tail, htail⟩ := List.head?_eq_some_iff.mp hhead.symm
      exact hopen tail hc htail

/-- A literal that ends in a text ends at the same place whatever stands behind it, if a line
feed does where one has ended it. -/
theorem Literal.split_append_congr {quote : Char} {t rest : Text}
    (hends : (split quote t).2 ≠ [])
    (hfeed : (split quote t).2.head? = some '\n' → rest.head? = some '\n') :
    split quote ((split quote t).1 ++ rest) = ((split quote t).1, rest) := by
  fun_induction split quote t with
  | case1 => exact absurd rfl hends
  | case2 c h =>
    obtain ⟨more, rfl⟩ := List.head?_eq_some_iff.mp (hfeed (by simp [h.1]))
    obtain ⟨rfl, hquote⟩ := h
    cases more <;> simp [split, hquote]
  | case3 c h => exact absurd rfl hends
  | case4 d after ih =>
    have hrest := ih hends hfeed
    change split quote ('\\' :: d :: ((split quote after).1 ++ rest)) = _
    simp [split, hrest, Prod.map]
  | case5 d after hc =>
    cases rest <;> simp [split, hc]
  | case6 d after hc hquote =>
    obtain ⟨more, rfl⟩ := List.head?_eq_some_iff.mp (hfeed rfl)
    cases more <;> simp [split, hquote]
  | case7 c d after hc hquote hnewline ih =>
    have hrest := ih hends hfeed
    change split quote (c :: ((split quote (d :: after)).1 ++ rest)) = (c :: _, rest)
    cases hmore : (split quote (d :: after)).1 ++ rest with
    | nil =>
      obtain ⟨hnil, rfl⟩ := List.append_eq_nil_iff.mp hmore
      simp [split, hnil, hnewline]
    | cons e more =>
      rw [hmore] at hrest
      simp [split, hc, hquote, hnewline, hrest, Prod.map]

/-- A directive that ends in a text ends at the same place in front of any other line feed. -/
theorem splitDirective_append_congr {isOpen : Bool} {t rest : Text}
    (hends : (splitDirective isOpen t).2 ≠ []) (hfeed : rest.head? = some '\n') :
    splitDirective isOpen ((splitDirective isOpen t).1 ++ rest) =
      ((splitDirective isOpen t).1, rest) := by
  have hhead (isOpen : Bool) (after : Text) (hends : (splitDirective isOpen after).2 ≠ []) :
      ((splitDirective isOpen after).1 ++ rest).head? = after.head? := by
    obtain ⟨c, more, hmore⟩ := List.exists_cons_of_ne_nil hends
    have hc : c = '\n' := head?_splitDirective isOpen after c (by simp [hmore])
    conv_rhs => rw [← splitDirective_append isOpen after]
    exact head?_append_congr fun _ => by simp [hfeed, hmore, hc]
  fun_induction splitDirective isOpen t with
  | case1 => exact absurd rfl hends
  | case2 after ih =>
    change splitDirective true ('*' :: '/' :: ((splitDirective false after).1 ++ rest)) = _
    simp [splitDirective, ih hends, Prod.map]
  | case3 c after hopen ih =>
    change splitDirective true (c :: ((splitDirective true after).1 ++ rest)) = _
    rw [splitDirective, ih hends]
    · rfl
    · intro more hc hmore
      have hfirst := hhead true after hends
      rw [hmore] at hfirst
      obtain ⟨tail, htail⟩ := List.head?_eq_some_iff.mp hfirst.symm
      exact hopen tail hc htail
  | case4 after ih =>
    change splitDirective false ('\\' :: '\n' :: ((splitDirective false after).1 ++ rest)) = _
    simp [splitDirective, ih hends, Prod.map]
  | case5 after ih =>
    change splitDirective false ('/' :: '*' :: ((splitDirective true after).1 ++ rest)) = _
    simp [splitDirective, ih hends, Prod.map]
  | case6 after =>
    obtain ⟨more, rfl⟩ := List.head?_eq_some_iff.mp hfeed
    simp [splitDirective]
  | case7 c after hsplice hopen hnewline ih =>
    have hfirst := hhead false after hends
    have hnot (d : Char) (hd : ∀ more, after = d :: more → False) (more : Text)
        (hmore : (splitDirective false after).1 ++ rest = d :: more) : False := by
      rw [hmore] at hfirst
      obtain ⟨tail, htail⟩ := List.head?_eq_some_iff.mp hfirst.symm
      exact hd tail htail
    change splitDirective false (c :: ((splitDirective false after).1 ++ rest)) = _
    rw [splitDirective, ih hends]
    · rfl
    · exact fun more hc => hnot '\n' (fun tail => hsplice tail hc) more
    · exact fun more hc => hnot '*' (fun tail => hopen tail hc) more
    · exact hnewline

/-! ### Elements -/

/-- An element that does not take the whole text is found in front of any text that begins
alike. It is also found in front of another text if it was not ended by a line feed and no
mark begins in it and ends behind it. -/
theorem nextElement_append_congr {line : List Element} {c : Char} {after x y : Text} {e : Element}
    (h : nextElement line c after = (e, x)) (hx : x ≠ [])
    (hnext : y.head? = x.head? ∨ x.head? ≠ some '\n' ∧ Apart e.source y) :
    ∃ p, e.source = c :: p ∧ nextElement line c (p ++ y) = (e, y) := by
  have hfeed (hnewline : x.head? = some '\n') : y.head? = some '\n' := by
    rcases hnext with hsame | ⟨hother, -⟩
    · rw [hsame, hnewline]
    · exact absurd hnewline hother
  have hends (hline : e.endsSourceLine = true) : y.head? = some '\n' := by
    obtain ⟨d, more, rfl⟩ := List.exists_cons_of_ne_nil hx
    have hd : d = '\n' :=
      head?_nextElement_of_endsSourceLine (by rw [h]; exact hline) d (by rw [h]; rfl)
    exact hfeed (by rw [hd]; rfl)
  revert h
  fun_cases nextElement line c after with
  | case1 hnewline =>
    rintro ⟨⟩
    exact ⟨[], by simp [Element.source, hnewline], by simp [nextElement, hnewline]⟩
  | case2 hnewline hsplice =>
    rintro ⟨⟩
    exact ⟨['\n'], by simp [Element.source, hsplice], by simp [nextElement, hsplice]⟩
  | case3 hnewline hsplice hcomment =>
    obtain ⟨rfl, hafter⟩ := hcomment
    obtain ⟨after, rfl⟩ := List.head?_eq_some_iff.mp hafter
    intro h
    obtain ⟨rfl, rfl⟩ := Prod.mk.inj h
    have hclosed : (splitComment after).2 ≠ [] := by rwa [splitComment_eq]
    have hsplit := splitComment_append_congr hclosed y
    simp only [splitComment_eq, Prod.mk.injEq] at hsplit
    exact ⟨'*' :: after.take (closingLength after), rfl, by simp [nextElement, hsplit]⟩
  | case4 hnewline hsplice hblock hcomment =>
    obtain ⟨rfl, hafter⟩ := hcomment
    obtain ⟨after, rfl⟩ := List.head?_eq_some_iff.mp hafter
    rintro ⟨⟩
    have hbody : ∀ d ∈ after.takeWhile (· ≠ '\n'), decide (d ≠ '\n') = true := by
      intro d hd
      simpa using List.mem_takeWhile_imp hd
    have hbehind : ∀ d ∈ y.head?, decide (d ≠ '\n') = false := by simp [hends rfl]
    have hspan := span_append hbody hbehind
    exact ⟨'/' :: after.takeWhile (· ≠ '\n'), rfl, by simp [nextElement] at hspan ⊢; exact hspan⟩
  | case5 hnewline hsplice hblock hcomment hliteral =>
    rintro ⟨⟩
    have hsplit := Literal.split_append_congr hx hfeed
    refine ⟨(Literal.split c after).1, rfl, ?_⟩
    have hc : c ≠ '\n' ∧ c ≠ '\\' ∧ c ≠ '/' := by
      rcases hliteral with rfl | rfl <;> decide
    simp [nextElement, hsplit, hc, hliteral]
  | case6 hnewline hsplice hblock hcomment hliteral hdirective =>
    obtain ⟨rfl, hline⟩ := hdirective
    rintro ⟨⟩
    have hsplit := splitDirective_append_congr hx (hends rfl)
    exact ⟨(splitDirective false after).1, rfl, by simp [nextElement, hsplit, hline]⟩
  | case7 hnewline hsplice hblock hcomment hliteral hdirective hopen =>
    rintro ⟨⟩
    exact ⟨[], by simp [Element.source, hopen], by simp [nextElement, hopen]⟩
  | case8 hnewline hsplice hblock hcomment hliteral hdirective hopen hclose =>
    rintro ⟨⟩
    exact ⟨[], by simp [Element.source, hclose], by simp [nextElement, hclose]⟩
  | case9 hnewline hsplice hblock hcomment hliteral hdirective hopen hclose =>
    rintro ⟨⟩
    have hmarks : ¬(c = '\\' ∧ y.head? = some '\n') ∧ ¬(c = '/' ∧ y.head? = some '*') ∧
        ¬(c = '/' ∧ y.head? = some '/') := by
      rcases hnext with hsame | ⟨-, hapart⟩
      · rw [hsame]
        exact ⟨hsplice, hblock, hcomment⟩
      · refine ⟨?_, ?_, ?_⟩
        · rintro ⟨rfl, hy⟩
          exact hapart.splice rfl hy
        · rintro ⟨rfl, hy⟩
          exact (hapart.comment rfl).2 hy
        · rintro ⟨rfl, hy⟩
          exact (hapart.comment rfl).1 hy
    exact ⟨[], rfl, by simp only [nextElement, List.nil_append, hnewline, hmarks, hliteral,
      hdirective, hopen, hclose, if_false]⟩

/-- The elements of the beginning of a text are those of the same beginning of another text, if
both texts go on with the same character, or if the first one does not go on with a line feed and
no mark begins in the beginning and ends in what the other one goes on with. -/
theorem segmentFrom_append_congr {line es below : List Element} {a x y : Text} {d : Char}
    (h : segmentFrom line (a ++ d :: x) = es ++ below) (ha : es.flatMap Element.source = a)
    (hnext : y.head? = some d ∨ d ≠ '\n' ∧ Apart a y) :
    segmentFrom line (a ++ y) = es ++ segmentFrom (es.foldl Element.follow line) y := by
  induction es generalizing line a with
  | nil =>
    obtain rfl : [] = a := ha
    rfl
  | cons e es ih =>
    obtain rfl : e.source ++ es.flatMap Element.source = a := ha
    generalize hbehind : es.flatMap Element.source = behind at h hnext ⊢
    cases ht : e.source ++ behind ++ d :: x with
    | nil => simp [ht, segmentFrom] at h
    | cons c after =>
      rw [ht, segmentFrom, List.cons_append, List.cons.injEq] at h
      obtain ⟨hfirst, hlater⟩ := h
      have hleft : (nextElement line c after).2 = behind ++ d :: x := by
        have hsource := source_nextElement line c after
        rw [← ht, List.append_assoc, hfirst] at hsource
        exact List.append_cancel_left hsource
      rw [hfirst, hleft] at hlater
      have hbeyond : (behind ++ y).head? = (behind ++ d :: x).head? ∨
          (behind ++ d :: x).head? ≠ some '\n' ∧ Apart e.source (behind ++ y) := by
        cases behind with
        | nil =>
          rw [List.append_nil] at hnext
          exact hnext.imp_right (And.imp_left fun hd => by simpa using hd)
        | cons b behind => exact Or.inl rfl
      obtain ⟨p, hp, hfound⟩ := nextElement_append_congr (Prod.ext hfirst hleft) (by simp) hbeyond
      have hlast : y.head? = some d ∨ d ≠ '\n' ∧ Apart behind y :=
        hnext.imp_right (And.imp_right fun hapart => hapart.of_append_left e.source)
      have hrest := ih hlater hbehind hlast
      rw [hp, List.append_assoc, List.cons_append, segmentFrom, hfound]
      simp only [hrest, List.foldl_cons, List.cons_append]

end PrototypeGate

import PrototypeGate.Proofs.Origins

/-!
# Clean lines

A stripped line is clean whatever its source looks like. It shows a character, its white
space are single spaces inside, no brace stands in it, and nothing is left of a literal but
its two quotes. The scan lets no brace and no lone quote through, and trimming and collapsing
take care of the white space without tearing quotes apart. The numbers of the lines never
decrease and stay within the source, since a line gets the number of the source line that the
scan has come to.
-/

namespace PrototypeGate

/-- The character begins a literal. -/
def IsQuote (c : Char) : Prop :=
  c = '"' ∨ c = '\''

instance (c : Char) : Decidable (IsQuote c) :=
  inferInstanceAs (Decidable (_ ∨ _))

/-- Read from the left, the text consists of characters that are no quotes and of pairs of
equal quotes. -/
inductive PairedQuotes : Text → Prop where
  | nil : PairedQuotes []
  | char {c : Char} {t : Text} : ¬IsQuote c → PairedQuotes t → PairedQuotes (c :: t)
  | pair {q : Char} {t : Text} : IsQuote q → PairedQuotes t → PairedQuotes (q :: q :: t)

/-- The text of a line that holds nothing but the words and marks of a declaration. -/
structure Clean (text : Text) : Prop where
  /-- Something is on the line. -/
  nonempty : text ≠ []
  /-- No white space stands at the ends. -/
  trimmed : Trimmed text
  /-- The only white space are spaces. -/
  spaces : ∀ c ∈ text, isBlank c = true → c = ' '
  /-- No two spaces stand side by side. -/
  single : ¬[' ', ' '] <:+: text
  /-- No brace stands on the line. -/
  braces : '{' ∉ text ∧ '}' ∉ text
  /-- Literals are empty, and no quote stands alone. -/
  quotes : PairedQuotes text

/-! ### Quotes -/

/-- A quote is no white space. -/
theorem isBlank_of_isQuote {c : Char} (hc : IsQuote c) : isBlank c = false := by
  rcases hc with rfl | rfl <;> rfl

namespace PairedQuotes

variable {t u : Text}

/-- In front of other characters, quotes do not matter. -/
theorem cons_iff {c : Char} (hc : ¬IsQuote c) : PairedQuotes (c :: t) ↔ PairedQuotes t := by
  constructor
  · intro h
    cases h with
    | char _ ht => exact ht
    | pair hq _ => exact absurd hq hc
  · exact .char hc

/-- A quote must be followed by an equal one. -/
theorem quote_cons_iff {q d : Char} (hq : IsQuote q) :
    PairedQuotes (q :: d :: t) ↔ d = q ∧ PairedQuotes t := by
  constructor
  · intro h
    cases h with
    | char hc _ => exact absurd hq hc
    | pair _ ht => exact ⟨rfl, ht⟩
  · rintro ⟨rfl, ht⟩
    exact .pair hq ht

/-- Quotes are checked from left to right. -/
instance decidable : (t : Text) → Decidable (PairedQuotes t)
  | [] => isTrue .nil
  | [c] =>
    if hc : IsQuote c then
      isFalse fun h => by
        cases h
        contradiction
    else isTrue (.char hc .nil)
  | c :: d :: t =>
    if hc : IsQuote c then
      have := decidable t
      decidable_of_iff (d = c ∧ PairedQuotes t) (quote_cons_iff hc).symm
    else
      have := decidable (d :: t)
      decidable_of_iff (PairedQuotes (d :: t)) (cons_iff hc).symm

/-- Texts with paired quotes can be put one behind the other. -/
theorem append (ht : PairedQuotes t) (hu : PairedQuotes u) : PairedQuotes (t ++ u) := by
  induction ht with
  | nil => exact hu
  | char hc _ ih => exact .char hc ih
  | pair hq _ ih => exact .pair hq ih

/-- Any number of texts with paired quotes can be put one behind the other. -/
theorem flatMap {α : Type} {f : α → Text} {xs : List α} (h : ∀ x ∈ xs, PairedQuotes (f x)) :
    PairedQuotes (xs.flatMap f) := by
  induction xs with
  | nil => exact .nil
  | cons x xs ih =>
    rw [List.flatMap_cons]
    exact (h x List.mem_cons_self).append (ih fun y hy => h y (List.mem_cons_of_mem x hy))

/-- Quotes are paired from the right if they are from the left. -/
theorem reverse (h : PairedQuotes t) : PairedQuotes t.reverse := by
  induction h with
  | nil => exact .nil
  | char hc _ ih =>
    rw [List.reverse_cons]
    exact ih.append (.char hc .nil)
  | pair hq _ ih =>
    rw [List.reverse_cons, List.reverse_cons, List.append_assoc]
    exact ih.append (.pair hq .nil)

/-- Quotes stay paired when the white space in front is dropped. -/
theorem dropWhile_isBlank (h : PairedQuotes t) : PairedQuotes (t.dropWhile isBlank) := by
  induction h with
  | nil => exact .nil
  | char hc ht ih =>
    rw [List.dropWhile_cons]
    split
    · exact ih
    · exact .char hc ht
  | pair hq ht _ =>
    rw [List.dropWhile_cons_of_neg (by simp [isBlank_of_isQuote hq])]
    exact .pair hq ht

/-- Quotes stay paired when a text is trimmed. -/
theorem trim (h : PairedQuotes t) : PairedQuotes (Text.trim t) :=
  h.dropWhile_isBlank.reverse.dropWhile_isBlank.reverse

/-- Quotes stay paired when white space is collapsed. -/
theorem collapse (h : PairedQuotes t) : PairedQuotes (Text.collapse t) := by
  induction h with
  | nil => exact .nil
  | char hc _ ih =>
    rw [Text.collapse]
    split_ifs
    · exact ih
    · exact .char (by decide) ih
    · exact .char hc ih
  | pair hq _ ih =>
    simp only [Text.collapse, isBlank_of_isQuote hq, Bool.false_eq_true, if_false]
    exact .pair hq ih

end PairedQuotes

instance (text : Text) : Decidable (Clean text) :=
  have : Decidable (∀ c ∈ text, isBlank c = true → c = ' ') := List.decidableBAll _ _
  decidable_of_iff (_ ∧ _ ∧ _ ∧ _ ∧ _ ∧ _)
    ⟨fun ⟨hnonempty, htrimmed, hspaces, hsingle, hbraces, hquotes⟩ =>
      ⟨hnonempty, htrimmed, hspaces, hsingle, hbraces, hquotes⟩,
    fun h => ⟨h.nonempty, h.trimmed, h.spaces, h.single, h.braces, h.quotes⟩⟩

/-! ### What elements show -/

/-- A character element of a source is neither a quote nor a brace. -/
theorem character_of_mem_segment {t : Text} {c : Char} (h : .character c ∈ segment t) :
    ¬IsQuote c ∧ c ≠ '{' ∧ c ≠ '}' := by
  obtain ⟨above, below, hcut⟩ := List.append_of_mem h
  obtain ⟨d, rest, hd⟩ := segmentFrom_eq_append_cons hcut
  unfold nextElement at hd
  split_ifs at hd with hnewline hsplice hblock hline hquote hdirective hopen hclose
  all_goals cases hd
  exact ⟨hquote, hopen, hclose⟩

/-- An element of a source shows no brace, and quotes in pairs. -/
theorem shown_of_mem_segment {t : Text} {e : Element} (h : e ∈ segment t) :
    PairedQuotes e.shown ∧ '{' ∉ e.shown ∧ '}' ∉ e.shown := by
  cases e with
  | character c =>
    obtain ⟨hquote, hopen, hclose⟩ := character_of_mem_segment h
    exact ⟨.char hquote .nil, by simpa [Element.shown] using hopen.symm,
      by simpa [Element.shown] using hclose.symm⟩
  | literal quote body =>
    have hquote : IsQuote quote := quote_of_mem_segment h
    refine ⟨.pair hquote .nil, ?_⟩
    rcases hquote with rfl | rfl <;> simp [Element.shown]
  | newline | splice | comment | lineComment | directive | openBrace | closeBrace =>
    dsimp only [Element.shown]
    decide

/-! ### Stripped lines -/

/-- Where white space is collapsed, no two spaces stand side by side. -/
theorem not_spaces_infix_collapse (t : Text) : ¬[' ', ' '] <:+: Text.collapse t := by
  fun_induction Text.collapse t with
  | case1 => simp
  | case2 c rest hblank hnext ih => exact ih
  | case3 c rest hblank hnext ih =>
    rw [List.infix_cons_iff]
    rintro (hfront | hlater)
    · -- The next character would be blank, too.
      obtain ⟨more, hmore⟩ := (List.cons_prefix_cons.mp hfront).2
      have hfirst := head?_collapse rest
      rw [← hmore] at hfirst
      obtain ⟨d, hd, hspace⟩ := Option.map_eq_some_iff.mp hfirst.symm
      rw [hd] at hnext
      have hd : isBlank d = false := by simpa using hnext
      rw [collapseChar, hd] at hspace
      rw [show d = ' ' from hspace] at hd
      exact absurd hd (by decide)
    · exact ih hlater
  | case4 c rest hblank ih =>
    rw [List.infix_cons_iff]
    rintro (hfront | hlater)
    · obtain ⟨rfl, -⟩ := List.cons_prefix_cons.mp hfront
      exact hblank (by decide)
    · exact ih hlater

/-- A character that is no white space stands in a text after trimming and collapsing only if
it does before. -/
theorem mem_of_mem_collapse_trim {c : Char} {t : Text} (hblank : isBlank c = false)
    (h : c ∈ Text.collapse (Text.trim t)) : c ∈ t := by
  have hcollapse (u : Text) (hu : c ∈ Text.collapse u) : c ∈ u := by
    fun_induction Text.collapse u with
    | case1 => exact hu
    | case2 d rest _ _ ih => exact List.mem_cons_of_mem d (ih hu)
    | case3 d rest _ _ ih =>
      rcases List.mem_cons.mp hu with rfl | hrest
      · exact absurd hblank (by decide)
      · exact List.mem_cons_of_mem d (ih hrest)
    | case4 d rest _ ih =>
      rcases List.mem_cons.mp hu with rfl | hrest
      · exact List.mem_cons_self
      · exact List.mem_cons_of_mem d (ih hrest)
  have hdrop (u : Text) (hu : c ∈ u.dropWhile isBlank) : c ∈ u :=
    (List.dropWhile_sublist isBlank).mem hu
  have htrim := hcollapse _ h
  rw [Text.trim, Text.trimRight, List.mem_reverse] at htrim
  exact hdrop t (List.mem_reverse.mp (hdrop _ htrim))

/-- Stripped lines are clean. -/
theorem clean_of_mem_strip {t : Text} {line : Line} (hline : line ∈ strip t) :
    Clean line.text := by
  obtain ⟨raw, hraw, htext, hne⟩ := exists_located_of_mem_strip hline
  have hquotes : PairedQuotes (raw.flatMap fun p => p.element.shown) :=
    PairedQuotes.flatMap fun p hp => (shown_of_mem_segment (hraw p hp)).1
  have hopen : '{' ∉ raw.flatMap fun p => p.element.shown := by
    rw [List.mem_flatMap]
    rintro ⟨p, hp, hmem⟩
    exact (shown_of_mem_segment (hraw p hp)).2.1 hmem
  have hclose : '}' ∉ raw.flatMap fun p => p.element.shown := by
    rw [List.mem_flatMap]
    rintro ⟨p, hp, hmem⟩
    exact (shown_of_mem_segment (hraw p hp)).2.2 hmem
  rw [← htext]
  exact
    { nonempty := htext ▸ hne
      trimmed := (trimmed_trim _).collapse
      spaces := fun c hc hblank => eq_space_of_mem_collapse hc hblank
      single := not_spaces_infix_collapse _
      braces := ⟨fun h => hopen (mem_of_mem_collapse_trim (by decide) h),
        fun h => hclose (mem_of_mem_collapse_trim (by decide) h)⟩
      quotes := hquotes.trim.collapse }

/-! ### Line numbers -/

namespace Scan

/-- The numbers of the lines that have begun do not decrease, and none lies outside the part of
the source that the scan has gone over. -/
structure Ordered (s : Scan) : Prop where
  /-- A later line has no smaller number. -/
  sorted : s.begun.Pairwise (· ≤ ·)
  /-- Numbers begin with one. -/
  positive : ∀ n ∈ s.begun, 1 ≤ n
  /-- No line has begun below the current source line. -/
  within : ∀ n ∈ s.begun, n ≤ s.line
  /-- The source lines are counted from one, too. -/
  line_positive : 1 ≤ s.line

variable {s : Scan}

/-- An element keeps the order: the line that it may begin gets the current number. -/
theorem Ordered.absorb (h : s.Ordered) (hs : s.Numbered) (e : Element) : (s.absorb e).Ordered := by
  have hline := line_absorb s e
  have hlater : ∀ n ∈ s.begun, n ≤ s.line + e.lineFeeds := fun n hn =>
    (h.within n hn).trans (Nat.le_add_right _ _)
  have hpositive : 1 ≤ s.line + e.lineFeeds := h.line_positive.trans (Nat.le_add_right _ _)
  have hbegun := begun_absorb hs e
  split_ifs at hbegun
  · refine ⟨?_, ?_, ?_, hline ▸ hpositive⟩
    · rw [hbegun, List.pairwise_append]
      exact ⟨h.sorted, List.pairwise_singleton _ _, by simpa using hlater⟩
    · rw [hbegun, List.forall_mem_append]
      exact ⟨h.positive, by simpa using hpositive⟩
    · rw [hbegun, hline, List.forall_mem_append]
      exact ⟨hlater, by simp⟩
  · rw [List.append_nil] at hbegun
    exact ⟨hbegun ▸ h.sorted, hbegun ▸ h.positive, hline ▸ hbegun ▸ hlater, hline ▸ hpositive⟩

/-- Scanning keeps the order. -/
theorem Ordered.foldl (h : s.Ordered) (hs : s.Numbered) (es : List Element) :
    (es.foldl Scan.absorb s).Ordered := by
  induction es generalizing s with
  | nil => exact h
  | cons e es ih => exact ih (h.absorb hs e) (numbered_absorb hs e)

/-- Before the first character no line has begun. -/
theorem ordered_initial : initial.Ordered :=
  ⟨List.Pairwise.nil, nofun, nofun, Nat.le_refl 1⟩

/-- At every place of a source the lines that have begun are in order. -/
theorem ordered_of_mem_course {t rest : Text} (h : (s, rest) ∈ initial.course t) : s.Ordered := by
  obtain ⟨above, rfl⟩ := exists_foldl_of_mem_course h
  exact ordered_initial.foldl rfl above

end Scan

/-- Every stripped line is clean. The numbers of the lines do not decrease, and each is the
number of a line of the source. -/
theorem strip_clean (t : Text) :
    (∀ line ∈ strip t, Clean line.text ∧ 1 ≤ line.number ∧ line.number ≤ 1 + t.newlines) ∧
      ((strip t).map Line.number).Pairwise (· ≤ ·) := by
  let s := (segment t).foldl Scan.absorb .initial
  have hinitial : Scan.initial.Numbered := rfl
  have hs : s.Numbered := Scan.numbered_foldl hinitial _
  have hordered : s.Ordered := Scan.ordered_initial.foldl rfl _
  have hnumbers : (strip t).map Line.number = s.begun := by
    rw [strip_eq_foldl, ← Scan.map_number_lines hs]
    rfl
  have hline : s.line = 1 + t.newlines := by
    have hcut : segmentFrom [] t = segment t ++ [] := (List.append_nil _).symm
    rw [Scan.line_foldl, sum_lineFeeds hcut, segment, flatMap_source_segmentFrom]
    rfl
  constructor
  · intro line hmem
    have hnumber : line.number ∈ s.begun := hnumbers ▸ List.mem_map_of_mem hmem
    exact ⟨clean_of_mem_strip hmem, hordered.positive _ hnumber,
      hline ▸ hordered.within _ hnumber⟩
  · rw [hnumbers]
    exact hordered.sorted

/-- A source with stray braces, white space of several kinds, an escaped quote, a literal over a
line feed, two that are not closed, and a brace that is not closed, has three clean lines. -/
theorem clean_lines_of_malformed_source :
    let t := "\x7d\u2003int\t c = 'a\\'b'\x7d\n f(\"\x7b\\\n\" ,'x\n)\x7b ' \n \x7d\\\n\"".toList
    let c := "int c = ''".toList
    let f := "f(\"\" ,'' )".toList
    let last := "\"\"".toList
    strip t = [⟨1, c⟩, ⟨2, f⟩, ⟨6, last⟩] ∧ Clean c ∧ Clean f ∧ Clean last ∧
      6 ≤ 1 + Text.newlines t ∧ [1, 2, 6].Pairwise (· ≤ ·) ∧
      ¬Clean "c = '".toList ∧ ¬Clean "c  = ''".toList := by
  intro t c f last
  have hlines : strip t = [⟨1, c⟩, ⟨2, f⟩, ⟨6, last⟩] := by decide +kernel
  obtain ⟨hclean, hsorted⟩ := strip_clean t
  rw [hlines] at hclean hsorted
  obtain ⟨hlast, -, hwithin⟩ := hclean ⟨6, last⟩ (by simp)
  exact ⟨hlines, (hclean ⟨1, c⟩ (by simp)).1, (hclean ⟨2, f⟩ (by simp)).1, hlast, hwithin,
    hsorted, by decide, by decide⟩

end PrototypeGate

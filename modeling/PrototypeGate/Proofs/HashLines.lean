import Mathlib.Data.List.Induction
import Mathlib.Data.List.TakeWhile
import PrototypeGate.Proofs.LineNumbers
import PrototypeGate.Proofs.Location

/-!
# Lines that begin with a hash sign

Markers and content share one stream, and a marker is told by the hash sign it begins
with. A hash sign that stands first on its source line begins a directive and is dropped
with it. This file says which hash signs are left in front of a stripped line: those
before which only elements stand that the stripped line does not show, among them a
comment, a splice or a closing brace. In a source without such a hash sign no content is
read as a marker, and content moves the position of the reader on by one line.
-/

namespace PrototypeGate

/-- The first character of a text that is not white space. -/
def Text.lead (t : Text) : Option Char :=
  t.find? fun c => !isBlank c

namespace Element

/-- Whether the element takes up its source line without showing on the stripped one. -/
def vanishes : Element → Bool
  | splice => true
  | comment _ => true
  | closeBrace => true
  | _ => false

/-- Whether the element takes all that is left of its source line. -/
def endsSourceLine : Element → Bool
  | lineComment _ => true
  | directive _ => true
  | _ => false

end Element

/-- Outside braces, nothing but white space is on the line being built. -/
def Scan.AtLineStart (s : Scan) : Prop :=
  s.depth = 0 ∧ ∀ c ∈ s.pending, isBlank c = true

/-- A hash sign that begins no directive stands where a stripped line starts. -/
def HashExposed (t : Text) : Prop :=
  ∃ above below, segment t = above ++ .character '#' :: below ∧
    (above.foldl Scan.absorb .initial).AtLineStart

/-! ### The first character of a stripped line -/

/-- What trimming leaves in front is the first character that is not white space. -/
theorem head?_trim (t : Text) : (Text.trim t).head? = t.lead := by
  have hlead : t.lead = (Text.trimLeft t).head? := List.find?_not_eq_head?_dropWhile isBlank t
  have hfirst : ∀ c ∈ (Text.trimLeft t).head?, isBlank c = false := by
    intro c hc
    have := List.head?_dropWhile_not isBlank t
    rw [Option.mem_def, Text.trimLeft] at hc
    simpa [hc] using this
  rw [hlead, Text.trim, Text.trimRight]
  cases hleft : Text.trimLeft t with
  | nil => rfl
  | cons c rest =>
    have hc : isBlank c = false := hfirst c (by rw [hleft]; rfl)
    rw [List.reverse_cons, List.dropWhile_append]
    split <;> simp [hc]

/-- A stripped line begins with the first character of its raw text that is not white
space. -/
theorem head?_collapse_trim (t : Text) : (Text.collapse (Text.trim t)).head? = t.lead := by
  rw [head?_collapse, head?_trim, Text.lead]
  cases hlead : t.find? fun c => !isBlank c with
  | none => rfl
  | some c =>
    have hc : isBlank c = false := by simpa using List.find?_some hlead
    simp [collapseChar, hc]

/-- A tidied line begins with a hash sign exactly if its raw text leads with one. -/
theorem exists_mem_tidy_singleton_iff (raw : Text) :
    (∃ text ∈ tidy [raw], text.head? = some '#') ↔ raw.lead = some '#' := by
  rw [← head?_collapse_trim raw]
  simp only [tidy, List.map_cons, List.map_nil, List.mem_filter, List.mem_singleton,
    decide_eq_true_eq]
  constructor
  · rintro ⟨_, ⟨rfl, -⟩, hhash⟩
    exact hhash
  · intro hhash
    exact ⟨_, ⟨rfl, fun hnil => by simp [hnil] at hhash⟩, hhash⟩

namespace Scan

/-- A finished line, or the line being built, begins with a hash sign. -/
def ShowsHash (s : Scan) : Prop :=
  (∃ text ∈ s.texts, text.head? = some '#') ∨ Text.lead s.pending.reverse = some '#'

/-- An element puts a hash sign in front of a line exactly if it shows one where a line
starts. -/
theorem showsHash_absorb_iff (s : Scan) (e : Element) :
    (s.absorb e).ShowsHash ↔
      s.ShowsHash ∨ s.AtLineStart ∧ Text.lead e.shown = some '#' := by
  by_cases hdepth : s.depth = 0
  · cases he : e.ends s.parens with
    | true =>
      obtain ⟨-, hpending, -, htexts⟩ := absorb_end hdepth he
      have hshown : Text.lead e.shown = none := by
        cases e <;> first | rfl | simp [Element.ends] at he
      simp only [ShowsHash, hpending, htexts, List.mem_append, or_and_right, exists_or,
        exists_mem_tidy_singleton_iff, hshown]
      simp [Text.lead]
    | false =>
      obtain ⟨-, hpending, -, htexts⟩ := absorb_within hdepth he
      have hlead : Text.lead (s.absorb e).pending.reverse =
          (Text.lead s.pending.reverse).or (Text.lead e.shown) := by
        rw [hpending, List.reverse_append, List.reverse_reverse]
        exact List.find?_append
      have hstart : s.AtLineStart ↔ Text.lead s.pending.reverse = none := by
        simp [AtLineStart, hdepth, Text.lead]
      rw [ShowsHash, ShowsHash, hlead, htexts, hstart, Option.or_eq_some_iff, or_assoc]
  · obtain ⟨-, hpending, -, htexts⟩ := absorb_inside (Nat.pos_of_ne_zero hdepth) e
    simp [ShowsHash, AtLineStart, hpending, htexts, hdepth]

/-- Elements put a hash sign in front of a line exactly if one of them shows it where a
line starts. -/
theorem showsHash_foldl_iff (s : Scan) (es : List Element) :
    (es.foldl absorb s).ShowsHash ↔ s.ShowsHash ∨
      ∃ above e below, es = above ++ e :: below ∧ (above.foldl absorb s).AtLineStart ∧
        Text.lead e.shown = some '#' := by
  induction es generalizing s with
  | nil => simp
  | cons e es ih =>
    rw [List.foldl_cons, ih, showsHash_absorb_iff, or_assoc]
    refine or_congr_right ?_
    constructor
    · rintro (⟨hstart, hhash⟩ | ⟨above, e', below, rfl, hstart, hhash⟩)
      · exact ⟨[], e, es, rfl, hstart, hhash⟩
      · exact ⟨e :: above, e', below, rfl, hstart, hhash⟩
    · rintro ⟨_ | ⟨first, above⟩, e', below, hes, hstart, hhash⟩
      · obtain ⟨rfl, rfl⟩ := List.cons.inj hes
        exact Or.inl ⟨hstart, hhash⟩
      · obtain ⟨rfl, rfl⟩ := List.cons.inj hes
        exact Or.inr ⟨above, e', below, rfl, hstart, hhash⟩

end Scan

/-! ### The elements of a source line -/

/-- Every element of a text is the first one of what is left of the text behind the
elements before it. -/
theorem segmentFrom_eq_append_cons {line above below : List Element} {e : Element} {t : Text}
    (h : segmentFrom line t = above ++ e :: below) :
    ∃ c rest, e = (nextElement (above.foldl Element.follow line) c rest).1 := by
  induction above generalizing line t with
  | nil =>
    cases t with
    | nil => simp [segmentFrom] at h
    | cons c rest =>
      rw [segmentFrom] at h
      exact ⟨c, rest, (List.cons.inj h).1.symm⟩
  | cons first above ih =>
    cases t with
    | nil => simp [segmentFrom] at h
    | cons c rest =>
      rw [segmentFrom] at h
      obtain ⟨rfl, hrest⟩ := List.cons.inj h
      exact ih hrest

/-- A literal of a source begins with one of the two quotes. -/
theorem quote_of_mem_segment {t : Text} {quote : Char} {body : Text}
    (h : .literal quote body ∈ segment t) : quote = '"' ∨ quote = '\'' := by
  obtain ⟨above, below, hcut⟩ := List.append_of_mem h
  obtain ⟨c, rest, hc⟩ := segmentFrom_eq_append_cons hcut
  unfold nextElement at hc
  split_ifs at hc with hnewline hsplice hcomment hline hquote
  all_goals cases hc
  exact hquote

/-- A hash sign that begins no directive has something before it on its source line that is
not white space. -/
theorem exists_not_isBlank_before_hash {above below : List Element} {t : Text}
    (h : segment t = above ++ .character '#' :: below) :
    ∃ e ∈ above.foldl Element.follow [], e.isBlank = false := by
  obtain ⟨c, rest, hc⟩ := segmentFrom_eq_append_cons h
  by_contra hnone
  have hblank : (above.foldl Element.follow []).all Element.isBlank = true := by
    simpa using hnone
  unfold nextElement at hc
  split_ifs at hc
  all_goals cases hc
  simp_all

/-- What follows a directive is empty or begins with a line feed. -/
theorem head?_splitDirective (isOpen : Bool) (t : Text) :
    ∀ c ∈ (splitDirective isOpen t).2.head?, c = '\n' := by
  fun_induction splitDirective isOpen t <;> simp_all

/-- What follows an element that ends its source line is empty or begins with a line
feed. -/
theorem head?_nextElement_of_endsSourceLine {line : List Element} {c : Char} {rest : Text}
    (h : (nextElement line c rest).1.endsSourceLine = true) :
    ∀ d ∈ (nextElement line c rest).2.head?, d = '\n' := by
  revert h
  fun_cases nextElement line c rest with
  | case4 =>
    intro _ d hd
    have hstop := List.head?_dropWhile_not (· ≠ '\n') rest.tail
    rw [Option.mem_def] at hd
    simp only [hd] at hstop
    simpa using hstop
  | case6 => exact fun _ => head?_splitDirective false rest
  | case1 | case2 | case3 | case5 | case7 | case8 | case9 =>
    intro hends
    cases hends

/-- Before an element that is no line feed, no element of its source line ends the line. -/
theorem not_endsSourceLine_before {line above below : List Element} {e : Element} {t : Text}
    (hline : (∀ x ∈ line, x.endsSourceLine = false) ∨ ∀ d ∈ t.head?, d = '\n')
    (h : segmentFrom line t = above ++ e :: below) (he : e ≠ .newline) :
    ∀ x ∈ above.foldl Element.follow line, x.endsSourceLine = false := by
  induction above generalizing line t with
  | nil =>
    cases t with
    | nil => simp [segmentFrom] at h
    | cons c rest =>
      rw [segmentFrom] at h
      obtain ⟨rfl, -⟩ := List.cons.inj h
      refine hline.resolve_right fun hnewline => he ?_
      simp [nextElement, hnewline c rfl]
  | cons first above ih =>
    cases t with
    | nil => simp [segmentFrom] at h
    | cons c rest =>
      rw [segmentFrom] at h
      obtain ⟨rfl, hrest⟩ := List.cons.inj h
      refine ih ?_ hrest
      by_cases hnewline : (nextElement line c rest).1 = .newline
      · left
        simp [Element.follow, hnewline]
      · cases hends : (nextElement line c rest).1.endsSourceLine with
        | true => exact Or.inr (head?_nextElement_of_endsSourceLine hends)
        | false =>
          left
          have hbefore : ∀ x ∈ line, x.endsSourceLine = false := by
            refine hline.resolve_right fun hd => hnewline ?_
            simp [nextElement, hd c rfl]
          simpa [Element.follow, hnewline, hends] using hbefore

/-- An element that shows white space only, and does not vanish, is white space or ends its
source line. -/
theorem Element.isBlank_or_endsSourceLine {e : Element} (hnewline : e ≠ .newline)
    (hopen : e ≠ .openBrace) (hplain : e.vanishes = false)
    (hquote : ∀ quote body, e = .literal quote body → quote = '"' ∨ quote = '\'')
    (hshown : ∀ c ∈ e.shown, PrototypeGate.isBlank c = true) :
    e.isBlank = true ∨ e.endsSourceLine = true := by
  cases e with
  | newline => exact absurd rfl hnewline
  | openBrace => exact absurd rfl hopen
  | splice | comment | closeBrace => cases hplain
  | lineComment | directive => exact Or.inr rfl
  | character c => exact Or.inl (hshown c List.mem_cons_self)
  | literal quote body =>
    have hblank : PrototypeGate.isBlank quote = true := hshown quote List.mem_cons_self
    rcases hquote quote body rfl with rfl | rfl <;> exact absurd hblank (by decide)

/-- An element that shows a hash sign first is a hash sign. -/
theorem Element.eq_hash_of_lead {e : Element}
    (hquote : ∀ quote body, e = .literal quote body → quote = '"' ∨ quote = '\'')
    (hhash : Text.lead e.shown = some '#') : e = .character '#' := by
  have hmem : '#' ∈ e.shown := List.mem_of_find?_eq_some hhash
  cases e with
  | character c => rw [List.mem_singleton.mp hmem]
  | literal quote body => rcases hquote quote body rfl with rfl | rfl <;> simp [shown] at hmem
  | _ => simp [shown] at hmem

/-- Where a stripped line starts, what stands before it on its source line is white space,
ends the source line, or vanishes. -/
theorem blank_of_atLineStart {es : List Element}
    (hquotes : ∀ quote body, .literal quote body ∈ es → quote = '"' ∨ quote = '\'')
    (hstart : (es.foldl Scan.absorb .initial).AtLineStart)
    (hplain : ∀ e ∈ es.foldl Element.follow [], e.vanishes = false) :
    ∀ e ∈ es.foldl Element.follow [], e.isBlank = true ∨ e.endsSourceLine = true := by
  induction es using List.reverseRecOn with
  | nil => simp
  | append_singleton es e ih =>
    rw [List.foldl_append, List.foldl_cons, List.foldl_nil] at hstart hplain ⊢
    by_cases hnewline : e = .newline
    · simp [Element.follow, hnewline]
    simp only [Element.follow, hnewline, if_false, List.forall_mem_cons] at hplain ⊢
    have hbefore (hs : (es.foldl Scan.absorb .initial).AtLineStart) :=
      ih (fun quote body h => hquotes quote body (List.mem_append_left _ h)) hs hplain.2
    generalize es.foldl Scan.absorb .initial = s at hstart hbefore
    by_cases hdepth : s.depth = 0
    · have hopen : e ≠ .openBrace := by
        rintro rfl
        obtain ⟨hinside, -⟩ := Scan.absorb_end (e := .openBrace) hdepth rfl
        exact absurd (hinside.symm.trans hstart.1) (by decide)
      have hends : e.ends s.parens = false := by
        cases e <;> first | rfl | exact absurd rfl hnewline | exact absurd rfl hopen
      obtain ⟨-, hpending, -⟩ := Scan.absorb_within hdepth hends
      have hblank : ∀ c ∈ e.shown.reverse ++ s.pending, isBlank c = true := hpending ▸ hstart.2
      refine ⟨?_, hbefore ⟨hdepth, fun c hc => hblank c (by simp [hc])⟩⟩
      refine Element.isBlank_or_endsSourceLine hnewline hopen hplain.1 ?_
        fun c hc => hblank c (by simp [hc])
      rintro quote body rfl
      exact hquotes quote body (by simp)
    · -- Only a closing brace leads back to where lines start, and it vanishes.
      obtain ⟨houtside, -⟩ := Scan.absorb_inside (Nat.pos_of_ne_zero hdepth) e
      rw [hstart.1] at houtside
      cases e with
      | closeBrace => cases hplain.1
      | _ => exact absurd houtside.symm (by simp [Element.depthAfter, hdepth])

/-! ### Content and markers -/

/-- An exposed hash sign has a comment, a splice or a closing brace before it on its source
line. -/
theorem exists_vanishes_before_hash {above below : List Element} {t : Text}
    (hcut : segment t = above ++ .character '#' :: below)
    (hstart : (above.foldl Scan.absorb .initial).AtLineStart) :
    ∃ e ∈ above.foldl Element.follow [], e.vanishes = true := by
  by_contra hnone
  have hplain : ∀ e ∈ above.foldl Element.follow [], e.vanishes = false := by simpa using hnone
  obtain ⟨e, he, hblank⟩ := exists_not_isBlank_before_hash hcut
  have hquotes : ∀ quote body, .literal quote body ∈ above → quote = '"' ∨ quote = '\'' := by
    intro quote body h
    have hmem : .literal quote body ∈ segment t := hcut ▸ List.mem_append_left _ h
    exact quote_of_mem_segment hmem
  have hends : e.endsSourceLine = false :=
    not_endsSourceLine_before (Or.inl (by simp)) hcut (by simp) e he
  simpa [hblank, hends] using blank_of_atLineStart hquotes hstart hplain e he

/-- A stripped line begins with a hash sign exactly if the source has an exposed one. -/
theorem exists_hash_line_iff (t : Text) :
    (∃ line ∈ strip t, line.text.head? = some '#') ↔ HashExposed t := by
  let s := (segment t).foldl Scan.absorb .initial
  have hlines : (∃ line ∈ strip t, line.text.head? = some '#') ↔ s.ShowsHash := by
    calc (∃ line ∈ strip t, line.text.head? = some '#')
        ↔ ∃ text ∈ s.flush.texts, text.head? = some '#' := by
          simp [strip_eq_foldl, Scan.texts, s]
      _ ↔ s.ShowsHash := by
          rw [Scan.texts_flush, Scan.ShowsHash, ← exists_mem_tidy_singleton_iff]
          simp only [List.mem_append, or_and_right, exists_or]
  have hinitial : ¬Scan.initial.ShowsHash := by
    simp [Scan.ShowsHash, Scan.texts, Scan.initial, Text.lead]
  rw [hlines, Scan.showsHash_foldl_iff, or_iff_right hinitial]
  constructor
  · rintro ⟨above, e, below, hcut, hstart, hhash⟩
    have hmem : e ∈ segment t := hcut ▸ List.mem_append_cons_self
    have he : e = .character '#' := by
      refine Element.eq_hash_of_lead ?_ hhash
      rintro quote body rfl
      exact quote_of_mem_segment hmem
    exact ⟨above, below, he ▸ hcut, hstart⟩
  · rintro ⟨above, below, hcut, hstart⟩
    exact ⟨above, .character '#', below, hcut, hstart, by decide⟩

/-- Every line of the stream of a source is a marker of the source or a stripped line. -/
theorem marker_or_line_of_mem_markLines {path raw : Text} {lines : List Line}
    {expected : Option Nat} (h : raw ∈ markLines path expected lines) :
    (∃ n : Nat, raw = Marker.render n path) ∨ ∃ line ∈ lines, raw = line.text := by
  induction lines generalizing expected with
  | nil => simp [markLines] at h
  | cons line rest ih =>
    have hrest (htail : raw ∈ line.text :: markLines path (some (line.number + 1)) rest) :
        (∃ n : Nat, raw = Marker.render n path) ∨ ∃ l ∈ line :: rest, raw = l.text := by
      rcases List.mem_cons.mp htail with rfl | htail
      · exact Or.inr ⟨line, List.mem_cons_self, rfl⟩
      · refine (ih htail).imp_right ?_
        rintro ⟨l, hl, hraw⟩
        exact ⟨l, List.mem_cons_of_mem _ hl, hraw⟩
    rw [markLines] at h
    split_ifs at h
    · exact hrest h
    · rcases List.mem_cons.mp h with hmarker | htail
      · exact Or.inl ⟨line.number, hmarker⟩
      · exact hrest htail

/-- A line that is no marker moves the position on by one line of the same file. -/
theorem Context.position_readLine_of_content (ctx : Context) {raw : Text}
    (hcontent : Marker.read? (Text.trim raw) = none) :
    (ctx.readLine raw).1.position =
      { ctx.position with nextLine := ctx.position.nextLine + 1 } := by
  rw [ctx.readLine_eq (numberReadable_of_content hcontent), Position.after, hcontent]

/-- Stripped lines begin with hash signs where the source has exposed ones, and only there.
An exposed hash sign stands behind a comment, a splice or a closing brace on its source
line. The stream of a source without exposed hash signs consists of the markers of the
source and of content that is read as no marker and moves the reader on by one line of the
file it is in. -/
theorem content_is_no_marker_unless_hash_exposed (t : Text) :
    ((∃ line ∈ strip t, line.text.head? = some '#') ↔ HashExposed t) ∧
      (∀ above below, segment t = above ++ .character '#' :: below →
        (above.foldl Scan.absorb .initial).AtLineStart →
          ∃ e ∈ above.foldl Element.follow [], e.vanishes = true) ∧
      (¬HashExposed t → ∀ path, ∀ raw ∈ Source.normalize ⟨path, t⟩,
        (∃ n : Nat, raw = Marker.render n path) ∨
          Marker.read? (Text.trim raw) = none ∧ ∀ ctx : Context,
            (ctx.readLine raw).1.position =
              { ctx.position with nextLine := ctx.position.nextLine + 1 }) := by
  refine ⟨exists_hash_line_iff t, fun _ _ => exists_vanishes_before_hash, ?_⟩
  intro hexposed path raw hraw
  refine (marker_or_line_of_mem_markLines hraw).imp_right ?_
  rintro ⟨line, hline, rfl⟩
  have hcontent : Marker.read? (Text.trim line.text) = none := by
    rw [(trimmed_of_mem_strip hline).trim_eq]
    exact Marker.read?_eq_none fun hhash =>
      hexposed ((exists_hash_line_iff t).mp ⟨line, hline, hhash⟩)
  exact ⟨hcontent, fun ctx => ctx.position_readLine_of_content hcontent⟩

/-- A source with hash signs in a directive, a literal, a comment and a body, and one
behind a declaration, has none exposed, so that no line of it is a marker. A comment before
a directive exposes its hash sign. -/
theorem content_of_covered_and_exposed_hash_signs :
    let covered := "  #7 \"b.c\" \x7b\nint f(void) \x7b '#' \x7d; /* #1 */\nint a # \"#\" ;".toList
    let exposed := "int a;\n /**/ #define A".toList
    ¬HashExposed covered ∧
      (strip covered).map Line.text = ["int f(void)".toList, ";".toList,
        "int a # \"\" ;".toList] ∧
      (∀ raw ∈ Source.normalize ⟨"a.c".toList, covered⟩,
        (∃ n : Nat, raw = Marker.render n "a.c".toList) ∨
          Marker.read? (Text.trim raw) = none ∧ ∀ ctx : Context,
            (ctx.readLine raw).1.position =
              { ctx.position with nextLine := ctx.position.nextLine + 1 }) ∧
      ∃ above below, segment exposed = above ++ .character '#' :: below ∧
        (above.foldl Scan.absorb .initial).AtLineStart ∧
        ∃ e ∈ above.foldl Element.follow [], e.vanishes = true := by
  intro covered exposed
  have hlines : (strip covered).map Line.text = ["int f(void)".toList, ";".toList,
      "int a # \"\" ;".toList] := by decide +kernel
  have hnone : ∀ line ∈ strip covered, line.text.head? ≠ some '#' := by decide +kernel
  have hcovered : ¬HashExposed covered := fun h => by
    obtain ⟨line, hline, hhash⟩ := (content_is_no_marker_unless_hash_exposed covered).1.mpr h
    exact hnone line hline hhash
  have hexposed : ∃ line ∈ strip exposed, line.text.head? = some '#' := by decide +kernel
  obtain ⟨above, below, hcut, hstart⟩ :=
    (content_is_no_marker_unless_hash_exposed exposed).1.mp hexposed
  exact ⟨hcovered, hlines, (content_is_no_marker_unless_hash_exposed covered).2.2 hcovered _,
    above, below, hcut, hstart,
    (content_is_no_marker_unless_hash_exposed exposed).2.1 above below hcut hstart⟩

/-- A directive behind a comment stays in the stream. Its file name is emptied as every
literal is, and the reader takes what is left for a marker of an unnamed file. -/
theorem directive_behind_comment_is_marker :
    let t := "/* */ #7 \"b.h\"\nint f(void);".toList
    let run := (Context.initial []).check (Source.normalize ⟨"a.c".toList, t⟩)
    (strip t).map Line.text = ["#7 \"\"".toList, "int f(void);".toList] ∧
      Marker.read? "#7 \"\"".toList = some ⟨"7".toList, []⟩ ∧
      run.1.ledger.prototypes.records =
        [⟨"f".toList, "int f(void)".toList, [], 7⟩] := by
  decide +kernel

end PrototypeGate

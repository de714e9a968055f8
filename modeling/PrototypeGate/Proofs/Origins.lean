import PrototypeGate.Proofs.Bodies

/-!
# What a line begins with

A stripped line begins with an element of the source, the first one outside braces and behind
the last cut that shows a character. This file keeps the elements together with what stands in
front of them when they are laid out, and says which number the scan gives a line: that of the
source line on which this element ends. An element that shows a character ends where it begins,
unless it is a literal that goes over a line feed. Then the number is too great.
-/

namespace PrototypeGate

/-- An element of a source and all elements in front of it. -/
structure Located where
  /-- The elements in front. -/
  above : List Element
  /-- The element itself. -/
  element : Element
  deriving DecidableEq, Repr

namespace Located

/-- The text in front of the element. -/
def before (p : Located) : Text :=
  p.above.flatMap Element.source

/-- The element stands outside braces. -/
def outside (p : Located) : Bool :=
  p.above.foldl Element.depthAfter 0 = 0

/-- The element shows a character that is no white space. -/
def shows (p : Located) : Bool :=
  !p.element.shown.all isBlank

/-- Number of the source line on which the element begins. -/
def firstLine (p : Located) : Nat :=
  1 + p.before.newlines

/-- Number of the source line on which the element ends. -/
def lastLine (p : Located) : Nat :=
  1 + Text.newlines (p.before ++ p.element.source)

end Located

/-- The elements, each with those in front of it. -/
def locate (above : List Element) : List Element → List Located
  | [] => []
  | e :: es => ⟨above, e⟩ :: locate (above ++ [e]) es

/-- Cut located elements into lines, as `cutLines` does with elements. -/
def cutLocated : Nat → List Located → List (List Located)
  | _, [] => [[]]
  | parens, p :: rest =>
    if p.element.ends parens then [] :: cutLocated 0 rest
    else (cutLocated (p.element.parensAfter parens) rest).modifyHead (p :: ·)

/-- The raw lines of a source: its elements outside braces, cut into lines. -/
def locatedLines (t : Text) : List (List Located) :=
  cutLocated 0 ((locate [] (segment t)).filter Located.outside)

/-- The element that a raw line begins with: the first one to show a character. -/
def opening? (raw : List Located) : Option Located :=
  raw.find? Located.shows

/-- The elements that the raw lines begin with. If something is on the first line already that is
not blank, the line has begun before. -/
def openings (blank : Bool) (raws : List (List Located)) : List Located :=
  (if blank then raws else raws.tail).filterMap opening?

/-- What is left of a raw line: what its elements show, trimmed and with white space collapsed. -/
def tidied (raw : List Located) : Text :=
  Text.collapse (Text.trim (raw.flatMap fun p => p.element.shown))

/-- The stripped line of a raw line, if it shows a character at all. The number is a matter of
the element that the line begins with. -/
def Line.ofRaw? (number : Located → Nat) (raw : List Located) : Option Line :=
  (opening? raw).map fun p => ⟨number p, tidied raw⟩

/-! ### Located elements -/

/-- A located element stands behind the elements it is located by. -/
theorem prefix_of_mem_locate {above es : List Element} {p : Located} (h : p ∈ locate above es) :
    p.above ++ [p.element] <+: above ++ es := by
  induction es generalizing above with
  | nil => cases h
  | cons e es ih =>
    rcases List.mem_cons.mp h with rfl | hrest
    · exact ⟨es, by simp⟩
    · simpa using ih hrest

/-- The located elements outside braces are the elements outside braces. -/
theorem map_element_filter_outside (above es : List Element) :
    ((locate above es).filter Located.outside).map Located.element =
      topLevel (above.foldl Element.depthAfter 0) es := by
  induction es generalizing above with
  | nil => rfl
  | cons e es ih =>
    have hrest := ih (above ++ [e])
    rw [List.foldl_append, List.foldl_cons, List.foldl_nil] at hrest
    rw [locate, List.filter_cons, topLevel, ← hrest]
    by_cases hdepth : above.foldl Element.depthAfter 0 = 0 <;> simp [Located.outside, hdepth]

/-- Located elements are cut into lines where the elements are. -/
theorem map_element_cutLocated (parens : Nat) (ps : List Located) :
    (cutLocated parens ps).map (List.map Located.element) =
      cutLines parens (ps.map Located.element) := by
  induction ps generalizing parens with
  | nil => rfl
  | cons p ps ih =>
    rw [cutLocated, List.map_cons, cutLines]
    split_ifs
    · rw [List.map_cons, ih, List.map_nil]
    · rw [← ih]
      cases cutLocated (p.element.parensAfter parens) ps <;> rfl

/-- The elements of the lines stand in their order among those that are cut. -/
theorem flatten_cutLocated_sublist (parens : Nat) (ps : List Located) :
    (cutLocated parens ps).flatten.Sublist ps := by
  induction ps generalizing parens with
  | nil => exact List.Sublist.refl []
  | cons p ps ih =>
    rw [cutLocated]
    split_ifs
    · exact (ih 0).cons p
    · have hrest := ih (p.element.parensAfter parens)
      cases hlines : cutLocated (p.element.parensAfter parens) ps with
      | nil => exact List.nil_sublist _
      | cons line lines =>
        rw [hlines] at hrest
        exact hrest.cons_cons p

/-- An element of a raw line stands in the source behind those it is located by. -/
theorem prefix_of_mem_locatedLines {t : Text} {raw : List Located} {p : Located}
    (hraw : raw ∈ locatedLines t) (hp : p ∈ raw) : p.above ++ [p.element] <+: segment t := by
  have hmem : p ∈ (locate [] (segment t)).filter Located.outside :=
    (flatten_cutLocated_sublist 0 _).mem (List.mem_flatten_of_mem hraw hp)
  exact prefix_of_mem_locate (List.mem_filter.mp hmem).1

/-- A raw line shows a character exactly if something is left of it. -/
theorem opening?_eq_none_iff (raw : List Located) : opening? raw = none ↔ tidied raw = [] := by
  rw [tidied, Scan.collapse_trim_eq_nil_iff]
  simp [opening?, Located.shows]

/-- What is left of the raw lines are the texts of the stripped ones. -/
theorem filter_map_tidied (number : Located → Nat) (raws : List (List Located)) :
    (raws.map tidied).filter (· ≠ []) = (raws.filterMap (Line.ofRaw? number)).map Line.text := by
  induction raws with
  | nil => rfl
  | cons raw raws ih =>
    have hnone := opening?_eq_none_iff raw
    rw [List.map_cons, List.filter_cons, ih, List.filterMap_cons, Line.ofRaw?]
    cases hopening : opening? raw with
    | none => simp [hnone.mp hopening]
    | some p =>
      have hne := mt hnone.mpr (by simp [hopening])
      simp [hne]

/-- An element that shows a character shows its first character first. -/
theorem head?_source_of_shows {p : Located} (h : p.shows = true) :
    p.element.source.head? = p.element.shown.lead := by
  unfold Located.shows at h
  cases he : p.element with
  | character c =>
    have hc : isBlank c = false := by simpa [he, Element.shown] using h
    simp [Element.source, Element.shown, Text.lead, hc]
  | literal quote body =>
    have hquote : isBlank quote = false := by simpa [he, Element.shown] using h
    simp [Element.source, Element.shown, Text.lead, hquote]
  | newline | splice | comment | lineComment | directive | openBrace | closeBrace =>
    rw [he] at h
    cases h

/-- A line begins with the first character of the element that it begins with. -/
theorem head?_tidied {raw : List Located} {p : Located} (h : opening? raw = some p) :
    (tidied raw).head? = p.element.source.head? := by
  rw [tidied, head?_collapse_trim]
  induction raw with
  | nil => cases h
  | cons q raw ih =>
    have hlead : Text.lead ((q :: raw).flatMap fun p => p.element.shown) =
        q.element.shown.lead.or (Text.lead (raw.flatMap fun p => p.element.shown)) := by
      rw [List.flatMap_cons]
      exact List.find?_append
    rw [hlead]
    cases hshows : q.shows with
    | true =>
      obtain rfl : q = p := by simpa [opening?, hshows] using h
      have hsome : q.element.shown.lead.isSome = true := by
        simpa [Text.lead, Located.shows] using hshows
      rw [head?_source_of_shows hshows, Option.or_of_isSome hsome]
    | false =>
      have hnone : q.element.shown.lead = none := by
        simpa [Text.lead, Located.shows] using hshows
      have hrest : opening? raw = some p := by simpa [opening?, hshows] using h
      rw [hnone, Option.none_or, ih hrest]

/-! ### Line numbers -/

/-- Behind an element the scan stands on the source line on which the element ends. -/
theorem Scan.line_foldl_add_lineFeeds {above : List Element} {e : Element}
    (hfeeds : ∀ d ∈ above ++ [e], d.lineFeeds = d.source.newlines) :
    (above.foldl absorb initial).line + e.lineFeeds = Located.lastLine ⟨above, e⟩ := by
  obtain ⟨habove, he⟩ := List.forall_mem_append.mp hfeeds
  rw [line_foldl, sum_lineFeeds_of_forall habove, he e (List.mem_singleton_self e),
    Located.lastLine, Located.before, Text.newlines, Text.newlines, Text.newlines,
    List.count_append]
  exact Nat.add_assoc _ _ _

/-- No line begins on an empty raw line. -/
theorem openings_nil_cons (blank : Bool) (raws : List (List Located)) :
    openings blank ([] :: raws) = openings true raws := by
  cases blank <;> rfl

/-- An element that is put on the first raw line begins it if nothing shows before. -/
theorem openings_modifyHead (blank : Bool) (p : Located) {raws : List (List Located)}
    (hne : raws ≠ []) :
    openings blank (raws.modifyHead (p :: ·)) =
      (if blank && p.shows then [p] else []) ++ openings (blank && !p.shows) raws := by
  obtain ⟨raw, raws, rfl⟩ := List.exists_cons_of_ne_nil hne
  cases blank <;> cases hshows : p.shows <;>
    simp [openings, opening?, List.filterMap_cons, hshows]

/-- Elements are cut into one line at least. -/
theorem cutLocated_ne_nil (parens : Nat) (ps : List Located) : cutLocated parens ps ≠ [] := by
  induction ps generalizing parens with
  | nil => exact List.cons_ne_nil _ _
  | cons p ps ih =>
    rw [cutLocated]
    split_ifs
    · exact List.cons_ne_nil _ _
    · simpa using ih _

/-- An element begins a line exactly if it is the first one of a raw line to show a character. -/
theorem Scan.begun_absorb_located {s : Scan} (hs : s.Numbered) {p : Located}
    (houtside : p.outside = decide (s.depth = 0))
    (hnumber : s.line + p.element.lineFeeds = p.lastLine) (rest : List Located) :
    let next := s.absorb p.element
    next.begun ++
        (openings (next.pending.all isBlank) (cutLocated next.parens rest)).map Located.lastLine =
      s.begun ++ (openings (s.pending.all isBlank)
        (cutLocated s.parens (if p.outside then p :: rest else rest))).map Located.lastLine := by
  intro next
  rw [begun_absorb hs p.element, houtside]
  by_cases hdepth : s.depth = 0
  · cases he : p.element.ends s.parens with
    | true =>
      -- The element finishes a line and shows no character itself.
      obtain ⟨-, hpending, hparens, -⟩ := absorb_end hdepth he
      have hblank : p.element.shown.all isBlank = true := by
        revert he
        cases p.element <;> first | exact fun _ => rfl | exact nofun
      rw [if_neg (not_begins hblank), List.append_nil, hpending, hparens]
      simp only [hdepth, decide_true, if_true, cutLocated, he, openings_nil_cons]
      rfl
    | false =>
      obtain ⟨-, hpending, hparens, -⟩ := absorb_within hdepth he
      have hbegins : s.Begins p.element.shown ↔ (s.pending.all isBlank && p.shows) = true := by
        simp [Begins, hdepth, Located.shows]
      have hblank : next.pending.all isBlank = (s.pending.all isBlank && !p.shows) := by
        rw [hpending, List.all_append, List.all_reverse, Bool.and_comm]
        simp [Located.shows]
      rw [hparens, hblank]
      simp only [hdepth, decide_true, if_true, cutLocated, he, Bool.false_eq_true, if_false]
      rw [openings_modifyHead _ _ (cutLocated_ne_nil _ _), List.map_append, List.append_assoc]
      simp only [hbegins, hnumber, apply_ite (List.map Located.lastLine)]
      rfl
  · -- Inside braces nothing shows and nothing is cut.
    obtain ⟨-, hpending, hparens, -⟩ := absorb_inside (Nat.pos_of_ne_zero hdepth) p.element
    have hbegins : ¬s.Begins p.element.shown := fun h => hdepth h.1
    rw [if_neg hbegins, List.append_nil, hpending, hparens]
    simp only [hdepth, decide_false, Bool.false_eq_true, if_false]

/-- The lines that begin while elements are scanned get the numbers of the source lines on which
their first elements end. -/
theorem Scan.begun_foldl_locate {es above : List Element}
    (hfeeds : ∀ d ∈ above ++ es, d.lineFeeds = d.source.newlines) {s : Scan}
    (hs : above.foldl absorb initial = s) :
    (es.foldl absorb s).begun = s.begun ++
      (openings (s.pending.all isBlank)
        (cutLocated s.parens ((locate above es).filter Located.outside))).map
        Located.lastLine := by
  induction es generalizing above s with
  | nil =>
    rw [locate, List.filter_nil, cutLocated, openings_nil_cons]
    exact (List.append_nil _).symm
  | cons e es ih =>
    have hfeeds : ∀ d ∈ (above ++ [e]) ++ es, d.lineFeeds = d.source.newlines := by
      simpa using hfeeds
    have hnext : (above ++ [e]).foldl absorb initial = s.absorb e := by
      rw [List.foldl_append, hs]
      rfl
    have hinitial : initial.Numbered := rfl
    have hnumbered : s.Numbered := hs ▸ numbered_foldl hinitial above
    have houtside : (Located.mk above e).outside = decide (s.depth = 0) := by
      rw [← hs, depth_foldl]
      rfl
    have hnumber : s.line + e.lineFeeds = (Located.mk above e).lastLine := by
      rw [← hs]
      exact line_foldl_add_lineFeeds fun d hd => hfeeds d (List.mem_append_left es hd)
    rw [List.foldl_cons, ih hfeeds hnext, locate, List.filter_cons]
    exact begun_absorb_located hnumbered houtside hnumber _

/-- The stripped lines of a source are what is left of its raw lines, each with the number of the
source line on which the element ends that the line begins with. -/
theorem strip_eq_filterMap (t : Text) :
    strip t = (locatedLines t).filterMap (Line.ofRaw? Located.lastLine) := by
  apply lines_ext
  · have hfeeds : ∀ e ∈ [] ++ segment t, e.lineFeeds = e.source.newlines := fun e he =>
      lineFeeds_of_mem_segmentFrom he
    have hbegun := Scan.begun_foldl_locate hfeeds rfl
    have hinitial : Scan.initial.Numbered := rfl
    calc (strip t).map Line.number
        = ((segment t).foldl Scan.absorb .initial).begun := by
          rw [strip_eq_foldl, ← Scan.map_number_lines (Scan.numbered_foldl hinitial _)]
          rfl
      _ = ((locatedLines t).filterMap opening?).map Located.lastLine := hbegun
      _ = ((locatedLines t).filterMap (Line.ofRaw? Located.lastLine)).map Line.number := by
          rw [List.map_filterMap, List.map_filterMap]
          simp only [Line.ofRaw?, Option.map_map, Function.comp_def]
  · have hcut : (locatedLines t).map (List.map Located.element) =
        cutLines 0 (topLevel 0 (segment t)) := by
      rw [locatedLines, map_element_cutLocated, map_element_filter_outside]
      rfl
    have htidied (raw : List Located) : Text.collapse (Text.trim
        ((raw.map Located.element).flatMap Element.shown)) = tidied raw := by
      rw [List.flatMap_map]
      rfl
    rw [map_text_strip, layOut, tidy, rawLines, ← hcut, ← filter_map_tidied, List.map_map,
      List.map_map]
    simp only [Function.comp_def, htidied]

/-- A stripped line is what is left of a raw line, which consists of elements of the source. -/
theorem exists_located_of_mem_strip {t : Text} {line : Line} (hline : line ∈ strip t) :
    ∃ raw : List Located, (∀ p ∈ raw, p.element ∈ segment t) ∧ tidied raw = line.text ∧
      line.text ≠ [] := by
  rw [strip_eq_filterMap, List.mem_filterMap] at hline
  obtain ⟨raw, hraw, hline⟩ := hline
  obtain ⟨p, hp, rfl⟩ := Option.map_eq_some_iff.mp hline
  refine ⟨raw, fun q hq => ?_, rfl, fun hnil => ?_⟩
  · exact (prefix_of_mem_locatedLines hraw hq).mem (by simp)
  · rw [(opening?_eq_none_iff raw).mpr hnil] at hp
    cases hp

/-! ### Elements over several source lines -/

/-- Between its first and its last source line an element holds its line feeds. -/
theorem Located.lastLine_eq (p : Located) :
    p.lastLine = p.firstLine + p.element.source.newlines := by
  rw [lastLine, firstLine, Text.newlines, List.count_append, Nat.add_assoc]
  rfl

/-- An element that shows a character ends on the source line on which it begins, unless it is a
literal with a line feed. -/
theorem Located.lastLine_eq_firstLine_iff {p : Located} (h : p.shows = true) :
    p.lastLine = p.firstLine ↔
      ∀ quote body, p.element = .literal quote body → '\n' ∉ body := by
  have hfeeds : p.lastLine = p.firstLine ↔ '\n' ∉ p.element.source := by
    rw [p.lastLine_eq, Nat.add_eq_left]
    exact List.count_eq_zero
  rw [hfeeds]
  unfold shows at h
  cases he : p.element with
  | character c =>
    have hc : isBlank c = false := by simpa [he, Element.shown] using h
    have hne : '\n' ≠ c := by
      rintro rfl
      cases hc
    simp [Element.source, hne]
  | literal quote body =>
    have hquote : isBlank quote = false := by simpa [he, Element.shown] using h
    have hne : '\n' ≠ quote := by
      rintro rfl
      cases hquote
    simp [Element.source, hne]
  | newline | splice | comment | lineComment | directive | openBrace | closeBrace =>
    rw [he] at h
    cases h

/-- Two ways to number the lines agree exactly if they agree on all elements that lines begin
with. -/
theorem filterMap_ofRaw?_eq_iff {number number' : Located → Nat} (raws : List (List Located)) :
    raws.filterMap (Line.ofRaw? number) = raws.filterMap (Line.ofRaw? number') ↔
      ∀ raw ∈ raws, ∀ p ∈ opening? raw, number p = number' p := by
  induction raws with
  | nil => simp
  | cons raw raws ih =>
    rw [List.forall_mem_cons, List.filterMap_cons, List.filterMap_cons, Line.ofRaw?, Line.ofRaw?]
    cases hopening : opening? raw with
    | none => simp [ih]
    | some p => simp [ih]

/-- A stripped line has the number of the source line on which the element ends that it begins
with: the first element outside braces and behind the last cut that shows a character. The
element stands where it is located, and its first character is the first one of the line. The
numbers are those of the source lines on which these elements begin exactly if none of them is a
literal with a line feed. -/
theorem strip_numbered_by_last_line_of_opening (t : Text) :
    strip t = (locatedLines t).filterMap (Line.ofRaw? Located.lastLine) ∧
      (∀ raw ∈ locatedLines t, ∀ p ∈ opening? raw,
        p.before ++ p.element.source <+: t ∧ (tidied raw).head? = p.element.source.head?) ∧
      (strip t = (locatedLines t).filterMap (Line.ofRaw? Located.firstLine) ↔
        ∀ raw ∈ locatedLines t, ∀ p ∈ opening? raw,
          ∀ quote body, p.element = .literal quote body → '\n' ∉ body) := by
  refine ⟨strip_eq_filterMap t, fun raw hraw p hp => ⟨?_, head?_tidied hp⟩, ?_⟩
  · obtain ⟨below, hbelow⟩ := prefix_of_mem_locatedLines hraw (List.mem_of_find?_eq_some hp)
    refine ⟨below.flatMap Element.source, ?_⟩
    have hall : (segment t).flatMap Element.source = t := flatMap_source_segmentFrom [] t
    rw [← hbelow] at hall
    simpa [Located.before] using hall
  · rw [strip_eq_filterMap, filterMap_ofRaw?_eq_iff]
    refine forall₄_congr fun raw _ p hp => ?_
    exact Located.lastLine_eq_firstLine_iff (List.find?_some hp)

/-- Lines behind a comment, a splice, a body and a directive have the numbers of the source lines
on which their first characters stand, and so has one that begins with a literal. -/
theorem strip_numbers_behind_covered_lines :
    let t := "/*\n*/ \\\n int f(int a,\n b) \x7b\n \x7d \"x\" y;\n#define A \\\n 1\n \\\n g;".toList
    strip t = [⟨3, "int f(int a, b)".toList⟩, ⟨5, "\"\" y;".toList⟩, ⟨9, "g;".toList⟩] ∧
      strip t = (locatedLines t).filterMap (Line.ofRaw? Located.firstLine) ∧
      (∃ raw ∈ locatedLines t, ∃ p ∈ opening? raw, p.before = "/*\n*/ \\\n ".toList ∧
        tidied raw = "int f(int a, b)".toList ∧ p.before ++ p.element.source <+: t ∧
        (tidied raw).head? = p.element.source.head?) ∧
      ∀ raw ∈ locatedLines t, ∀ p ∈ opening? raw,
        ∀ quote body, p.element = .literal quote body → '\n' ∉ body := by
  intro t
  have hlines : strip t = [⟨3, "int f(int a, b)".toList⟩, ⟨5, "\"\" y;".toList⟩,
      ⟨9, "g;".toList⟩] := by decide +kernel
  have hnumbers : strip t = (locatedLines t).filterMap (Line.ofRaw? Located.firstLine) := by
    decide +kernel
  have hopening : ∃ raw ∈ locatedLines t, ∃ p ∈ opening? raw,
      p.before = "/*\n*/ \\\n ".toList ∧ tidied raw = "int f(int a, b)".toList := by
    decide +kernel
  obtain ⟨-, hplaces, hfirst⟩ := strip_numbered_by_last_line_of_opening t
  obtain ⟨raw, hraw, p, hp, hbefore, htidied⟩ := hopening
  exact ⟨hlines, hnumbers, ⟨raw, hraw, p, hp, hbefore, htidied, hplaces raw hraw p hp⟩,
    hfirst.mp hnumbers⟩

/-- A line that begins with a literal over a line feed gets the number of the next source line,
although the literal is the first thing in the source. -/
theorem literal_over_line_feed_numbered_late :
    let t := "\"a\\\nb\" x;".toList
    strip t = [⟨2, "\"\" x;".toList⟩] ∧
      (locatedLines t).filterMap (Line.ofRaw? Located.firstLine) = [⟨1, "\"\" x;".toList⟩] ∧
      ((locatedLines t).filterMap opening?).map Located.before = [[]] := by
  decide +kernel

end PrototypeGate

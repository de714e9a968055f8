import PrototypeGate.CommandLine.Session
import PrototypeGate.Proofs.Encoding
import PrototypeGate.Proofs.HashLines

/-!
# The printed stream

A session can print the normalized stream instead of checking it, and the output of a helper
is read as a stream. This file shows that the two fit: the printed stream of any sources, read
as the output of a helper is, is checked like the stream itself. Printing puts a line feed
behind each line and reading splits the text after each line feed, so no line may hold a line
end of its own. Stripped lines have none because their white space is collapsed; a marker has
one only if the path does. The line feed that a line comes back with is trimmed off.
-/

namespace PrototypeGate

/-- A text without line ends. -/
structure OneLine (t : Text) : Prop where
  /-- There is no line feed. -/
  feed : '\n' ∉ t
  /-- There is no carriage return. -/
  carriage : '\r' ∉ t

instance (t : Text) : Decidable (OneLine t) :=
  decidable_of_iff ('\n' ∉ t ∧ '\r' ∉ t) ⟨fun h => ⟨h.1, h.2⟩, fun h => ⟨h.feed, h.carriage⟩⟩

/-- The text that printing lines gives. -/
def printed (lines : List Text) : Text :=
  lines.flatMap fun line => chompLine line ++ ['\n']

/-! ### Reading back lines -/

namespace Text

/-- The ends of lines are unified behind a line as if it was not there. -/
theorem unifyLineEnds_append {t : Text} (ht : OneLine t) (rest : Text) :
    unifyLineEnds (t ++ '\n' :: rest) = t ++ '\n' :: unifyLineEnds rest := by
  obtain ⟨hfeed, hcarriage⟩ := ht
  induction t with
  | nil => rfl
  | cons c t ih =>
    obtain ⟨hc, ht⟩ := List.ne_and_not_mem_of_not_mem_cons hcarriage
    have htail := ih (List.not_mem_of_not_mem_cons hfeed) ht
    rw [List.cons_append, unifyLineEnds, htail, List.cons_append]
    · exact fun _ h _ => hc h.symm
    · exact fun h => hc h.symm

/-- The first line of a text is split off with its line feed. -/
theorem splitLines_append {t : Text} (ht : OneLine t) (rest : Text) :
    splitLines (t ++ '\n' :: rest) = (t ++ ['\n']) :: splitLines rest := by
  obtain ⟨hfeed, -⟩ := ht
  induction t with
  | nil => rfl
  | cons c t ih =>
    obtain ⟨hc, ht⟩ := List.ne_and_not_mem_of_not_mem_cons hfeed
    rw [List.cons_append, splitLines, if_neg (Ne.symm hc), ih ht, List.cons_append]

end Text

/-- A line without line ends has none to drop. -/
theorem OneLine.chompLine_eq {t : Text} (ht : OneLine t) : chompLine t = t := by
  rw [chompLine]
  cases hlast : t.reverse with
  | nil => simpa using hlast.symm
  | cons c rest =>
    have hc : c ∈ t := List.mem_reverse.mp (hlast ▸ List.mem_cons_self)
    have hkeep : (c == '\n') = false := by
      rw [beq_eq_false_iff_ne]
      rintro rfl
      exact ht.feed hc
    rw [List.dropWhile_cons_of_neg (by simp [hkeep]), ← hlast, List.reverse_reverse]

/-- Printed lines are read back with a line feed at the end of each. -/
theorem splitLines_printed {lines : List Text} (hlines : ∀ line ∈ lines, OneLine line) :
    Text.splitLines (Tree.sourceText (utf8 (printed lines))) = lines.map (· ++ ['\n']) := by
  rw [Tree.sourceText, Utf8.decodeLenient_utf8]
  induction lines with
  | nil => rfl
  | cons line rest ih =>
    have hline : OneLine line := hlines line List.mem_cons_self
    have hrest := ih fun l hl => hlines l (List.mem_cons_of_mem line hl)
    have hprinted : printed (line :: rest) = line ++ '\n' :: printed rest := by
      rw [printed, List.flatMap_cons, hline.chompLine_eq, List.append_assoc,
        List.singleton_append, printed]
    rw [hprinted, Text.unifyLineEnds_append hline, Text.splitLines_append hline, hrest,
      List.map_cons]

/-! ### Reading lines with a line feed -/

/-- A line is read alike with and without a line feed at its end. -/
theorem Context.readLine_append_feed (ctx : Context) (line : Text) :
    ctx.readLine (line ++ ['\n']) = ctx.readLine line := by
  have hblank : ∀ c ∈ ['\n'], isBlank c = true := by
    intro c hc
    rw [List.mem_singleton.mp hc]
    rfl
  rw [readLine, trim_append_blanks line hblank, readLine]

/-- A stream is checked alike with and without line feeds at the ends of its lines. -/
theorem Context.check_map_feed (ctx : Context) (lines : List Text) :
    ctx.check (lines.map (· ++ ['\n'])) = ctx.check lines := by
  induction lines generalizing ctx with
  | nil => rfl
  | cons line rest ih =>
    rw [List.map_cons, check, check, ctx.readLine_append_feed]
    rcases ctx.readLine line with ⟨next, _ | halt⟩
    · exact ih next
    · rfl

/-! ### Lines of a stream -/

/-- A stripped line has no line ends. -/
theorem oneLine_of_mem_strip {t : Text} {line : Line} (hline : line ∈ strip t) :
    OneLine line.text := by
  obtain ⟨raw, hraw⟩ := exists_raw_of_mem_strip hline
  rw [← hraw]
  constructor
  · intro hfeed
    exact absurd (eq_space_of_mem_collapse hfeed (by decide)) (by decide)
  · intro hcarriage
    exact absurd (eq_space_of_mem_collapse hcarriage (by decide)) (by decide)

namespace Marker

/-- Escaping a path adds only backslashes. -/
theorem mem_escape {c : Char} (hc : c ≠ '\\') {path : Text} : c ∈ escape path ↔ c ∈ path := by
  induction path with
  | nil => rfl
  | cons d path ih =>
    rw [escape]
    split <;> simp [ih, hc]

/-- A character that is no digit and none of the marker's own stands in a marker only if it
stands in the path. -/
theorem mem_of_mem_render {c : Char} {n : Nat} {path : Text} (h : c ∈ render n path)
    (hdigit : c.isDigit = false) (hown : c ∉ ['#', ' ', '"', '\\']) : c ∈ path := by
  simp only [List.mem_cons, List.not_mem_nil, or_false, not_or] at hown
  obtain ⟨hhash, hspace, hquote, hbackslash⟩ := hown
  have hnumber : c ∉ Nat.toDigits 10 n := by
    intro hmem
    rw [Nat.isDigit_of_mem_toDigits (by decide) (by decide) hmem] at hdigit
    cases hdigit
  simpa [render, decimalText, mem_escape hbackslash, hhash, hspace, hquote, hnumber] using h

/-- A marker has no line ends if its path has none. -/
theorem oneLine_render (n : Nat) {path : Text} (hpath : OneLine path) :
    OneLine (render n path) :=
  ⟨fun h => hpath.feed (mem_of_mem_render h (by decide) (by decide)),
    fun h => hpath.carriage (mem_of_mem_render h (by decide) (by decide))⟩

end Marker

/-- A line of the stream of a source has no line ends if the path has none. -/
theorem oneLine_of_mem_normalize {source : Source} (hpath : OneLine source.path) {line : Text}
    (hline : line ∈ source.normalize) : OneLine line := by
  rcases marker_or_line_of_mem_markLines hline with ⟨n, rfl⟩ | ⟨stripped, hstripped, rfl⟩
  · exact Marker.oneLine_render n hpath
  · exact oneLine_of_mem_strip hstripped

/-- A source file is reported under the path it is read at. -/
theorem World.path_of_readSource {w : World} {path : Path} {source : Source}
    (hsource : w.readSource path = .ok source) : source.path = path := by
  rw [readSource] at hsource
  split at hsource
  · cases hsource
  · split at hsource
    · cases hsource
      rfl
    · cases hsource

/-- A line of the stream of source files has no line ends if the paths have none. -/
theorem World.oneLine_of_mem_fileLines {w : World} {paths : List Path}
    (hpaths : ∀ path ∈ paths, OneLine path) {line : Text}
    (hline : line ∈ (w.fileLines paths).1) : OneLine line := by
  induction paths with
  | nil => cases hline
  | cons path rest ih =>
    have hpath : OneLine path := hpaths path List.mem_cons_self
    cases hsource : w.readSource path with
    | error failure => simp [fileLines, hsource] at hline
    | ok source =>
      simp only [fileLines, hsource, Prod.map, List.mem_append] at hline
      rcases hline with hfirst | hrest
      · have hname : source.path = path := path_of_readSource hsource
        exact oneLine_of_mem_normalize (hname ▸ hpath) hfirst
      · exact ih (fun q hq => hpaths q (List.mem_cons_of_mem path hq)) hrest

/-! ### The printed stream -/

/-- Printed lines, read as the output of a helper is, are checked like the lines. -/
theorem Context.check_printed (ctx : Context) {lines : List Text}
    (hlines : ∀ line ∈ lines, OneLine line) :
    ctx.check (Text.splitLines (Tree.sourceText (utf8 (printed lines)))) = ctx.check lines := by
  rw [splitLines_printed hlines, ctx.check_map_feed]

/-- The printed stream of sources whose paths have no line ends, read as the output of a
helper is, is checked like the stream itself. -/
theorem check_printed_stream (ctx : Context) {sources : List Source}
    (hpaths : ∀ source ∈ sources, OneLine source.path) :
    ctx.check (Text.splitLines (Tree.sourceText (utf8
        (printed (sources.flatMap Source.normalize))))) =
      ctx.check (sources.flatMap Source.normalize) := by
  refine ctx.check_printed fun line hline => ?_
  obtain ⟨source, hsource, hmem⟩ := List.mem_flatMap.mp hline
  exact oneLine_of_mem_normalize (hpaths source hsource) hmem

/-- Two sources, the first one with a quote and a backslash in its path, carriage returns in
its text and a gap in its line numbers. Their printed stream holds the same conflict. -/
theorem check_printed_stream_of_quoted_path :
    let sources : List Source :=
      [⟨"a\\\"b.h".toList, "int f(int\r a);\r\n\n\n\n\x0cint g();".toList⟩,
        ⟨"f c.c".toList, "int f(int a)\n\x7b\n\x7d\nint g(void) \x7b \x7d".toList⟩]
    let text := printed (sources.flatMap Source.normalize)
    let run := (Context.initial []).check (sources.flatMap Source.normalize)
    (∀ source ∈ sources, OneLine source.path) ∧
      run.2.isSome ∧
      (Context.initial []).check (Text.splitLines (Tree.sourceText (utf8 text))) = run := by
  intro sources text run
  have hpaths : ∀ source ∈ sources, OneLine source.path := by decide +kernel
  exact ⟨hpaths, by decide +kernel, check_printed_stream (Context.initial []) hpaths⟩

/-- A session that fails has printed what it printed until then. -/
theorem World.output_fail (w : World) (output errors : Text) (failure : Failure) :
    (w.fail output errors failure).output = output := by
  cases failure <;> rfl

/-- A session that prints the stream of its plan prints all lines of the stream. -/
theorem World.output_runStrip (w : World) (log : Text) (plan : Plan) :
    (w.runStrip log plan).output = printed (w.lines plan.normalizer plan.paths).1 := by
  simp only [runStrip, printed]
  rcases w.lines plan.normalizer plan.paths with ⟨lines, failure⟩
  simp only
  split
  · exact output_fail _ _ _ _
  · rfl

/-- What a session prints for source files whose paths have no line ends is checked, read as
the output of a helper is, like the lines of the files. -/
theorem World.check_output_runStrip (w : World) (log : Text) {plan : Plan} {dialect : String}
    (hnormalizer : plan.normalizer = .builtin dialect)
    (hpaths : ∀ path ∈ plan.paths, OneLine path) (ctx : Context) :
    ctx.check (Text.splitLines (Tree.sourceText (utf8 (w.runStrip log plan).output))) =
      ctx.check (w.fileLines plan.paths).1 := by
  rw [w.output_runStrip, hnormalizer]
  exact ctx.check_printed fun line hline => oneLine_of_mem_fileLines hpaths hline

end PrototypeGate

import PrototypeGate.Proofs.Filing
import PrototypeGate.Proofs.Layout
import PrototypeGate.Proofs.MarkerReading
import PrototypeGate.Stream.Normalize

/-!
# Where declarations come from

A source enters the stream as its stripped lines, with markers only where the line
numbers do not run on by themselves. The reader of the stream counts lines on its own
between markers. This file shows that the two counts stay in step: every declaration is
filed under the path of its source and the number the stripper gave its line, whatever
gaps and repetitions the numbers have and however the sources follow each other.
-/

namespace PrototypeGate

/-- The declaration on a stripped line of the file at a path. -/
def Line.filing? (keywords : List Text) (path : Text) (line : Line) : Option Filing :=
  (classify keywords line.text).map fun found =>
    ⟨found.kind, ⟨declaredName found.text, found.text, path, line.number⟩⟩

/-- The declarations of a source, each with the number of its stripped line. -/
def Source.filings (keywords : List Text) (source : Source) : List Filing :=
  (strip source.text).filterMap (Line.filing? keywords source.path)

/-- The number of a line can be read back from a marker. -/
def Line.NumberReadable (line : Line) : Prop :=
  (Nat.toDigits 10 line.number).length ≤ Marker.digitLimit

instance (line : Line) : Decidable line.NumberReadable :=
  inferInstanceAs (Decidable ((Nat.toDigits 10 line.number).length ≤ Marker.digitLimit))

/-! ### Stripped lines -/

/-- The text of a stripped line is trimmed. -/
theorem trimmed_of_mem_strip {t : Text} {line : Line} (hline : line ∈ strip t) :
    Trimmed line.text := by
  obtain ⟨raw, hraw⟩ := exists_raw_of_mem_strip hline
  rw [← hraw]
  exact (trimmed_trim raw).collapse

/-! ### Markers and lines of the stream -/

/-- A marker files nothing and moves the position to the line it names. -/
theorem filings_render_cons (keywords : List Text) (p : Position) {n : Nat} (path : Text)
    (hlimit : (Nat.toDigits 10 n).length ≤ Marker.digitLimit) (rest : List Text) :
    ∃ q : Position, q.file = path ∧ q.nextLine = n ∧
      filings keywords p (Marker.render n path :: rest) = filings keywords q rest := by
  have hread := Marker.read?_trim_render n path
  refine ⟨p.after (Marker.render n path), ?_, ?_, ?_⟩
  · simp only [Position.after, hread, Position.follow, Marker.number?_toDigits path hlimit]
  · simp only [Position.after, hread, Position.follow, Marker.number?_toDigits path hlimit]
  · simp only [filings, filing?, hread, Option.toList_none, List.nil_append]

/-- A stripped line that is no marker files its declaration at the current position and
moves the position on by one line. -/
theorem filings_line_cons (keywords : List Text) {p : Position} {path : Text} {line : Line}
    (hfile : p.file = path) (hnext : p.nextLine = line.number) (htrim : Trimmed line.text)
    (hcontent : Marker.read? line.text = none) (rest : List Text) :
    filings keywords p (line.text :: rest) =
      (line.filing? keywords path).toList ++
        filings keywords { p with nextLine := p.nextLine + 1 } rest := by
  simp only [filings, filing?, Position.after, htrim.trim_eq, hcontent, Line.filing?, hfile, hnext]

/-- The stripped lines of a source file their declarations under the path of the source
and their own numbers, as long as the reader stands where the writer expects it. -/
theorem filings_markLines (keywords : List Text) {path : Text} {lines : List Line}
    (htrim : ∀ line ∈ lines, Trimmed line.text)
    (hcontent : ∀ line ∈ lines, Marker.read? line.text = none)
    (hnumbers : ∀ line ∈ lines, line.NumberReadable) {p : Position} {expected : Option Nat}
    (hexpected : ∀ n, expected = some n → p.file = path ∧ p.nextLine = n) :
    filings keywords p (markLines path expected lines) =
      lines.filterMap (Line.filing? keywords path) := by
  induction lines generalizing p expected with
  | nil => rfl
  | cons line rest ih =>
    simp only [List.forall_mem_cons] at htrim hcontent hnumbers
    -- Behind a line the reader expects the next number, and so does the writer.
    have hline {q : Position} (hfile : q.file = path) (hnext : q.nextLine = line.number) :
        filings keywords q (line.text :: markLines path (some (line.number + 1)) rest) =
          (line :: rest).filterMap (Line.filing? keywords path) := by
      rw [filings_line_cons keywords hfile hnext htrim.1 hcontent.1,
        ih htrim.2 hcontent.2 hnumbers.2, List.filterMap_cons]
      · cases line.filing? keywords path <;> rfl
      · rintro n hn
        obtain rfl := Option.some.inj hn
        exact ⟨hfile, by simp [hnext]⟩
    rw [markLines]
    by_cases hnumber : expected = some line.number
    · obtain ⟨hfile, hnext⟩ := hexpected _ hnumber
      rw [if_pos hnumber]
      exact hline hfile hnext
    · obtain ⟨q, hfile, hnext, hskip⟩ := filings_render_cons keywords p path hnumbers.1
        (line.text :: markLines path (some (line.number + 1)) rest)
      rw [if_neg hnumber, hskip]
      exact hline hfile hnext

/-- The stream of a source holds no marker whose number cannot be read. -/
theorem numberReadable_of_mem_markLines {path : Text} {lines : List Line}
    (htrim : ∀ line ∈ lines, Trimmed line.text)
    (hcontent : ∀ line ∈ lines, Marker.read? line.text = none)
    (hnumbers : ∀ line ∈ lines, line.NumberReadable) (expected : Option Nat) :
    ∀ raw ∈ markLines path expected lines, NumberReadable raw := by
  induction lines generalizing expected with
  | nil => simp [markLines]
  | cons line rest ih =>
    simp only [List.forall_mem_cons] at htrim hcontent hnumbers
    have hline : NumberReadable line.text :=
      numberReadable_of_content (by rw [htrim.1.trim_eq, hcontent.1])
    have hmarker : NumberReadable (Marker.render line.number path) := by
      intro marker hmarker
      rw [Marker.read?_trim_render] at hmarker
      obtain rfl := Option.some.inj hmarker
      exact hnumbers.1
    have hrest := ih htrim.2 hcontent.2 hnumbers.2 (some (line.number + 1))
    rw [markLines]
    split <;> simp only [List.forall_mem_cons]
    · exact ⟨hline, hrest⟩
    · exact ⟨hmarker, hline, hrest⟩

/-! ### Sources -/

/-- Sources enter the stream so that their declarations are filed under their paths and
the numbers of their stripped lines, wherever the reader stands before. -/
theorem filings_flatMap_normalize (keywords : List Text) {sources : List Source}
    (hcontent : ∀ s ∈ sources, ∀ line ∈ strip s.text, Marker.read? line.text = none)
    (hnumbers : ∀ s ∈ sources, ∀ line ∈ strip s.text, line.NumberReadable) (p : Position) :
    filings keywords p (sources.flatMap Source.normalize) =
      sources.flatMap (Source.filings keywords) := by
  induction sources generalizing p with
  | nil => rfl
  | cons s sources ih =>
    simp only [List.forall_mem_cons] at hcontent hnumbers
    have hsource : filings keywords p s.normalize = s.filings keywords :=
      filings_markLines keywords (fun _ => trimmed_of_mem_strip) hcontent.1 hnumbers.1
        (by simp)
    rw [List.flatMap_cons, List.flatMap_cons, filings_append, hsource, ih hcontent.2 hnumbers.2]

/-- Checking the streams of sources is resolving the declarations of their stripped
lines, each filed under the path of its source and the number of its line: the run files
the same records and stops at the same conflict. -/
theorem check_sources_eq_resolveAll (ctx : Context) {sources : List Source}
    (hcontent : ∀ s ∈ sources, ∀ line ∈ strip s.text, Marker.read? line.text = none)
    (hnumbers : ∀ s ∈ sources, ∀ line ∈ strip s.text, line.NumberReadable) :
    let run := ctx.check (sources.flatMap Source.normalize)
    let outcome := ctx.ledger.resolveAll (sources.flatMap (Source.filings ctx.keywords))
    run.1.ledger = outcome.1 ∧ run.2 = outcome.2.map .conflict := by
  have hlines : ∀ raw ∈ sources.flatMap Source.normalize, NumberReadable raw := by
    intro raw hraw
    obtain ⟨s, hs, hraw⟩ := List.mem_flatMap.mp hraw
    exact numberReadable_of_mem_markLines (fun _ => trimmed_of_mem_strip) (hcontent s hs)
      (hnumbers s hs) none raw hraw
  have hcheck := ctx.check_eq_resolveAll hlines
  rwa [filings_flatMap_normalize ctx.keywords hcontent hnumbers ctx.position] at hcheck

/-- Two sources, one with a gap in its line numbers and a quote in its path, the other
with a wrapped parameter list. The run stops at the definition that differs. -/
theorem check_sources_of_gap_and_wrap :
    let sources : List Source := [⟨"in\"c.h".toList, "int f(int a);\n\n\nint g(void);".toList⟩,
      ⟨"f.c".toList, "int f(int\n b) { }".toList⟩]
    let run := (Context.initial []).check (sources.flatMap Source.normalize)
    let outcome := Ledger.empty.resolveAll (sources.flatMap (Source.filings []))
    (∀ s ∈ sources, ∀ line ∈ strip s.text, Marker.read? line.text = none) ∧
      (∀ s ∈ sources, ∀ line ∈ strip s.text, line.NumberReadable) ∧
      outcome.2.map Conflict.condition = some .definitionPrototypeMismatch ∧
      run.1.ledger = outcome.1 ∧ run.2 = outcome.2.map .conflict := by
  intro sources run outcome
  have hcontent : ∀ s ∈ sources, ∀ line ∈ strip s.text, Marker.read? line.text = none := by
    decide +kernel
  have hnumbers : ∀ s ∈ sources, ∀ line ∈ strip s.text, line.NumberReadable := by
    decide +kernel
  exact ⟨hcontent, hnumbers, by decide +kernel,
    check_sources_eq_resolveAll (Context.initial []) hcontent hnumbers⟩

end PrototypeGate

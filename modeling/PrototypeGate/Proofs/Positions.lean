import Mathlib.Data.List.Induction
import PrototypeGate.Proofs.MarkerReading
import PrototypeGate.Proofs.Registries
import PrototypeGate.Proofs.Stopping

/-!
# Where a run stands

A marker says which file and which line the next line of the stream comes from, and between
markers the run counts lines on its own. This file says what that comes to. A marker that was
written for a file and a line sets the position to them, whatever stands behind it. After any
number of lines the position is a matter of the lines alone: the file is that of the last marker,
and the number is that of the last marker and of the lines behind it. Every record of a run,
and the one that stops it, has the place of its own line.
-/

namespace PrototypeGate

/-! ### Following a marker -/

/-- A marker that was written for a file and a line is followed to that file and that line,
whatever stands behind it, and the registries stay as they are. The file is seen from then on. No
other marker is written the same way, not even as the beginning of a line. -/
theorem follow_written_marker (ctx : Context) {n : Nat} (path rest : Text)
    (hlimit : (Nat.toDigits 10 n).length ≤ Marker.digitLimit) :
    let line := Marker.render n path ++ rest
    let seen := ctx.position.filesSeen
    (Marker.read? line).isSome ∧
      ctx.take (.marker line) =
        (⟨ctx.keywords, ⟨path, n, if path ∈ seen then seen else seen ++ [path]⟩, ctx.ledger⟩,
          none) ∧
      ∀ (n' : Nat) (path' rest' : Text), Marker.render n' path' ++ rest' = line →
        n' = n ∧ path' = path := by
  intro line seen
  have hread : Marker.read? line = some ⟨Nat.toDigits 10 n, path⟩ := Marker.read?_render n path rest
  refine ⟨by rw [hread]; rfl, ?_, fun n' path' rest' hsame => ?_⟩
  · rw [Context.take, hread]
    simp only [Context.follow, Position.follow, Marker.number?_toDigits path hlimit]
    rfl
  · have hread' := Marker.read?_render n' path' rest'
    rw [hsame, hread, Option.some.injEq, Marker.mk.injEq] at hread'
    obtain ⟨hdigits, rfl⟩ := hread'
    -- The digits say which number they were written for.
    have hnumber := congrArg decimalNumber hdigits
    rw [decimalNumber_toDigits, decimalNumber_toDigits] at hnumber
    exact ⟨hnumber.symm, rfl⟩

/-- A path with quotes, runs of backslashes and a line feed, and a backslash at its end, in front
of more quotes. -/
theorem follow_written_marker_of_quoted_path :
    let path := "a\"\\\\\n\\\"é\\".toList
    let line := Marker.render (7 : Nat) path ++ "\" 1 \"b\"".toList
    let ctx := (Context.initial []).take (.marker line)
    (Nat.toDigits 10 7).length ≤ Marker.digitLimit ∧ (Marker.read? line).isSome ∧
      ctx = (⟨[], ⟨path, 7, [path]⟩, .empty⟩, none) ∧
      ∀ (n' : Nat) (path' rest' : Text), Marker.render n' path' ++ rest' = line →
        n' = 7 ∧ path' = path := by
  intro path line ctx
  have hlimit : (Nat.toDigits 10 7).length ≤ Marker.digitLimit := by decide
  obtain ⟨hread, hfollow, hother⟩ :=
    follow_written_marker (Context.initial []) path "\" 1 \"b\"".toList hlimit
  exact ⟨hlimit, hread, hfollow, hother⟩

/-! ### Positions told from the lines -/

/-- The line of the stream is a marker. -/
def isMarker (raw : Text) : Bool :=
  (Marker.read? (Text.trim raw)).isSome

/-- The markers among lines of a stream. -/
def markersOf (lines : List Text) : List Marker :=
  lines.filterMap fun raw => Marker.read? (Text.trim raw)

/-- The lines behind the last marker, all lines if there is none. -/
def behindMarkers (lines : List Text) : List Text :=
  (lines.reverse.takeWhile fun raw => !isMarker raw).reverse

/-- The position behind lines of a stream. The file is that of the last marker, and the number is
that of the last marker and of the lines behind it. The files seen are those of all markers, each
where it is named first. -/
def Position.behind (lines : List Text) : Position :=
  let last := (markersOf lines).getLast?
  ⟨(last.map Marker.path).getD "<stdin>".toList,
    (last.map fun m => decimalNumber m.digits).getD 1 + (behindMarkers lines).length,
    ((markersOf lines).map Marker.path).eraseDups⟩

/-- The record is that of a declaration on one of the lines, and its place is the position behind
all lines in front of that one. -/
def Record.ReadFrom (keywords : List Text) (kind : Kind) (lines : List Text) (r : Record) : Prop :=
  ∃ above raw below, lines = above ++ raw :: below ∧
    filing? keywords (.behind above) raw = some ⟨kind, r⟩

/-- Repeated names behind a list come to nothing, and a new one is put at the end. -/
theorem eraseDups_append_singleton (names : List Text) (name : Text) :
    (names ++ [name]).eraseDups =
      if name ∈ names.eraseDups then names.eraseDups else names.eraseDups ++ [name] := by
  rw [List.eraseDups_append]
  by_cases hname : name ∈ names <;> simp [List.removeAll, hname, List.eraseDups_cons]

/-- One more line moves the position as reading it does, if its number can be read. -/
theorem Position.behind_append_singleton (lines : List Text) {raw : Text}
    (hraw : NumberReadable raw) :
    Position.behind (lines ++ [raw]) = (Position.behind lines).after raw := by
  cases hmarker : Marker.read? (Text.trim raw) with
  | some marker =>
    have hmarkers : markersOf (lines ++ [raw]) = markersOf lines ++ [marker] := by
      simp [markersOf, hmarker]
    have hbehind : behindMarkers (lines ++ [raw]) = [] := by
      simp [behindMarkers, isMarker, hmarker]
    have hnumber : marker.number? = some (decimalNumber marker.digits) :=
      if_pos (hraw marker hmarker)
    simp only [behind, after, hmarker, follow, hnumber, hmarkers, hbehind, List.getLast?_concat,
      List.map_append, List.map_singleton, eraseDups_append_singleton]
    simp
  | none =>
    have hmarkers : markersOf (lines ++ [raw]) = markersOf lines := by
      simp [markersOf, hmarker]
    have hbehind : behindMarkers (lines ++ [raw]) = behindMarkers lines ++ [raw] := by
      simp [behindMarkers, isMarker, hmarker]
    simp only [behind, after, hmarker, hmarkers, hbehind, List.length_append, List.length_singleton]
    simp [Int.add_assoc]

/-- Reading lines whose numbers can be read leads to the position behind them. -/
theorem Position.foldl_after {lines : List Text} (hlines : ∀ raw ∈ lines, NumberReadable raw) :
    lines.foldl Position.after .initial = .behind lines := by
  induction lines using List.reverseRecOn with
  | nil => rfl
  | append_singleton lines raw ih =>
    rw [List.forall_mem_append, List.forall_mem_singleton] at hlines
    rw [List.foldl_append, ih hlines.1, Position.behind_append_singleton lines hlines.2]
    rfl

/-! ### Records -/

namespace Ledger

/-- A conflict is that of the declaration being resolved. -/
theorem record_of_resolve {l : Ledger} {kind : Kind} {record : Record} {c : Conflict}
    (h : (l.resolve kind record).2 = some c) : c.record = record := by
  have hfile (h : (l.fileDefinition record).2 = some c) : c.record = record := by
    revert h
    fun_cases fileDefinition l record <;> rintro ⟨⟩
    rfl
  cases kind with
  | prototype =>
    revert h
    rw [resolve]
    fun_cases resolvePrototype l record with
    | case1 | case2 =>
      rintro ⟨⟩
      rfl
    | case3 hfirst =>
      intro h
      obtain ⟨prior, -, rfl⟩ := Option.map_eq_some_iff.mp h
      rfl
  | definition =>
    revert h
    rw [resolve]
    fun_cases resolveDefinition l record with
    | case1 | case3 => exact hfile
    | case2 =>
      rintro ⟨⟩
      rfl

/-- The records filed under a kind. -/
def filed (l : Ledger) : Kind → List Record
  | .prototype => l.prototypes.records
  | .definition => l.definitions.records

/-- Resolving a declaration files no other record than its own, and that under its kind. -/
theorem Resolved.mem_filed {l next : Ledger} {record : Record} {kind : Kind}
    {conflict : Option Conflict} (h : l.Resolved record kind next conflict) {k : Kind} {r : Record}
    (hr : r ∈ next.filed k) : r ∈ l.filed k ∨ kind = k ∧ record = r := by
  cases h with
  | refused hcode => exact .inl hr
  | prototype | late | definition =>
    cases k <;> simp_all [filed, Registry.insert, eq_comm]

/-- Every record of resolved declarations was there before or is that of a declaration of its
kind. -/
theorem mem_filed_resolveAll {l : Ledger} {ds : List Filing} {k : Kind} {r : Record}
    (hr : r ∈ (l.resolveAll ds).1.filed k) : r ∈ l.filed k ∨ ⟨k, r⟩ ∈ ds := by
  induction ds generalizing l with
  | nil => exact .inl hr
  | cons d ds ih =>
    have hstep := l.resolve_resolved d.kind d.record
    have hfirst {next : Ledger} {conflict : Option Conflict}
        (hresolve : l.resolve d.kind d.record = (next, conflict)) (hnext : r ∈ next.filed k) :
        r ∈ l.filed k ∨ ⟨k, r⟩ ∈ d :: ds := by
      rw [hresolve] at hstep
      refine (hstep.mem_filed hnext).imp_right ?_
      rintro ⟨rfl, rfl⟩
      exact List.mem_cons_self
    rw [resolveAll] at hr
    cases hresolve : l.resolve d.kind d.record with
    | mk next conflict =>
      rw [hresolve] at hr
      cases conflict with
      | none => exact (ih hr).elim (hfirst hresolve) fun hd => .inr (List.mem_cons_of_mem d hd)
      | some c => exact hfirst hresolve hr

end Ledger

/-! ### Runs -/

namespace Context

/-- A context that has read lines from the start of a stream: it stands behind them, and every
record has the kind and the place of a declaration on one of them. -/
structure HasRead (ctx : Context) (keywords : List Text) (lines : List Text) : Prop where
  /-- The position is the one behind the lines. -/
  position : ctx.position = .behind lines
  /-- The records come from the lines. -/
  records : ∀ kind, ∀ r ∈ ctx.ledger.filed kind, r.ReadFrom keywords kind lines

variable {keywords : List Text} {lines : List Text} {last : Context}

/-- The records of a run over lines whose numbers can be read come from the lines. -/
theorem readFrom_of_check {halt : Option Halt} (hlines : ∀ raw ∈ lines, NumberReadable raw)
    (hcheck : (initial keywords).check lines = (last, halt)) {kind : Kind} {r : Record}
    (hr : r ∈ last.ledger.filed kind) : r.ReadFrom keywords kind lines := by
  have hledger := ((initial keywords).check_eq_resolveAll hlines).1
  rw [hcheck] at hledger
  rw [hledger] at hr
  have hempty : r ∉ Ledger.empty.filed kind := by
    cases kind <;> exact List.not_mem_nil
  have hfiling : ⟨kind, r⟩ ∈ filings keywords .initial lines :=
    (Ledger.mem_filed_resolveAll hr).resolve_left hempty
  obtain ⟨before, after, hsplit⟩ := List.append_of_mem hfiling
  obtain ⟨above, raw, below, rfl, -, hd⟩ := filings_eq_append_cons hsplit
  rw [Position.foldl_after fun line hline => hlines line (List.mem_append_left _ hline)] at hd
  exact ⟨above, raw, below, rfl, hd⟩

/-- A run that reads everything has read all lines. -/
theorem hasRead_of_check_eq_none (hcheck : (initial keywords).check lines = (last, none)) :
    last.HasRead keywords lines := by
  have hnone : ((initial keywords).check lines).2 = none := by rw [hcheck]
  have hlines := numberReadable_of_check_eq_none hnone
  refine ⟨?_, fun kind r hr => readFrom_of_check hlines hcheck hr⟩
  rw [← Position.foldl_after hlines]
  have hposition := position_check_of_eq_none hnone
  rwa [hcheck] at hposition

/-- A line that stops a run by a conflict is no marker. -/
theorem content_of_conflict {ctx : Context} {raw : Text} {c : Conflict}
    (hread : (ctx.readLine raw).2 = some (.conflict c)) : Marker.read? (Text.trim raw) = none := by
  cases hmarker : Marker.read? (Text.trim raw) with
  | none => rfl
  | some marker =>
    rw [readLine, hmarker] at hread
    exact absurd hread ((ctx.follow_ledger marker).2 c)

/-- A run that stops by a conflict has read all lines up to the one with the offending
declaration, whose record has the place of that line. -/
theorem hasRead_of_conflict {above : List Text} {raw : Text} {mid : Context} {c : Conflict}
    (habove : (initial keywords).check above = (mid, none))
    (hraw : mid.readLine raw = (last, some (.conflict c))) :
    last.HasRead keywords (above ++ [raw]) ∧
      ∃ kind, filing? keywords (.behind above) raw = some ⟨kind, c.record⟩ := by
  have hcheck : (initial keywords).check (above ++ [raw]) = (last, some (.conflict c)) := by
    rw [check_append, habove]
    simp only [check, hraw]
  have hreadable : ∀ line ∈ above, NumberReadable line :=
    numberReadable_of_check_eq_none (by rw [habove])
  have hcontent : NumberReadable raw :=
    numberReadable_of_content (content_of_conflict (by rw [hraw]))
  have hlines : ∀ line ∈ above ++ [raw], NumberReadable line := by
    rw [List.forall_mem_append, List.forall_mem_singleton]
    exact ⟨hreadable, hcontent⟩
  have hposition : last.position = .behind (above ++ [raw]) := by
    rw [Position.behind_append_singleton above hcontent,
      ← (hasRead_of_check_eq_none habove).position]
    have hstep := mid.readLine_eq hcontent
    rw [hraw] at hstep
    exact congrArg (fun outcome => outcome.1.position) hstep
  refine ⟨⟨hposition, fun kind r hr => readFrom_of_check hlines hcheck hr⟩, ?_⟩
  -- The declarations in front are resolved without a conflict, so it is met at the last line.
  have hresolve := ((initial keywords).check_eq_resolveAll hlines).2
  have hfirst := ((initial keywords).check_eq_resolveAll hreadable).2
  rw [habove, eq_comm, Option.map_eq_none_iff] at hfirst
  rw [hcheck, filings_append, Ledger.resolveAll_append] at hresolve
  generalize (initial keywords).ledger.resolveAll _ = outcome at hfirst hresolve
  obtain ⟨next, conflict⟩ := outcome
  obtain rfl : conflict = none := hfirst
  have hposition : List.foldl Position.after (initial keywords).position above = .behind above :=
    Position.foldl_after hreadable
  rw [hposition] at hresolve
  cases hfiling : filing? keywords (.behind above) raw with
  | none =>
    simp [filings, show (initial keywords).keywords = keywords from rfl, hfiling,
      Ledger.resolveAll] at hresolve
  | some d =>
    have hsingle : filings (initial keywords).keywords (.behind above) [raw] = [d] := by
      simp [filings, show (initial keywords).keywords = keywords from rfl, hfiling]
    simp only [hsingle, Ledger.resolveAll_singleton] at hresolve
    obtain ⟨c', hc', hsame⟩ := Option.map_eq_some_iff.mp hresolve.symm
    obtain rfl : c' = c := by simpa using hsame
    exact ⟨d.kind, by rw [Ledger.record_of_resolve hc']⟩

end Context

/-- Wherever a run over a stream ends, be it at the end of the stream or at the first conflict, its
position is told by the lines that it has read: the file is that of the last marker, the number
that of the last marker and of all lines behind it, and the files seen are those of the markers,
each where it is named first. Every record has the place behind the lines in front of its own
line, and so has the record that stops the run, whose line is the last one read. -/
theorem check_stands_behind_lines {keywords : List Text} {lines : List Text} {last : Context}
    {halt : Option Halt} (hcheck : (Context.initial keywords).check lines = (last, halt))
    (hreadable : ∀ digits, halt ≠ some (.longNumber digits)) :
    ∃ read rest, lines = read ++ rest ∧ (Context.initial keywords).check read = (last, halt) ∧
      last.HasRead keywords read ∧ (halt = none → rest = []) ∧
      ∀ c, halt = some (.conflict c) → ∃ above raw, read = above ++ [raw] ∧
        ((Context.initial keywords).check above).2 = none ∧
        ∃ kind, filing? keywords (.behind above) raw = some ⟨kind, c.record⟩ := by
  cases halt with
  | none =>
    exact ⟨lines, [], by rw [List.append_nil], hcheck, Context.hasRead_of_check_eq_none hcheck,
      fun _ => rfl, nofun⟩
  | some halt =>
    cases halt with
    | longNumber digits => exact absurd rfl (hreadable digits)
    | conflict c =>
      obtain ⟨above, raw, below, mid, rfl, habove, hraw⟩ := Context.check_eq_some_iff.mp hcheck
      obtain ⟨hread, hrecord⟩ := Context.hasRead_of_conflict habove hraw
      refine ⟨above ++ [raw], below, by simp, ?_, hread, nofun, ?_⟩
      · exact Context.check_eq_some_iff.mpr ⟨above, raw, [], mid, rfl, habove, hraw⟩
      · rintro c' ⟨⟩
        exact ⟨above, raw, rfl, by rw [habove], hrecord⟩

/-- Markers that name a file again and go back in number, with a blank line between them. The
prototype on the seventh line is the second one. -/
theorem check_stands_behind_repeated_marker :
    let lines := ["#5 \"a.h\"", "int f(void);", "", "#2 \"b.c\"", "#3 \"a.h\"", "x = 1;",
      " int f(void);", "#9 \"c.c\""].map String.toList
    let run := (Context.initial []).check lines
    let f (line : Int) : Record := ⟨['f'], "int f(void)".toList, "a.h".toList, line⟩
    run.2 = some (.conflict ⟨.duplicatePrototype, f 4, f 5⟩) ∧
      (∀ digits, run.2 ≠ some (.longNumber digits)) ∧
      run.1.position = ⟨"a.h".toList, 5, ["a.h".toList, "b.c".toList]⟩ ∧
      ∃ read rest, lines = read ++ rest ∧ (Context.initial []).check read = run ∧
        run.1.HasRead [] read ∧ (run.2 = none → rest = []) ∧
        ∀ c, run.2 = some (.conflict c) → ∃ above raw, read = above ++ [raw] ∧
          ((Context.initial []).check above).2 = none ∧
          ∃ kind, filing? [] (.behind above) raw = some ⟨kind, c.record⟩ := by
  intro lines run f
  have hhalt : run.2 = some (.conflict ⟨.duplicatePrototype, f 4, f 5⟩) := by decide +kernel
  have hreadable : ∀ digits, run.2 ≠ some (.longNumber digits) := by simp [hhalt]
  have hposition : run.1.position = ⟨"a.h".toList, 5, ["a.h".toList, "b.c".toList]⟩ := by
    decide +kernel
  exact ⟨hhalt, hreadable, hposition, check_stands_behind_lines rfl hreadable⟩

end PrototypeGate

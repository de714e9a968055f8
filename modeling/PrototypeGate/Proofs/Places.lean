import PrototypeGate.Proofs.Cleanness
import PrototypeGate.Proofs.Composition
import PrototypeGate.Proofs.Spacing

/-!
# What holds between two elements

A scan comes to one place before every element of a source and to one at its end. This file
states what the parts of its state have to do with one another at every place, whatever the source
looks like, and that every place lies further on than the one before it.
-/

namespace PrototypeGate

namespace Scan

/-- The state of a scan fits together behind a text. -/
structure Coherent (s : Scan) (before : Text) : Prop where
  /-- The source lines are counted from one. -/
  line_eq : s.line = 1 + before.newlines
  /-- Nothing is being built inside braces. -/
  inside : 0 < s.depth → s.pending = [] ∧ s.start = none ∧ s.parens = 0
  /-- The line being built has a number exactly if it shows a character. -/
  start_iff : s.start.isSome ↔ ∃ c ∈ s.pending, isBlank c = false
  /-- The number is that of a source line up to the current one. -/
  start_range : ∀ n ∈ s.start, 1 ≤ n ∧ n ≤ s.line
  /-- The line being built has a number if a parenthesis is open on it. -/
  parens : 0 < s.parens → s.start.isSome
  /-- No line with a greater number has been finished. -/
  emitted : ∀ line ∈ s.emitted, line.number ≤ s.start.getD s.line

variable {s : Scan}

/-- At every place of a source nothing is pending inside braces. -/
theorem clearInside_of_mem_course {t rest : Text} (h : (s, rest) ∈ initial.course t) :
    s.ClearInside := by
  obtain ⟨above, rfl⟩ := exists_foldl_of_mem_course h
  have hinitial : initial.ClearInside := nofun
  exact List.foldlRecOn above absorb hinitial fun s hs e _ => hs.absorb e

/-- Of a scan that numbers its lines in order, no finished line has a greater number than the
line being built or, if that has none, than the current source line. -/
theorem Ordered.number_le (h : s.Ordered) {line : Line} (hline : line ∈ s.emitted) :
    line.number ≤ s.start.getD s.line := by
  have hfinished : line.number ∈ s.emitted.reverse.map Line.number :=
    List.mem_map_of_mem (List.mem_reverse.mpr hline)
  cases hstart : s.start with
  | none => exact h.within _ (List.mem_append_left _ hfinished)
  | some n =>
    obtain ⟨-, -, hle⟩ := List.pairwise_append.mp h.sorted
    exact hle _ hfinished n (by simp [hstart])

/-- At every place of a source the state of the scan fits together. -/
theorem coherent_of_mem_course {before rest : Text}
    (h : (s, rest) ∈ initial.course (before ++ rest)) : s.Coherent before := by
  have hnumbered : s.start.isNone = s.pending.all isBlank := numbered_of_mem_course h
  have hordered : s.Ordered := ordered_of_mem_course h
  refine ⟨line_of_mem_course h, fun hdepth => ?_, ?_, fun n hn => ?_, start_of_parens h,
    fun line hline => hordered.number_le hline⟩
  · obtain ⟨hpending, hparens⟩ := clearInside_of_mem_course h hdepth
    rw [hpending] at hnumbered
    exact ⟨hpending, Option.isNone_iff_eq_none.mp hnumbered, hparens⟩
  · rw [← Bool.not_eq_false, Option.isSome_eq_false_iff, hnumbered]
    simp
  · have hbegun : n ∈ s.begun := List.mem_append_right _ (by simpa using hn)
    exact ⟨hordered.positive n hbegun, hordered.within n hbegun⟩

/-! ### Places in a text -/

/-- What is left at a place of a scan is the end of its text. -/
theorem suffix_of_mem_course {s' : Scan} {t rest : Text} (h : (s', rest) ∈ s.course t) :
    rest <:+ t := by
  obtain ⟨line, hblank⟩ := s.exists_line
  obtain ⟨above, below, hcut, -, rfl⟩ := (mem_course_iff hblank t).mp h
  rw [← flatMap_source_segmentFrom line t, hcut, List.flatMap_append]
  exact List.suffix_append _ _

/-- Less is left at every later place of a scan. -/
theorem pairwise_course (s : Scan) (t : Text) :
    (s.course t).Pairwise fun place later => later.2.length < place.2.length := by
  fun_induction course s t with
  | case1 s => exact List.pairwise_singleton _ _
  | case2 s c rest ih =>
    refine List.pairwise_cons.mpr ⟨fun later hlater => ?_, ih⟩
    have hstep := length_step_le s c rest
    have hrest := (suffix_of_mem_course hlater).length_le
    exact Nat.lt_succ_of_le (hrest.trans hstep)

/-- The last place of a scan is the end of its text. -/
theorem getLast?_course (s : Scan) (t : Text) : (s.course t).getLast? = some (s.run t, []) := by
  fun_induction course s t with
  | case1 s => simp [run]
  | case2 s c rest ih => rw [List.getLast?_cons, ih, run, Option.getD_some]

/-- The places of a scan of a source, each as its index in the source and the state there. -/
def places (t : Text) : List (Nat × Scan) :=
  (initial.course t).map fun place => (t.length - place.2.length, place.1)

end Scan

/-- At every place the scan has gone over as much of the source as the index of the place says,
and its state fits together. The index grows from place to place, from the beginning of the source
to its end. -/
theorem places_coherent (t : Text) :
    (∀ i s, (i, s) ∈ Scan.places t →
      i ≤ t.length ∧ (s, t.drop i) ∈ Scan.initial.course t ∧ s.Coherent (t.take i)) ∧
      (Scan.places t).Pairwise (fun place later => place.1 < later.1) ∧
      (Scan.places t).head? = some (0, Scan.initial) ∧
      (Scan.places t).getLast? = some (t.length, Scan.initial.run t) := by
  refine ⟨fun i s hplace => ?_, ?_, ?_, ?_⟩
  · obtain ⟨⟨s, rest⟩, hcourse, hindex⟩ := List.mem_map.mp hplace
    obtain ⟨before, rfl⟩ := Scan.exists_append_of_mem_course hcourse
    obtain ⟨rfl, rfl⟩ := Prod.mk.inj hindex
    have hlength : (before ++ rest).length - rest.length = before.length := by simp
    simp only [hlength, List.drop_left, List.take_left]
    exact ⟨by simp, hcourse, Scan.coherent_of_mem_course hcourse⟩
  · rw [Scan.places, List.pairwise_map]
    refine (Scan.pairwise_course _ t).imp_of_mem fun hplace _ hshorter => ?_
    have hle := (Scan.suffix_of_mem_course hplace).length_le
    simp only
    omega
  · cases t <;> simp [Scan.places, Scan.course]
  · simp [Scan.places, Scan.getLast?_course]

/-- A source with a stray brace, a line feed inside parentheses, a literal over a line feed, a
brace that is not closed and a literal that ends with a backslash is gone over to its end. Behind
the first literal a line is being built, behind the brace none. -/
theorem places_coherent_of_unclosed_source :
    let t := "\x7d\nf(\n'\\\n'\x7b\"\\".toList
    let building : Scan := ⟨4, 0, 1, false, "'' (f".toList, some 2, []⟩
    let last : Scan := ⟨4, 1, 0, false, [], none, [⟨2, "f( ''".toList⟩]⟩
    (Scan.places t).map Prod.fst = [0, 1, 2, 3, 4, 5, 9, 10, 12] ∧
      (9, building) ∈ Scan.places t ∧ building.Coherent (t.take 9) ∧
      (12, last) ∈ Scan.places t ∧ last.Coherent (t.take 12) := by
  intro t building last
  have hbuilding : (9, building) ∈ Scan.places t := by decide +kernel
  have hlast : (12, last) ∈ Scan.places t := by decide +kernel
  have hcoherent := (places_coherent t).1
  exact ⟨by decide +kernel, hbuilding, (hcoherent 9 building hbuilding).2.2, hlast,
    (hcoherent 12 last hlast).2.2⟩

end PrototypeGate

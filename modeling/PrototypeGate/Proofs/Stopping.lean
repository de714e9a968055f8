import PrototypeGate.Proofs.Consistency

/-!
# Where a run stops

A run over any stream ends in one of three ways: it reads everything, it meets a conflict,
or it meets a marker whose line number has too many digits. What comes first decides. This
file says for each of the ways when it happens, in terms of the lines alone.
-/

namespace PrototypeGate

/-- The line is a marker whose line number has the given number of digits, and these are too
many. -/
def NumberTooLong (raw : Text) (digits : Nat) : Prop :=
  ∃ marker, Marker.read? (Text.trim raw) = some marker ∧ marker.digits.length = digits ∧
    Marker.digitLimit < digits

/-- A line number that cannot be read has too many digits. -/
theorem not_numberReadable_iff {raw : Text} :
    ¬NumberReadable raw ↔ ∃ digits, NumberTooLong raw digits := by
  simp [NumberReadable, NumberTooLong]

private theorem exists_first_unreadable {lines : List Text}
    (h : ¬∀ raw ∈ lines, NumberReadable raw) :
    ∃ above raw below, lines = above ++ raw :: below ∧ (∀ line ∈ above, NumberReadable line) ∧
      ¬NumberReadable raw := by
  induction lines with
  | nil => simp at h
  | cons line rest ih =>
    by_cases hline : NumberReadable line
    · have hrest : ¬∀ raw ∈ rest, NumberReadable raw := fun hrest =>
        h (List.forall_mem_cons.mpr ⟨hline, hrest⟩)
      obtain ⟨above, raw, below, rfl, habove, hraw⟩ := ih hrest
      exact ⟨line :: above, raw, below, rfl, List.forall_mem_cons.mpr ⟨hline, habove⟩, hraw⟩
    · exact ⟨[], line, rest, rfl, by simp, hline⟩

namespace Context

variable {keywords : List Text} {p : Position}

/-- A run stops at a line if the lines before do not stop it and the line does. -/
theorem check_eq_some_iff {ctx last : Context} {lines : List Text} {halt : Halt} :
    ctx.check lines = (last, some halt) ↔
      ∃ above raw below mid, lines = above ++ raw :: below ∧ ctx.check above = (mid, none) ∧
        mid.readLine raw = (last, some halt) := by
  constructor
  · intro hcheck
    induction lines generalizing ctx with
    | nil => simp [check] at hcheck
    | cons raw rest ih =>
      cases hread : ctx.readLine raw with
      | mk next stop =>
        rw [check, hread] at hcheck
        cases stop with
        | some stop =>
          rw [Prod.mk.injEq, Option.some.injEq] at hcheck
          obtain ⟨rfl, rfl⟩ := hcheck
          exact ⟨[], raw, rest, ctx, rfl, rfl, hread⟩
        | none =>
          obtain ⟨above, line, below, mid, rfl, habove, hline⟩ := ih hcheck
          refine ⟨raw :: above, line, below, mid, rfl, ?_, hline⟩
          rw [check, hread]
          exact habove
  · rintro ⟨above, raw, below, mid, rfl, habove, hraw⟩
    rw [check_append, habove]
    simp only [check, hraw]

/-- A run over lines whose numbers can be read ends without a conflict exactly if the
declarations are consistent. -/
theorem check_eq_none_of_readable {lines : List Text}
    (hlines : ∀ raw ∈ lines, NumberReadable raw) :
    ((⟨keywords, p, .empty⟩ : Context).check lines).2 = none ↔
      Consistent (filings keywords p lines) := by
  rw [(check_eq_resolveAll _ hlines).2, Option.map_eq_none_iff, resolveAll_eq_none_iff]

/-- Lines with inconsistent declarations end a run by a conflict, whatever follows them. -/
theorem check_of_inconsistent {lines : List Text}
    (hlines : ∀ raw ∈ lines, NumberReadable raw)
    (hbad : ¬Consistent (filings keywords p lines)) (rest : List Text) :
    ∃ c, ((⟨keywords, p, .empty⟩ : Context).check (lines ++ rest)).2 = some (.conflict c) := by
  have hhalt := (check_eq_resolveAll ⟨keywords, p, .empty⟩ hlines).2
  obtain ⟨c, hc⟩ := Option.ne_none_iff_exists'.mp (resolveAll_eq_none_iff.not.mpr hbad)
  rw [hc, Option.map_some] at hhalt
  rw [check_append]
  generalize (⟨keywords, p, .empty⟩ : Context).check lines = outcome at hhalt
  obtain ⟨next, halt⟩ := outcome
  subst hhalt
  exact ⟨c, rfl⟩

/-- A marker with too many digits ends a run that has come so far. -/
theorem check_of_numberTooLong {above : List Text} {raw : Text} {digits : Nat}
    (habove : ∀ line ∈ above, NumberReadable line)
    (hgood : Consistent (filings keywords p above)) (hraw : NumberTooLong raw digits)
    (below : List Text) :
    ((⟨keywords, p, .empty⟩ : Context).check (above ++ raw :: below)).2 =
      some (.longNumber digits) := by
  obtain ⟨marker, hmarker, rfl, hdigits⟩ := hraw
  have hnone := (check_eq_none_of_readable habove).mpr hgood
  have hnumber : marker.number? = none := if_neg (by omega)
  rw [check_append]
  generalize (⟨keywords, p, .empty⟩ : Context).check above = outcome at hnone
  obtain ⟨next, halt⟩ := outcome
  subst hnone
  simp only [check, readLine, hmarker, follow, Position.follow, hnumber]

/-- The three ways a run can end. -/
theorem check_cases (keywords : List Text) (p : Position) (lines : List Text) :
    ((∀ raw ∈ lines, NumberReadable raw) ∧ Consistent (filings keywords p lines)) ∨
      (∃ read rest, lines = read ++ rest ∧ (∀ raw ∈ read, NumberReadable raw) ∧
        ¬Consistent (filings keywords p read)) ∨
      ∃ above raw below digits, lines = above ++ raw :: below ∧
        (∀ line ∈ above, NumberReadable line) ∧ Consistent (filings keywords p above) ∧
        NumberTooLong raw digits := by
  by_cases hlines : ∀ raw ∈ lines, NumberReadable raw
  · by_cases hgood : Consistent (filings keywords p lines)
    · exact .inl ⟨hlines, hgood⟩
    · exact .inr (.inl ⟨lines, [], by simp, hlines, hgood⟩)
  · obtain ⟨above, raw, below, rfl, habove, hraw⟩ := exists_first_unreadable hlines
    obtain ⟨digits, hdigits⟩ := not_numberReadable_iff.mp hraw
    by_cases hgood : Consistent (filings keywords p above)
    · exact .inr (.inr ⟨above, raw, below, digits, rfl, habove, hgood, hdigits⟩)
    · exact .inr (.inl ⟨above, raw :: below, rfl, habove, hgood⟩)

/-- A run reads everything exactly if every line number can be read and the declarations
are consistent. -/
theorem check_eq_none_iff {lines : List Text} :
    ((⟨keywords, p, .empty⟩ : Context).check lines).2 = none ↔
      (∀ raw ∈ lines, NumberReadable raw) ∧ Consistent (filings keywords p lines) := by
  constructor
  · intro hnone
    rcases check_cases keywords p lines with hdone | ⟨read, rest, rfl, hread, hbad⟩ |
      ⟨above, raw, below, digits, rfl, habove, hgood, hraw⟩
    · exact hdone
    · obtain ⟨c, hc⟩ := check_of_inconsistent hread hbad rest
      simp [hc] at hnone
    · simp [check_of_numberTooLong habove hgood hraw below] at hnone
  · rintro ⟨hlines, hgood⟩
    exact (check_eq_none_of_readable hlines).mpr hgood

/-- A run ends by a conflict exactly if some beginning of the stream has readable line
numbers and inconsistent declarations. -/
theorem check_eq_conflict_iff {lines : List Text} :
    (∃ c, ((⟨keywords, p, .empty⟩ : Context).check lines).2 = some (.conflict c)) ↔
      ∃ read rest, lines = read ++ rest ∧ (∀ raw ∈ read, NumberReadable raw) ∧
        ¬Consistent (filings keywords p read) := by
  constructor
  · rintro ⟨c, hc⟩
    rcases check_cases keywords p lines with ⟨hlines, hgood⟩ | hbad |
      ⟨above, raw, below, digits, rfl, habove, hgood, hraw⟩
    · simp [(check_eq_none_of_readable hlines).mpr hgood] at hc
    · exact hbad
    · simp [check_of_numberTooLong habove hgood hraw below] at hc
  · rintro ⟨read, rest, rfl, hread, hbad⟩
    exact check_of_inconsistent hread hbad rest

/-- A run ends at a marker with too many digits exactly if the lines before it have readable
numbers and consistent declarations. -/
theorem check_eq_longNumber_iff {lines : List Text} {digits : Nat} :
    ((⟨keywords, p, .empty⟩ : Context).check lines).2 = some (.longNumber digits) ↔
      ∃ above raw below, lines = above ++ raw :: below ∧
        (∀ line ∈ above, NumberReadable line) ∧ Consistent (filings keywords p above) ∧
        NumberTooLong raw digits := by
  constructor
  · intro hlong
    rcases check_cases keywords p lines with ⟨hlines, hgood⟩ | ⟨read, rest, rfl, hread, hbad⟩ |
      ⟨above, raw, below, found, rfl, habove, hgood, hraw⟩
    · simp [(check_eq_none_of_readable hlines).mpr hgood] at hlong
    · obtain ⟨c, hc⟩ := check_of_inconsistent hread hbad rest
      simp [hc] at hlong
    · rw [check_of_numberTooLong habove hgood hraw below] at hlong
      obtain rfl : found = digits := by simpa using hlong
      exact ⟨above, raw, below, rfl, habove, hgood, hraw⟩
  · rintro ⟨above, raw, below, rfl, habove, hgood, hraw⟩
    exact check_of_numberTooLong habove hgood hraw below

end Context

end PrototypeGate

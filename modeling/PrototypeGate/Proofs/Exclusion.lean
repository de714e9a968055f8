import PrototypeGate.Proofs.Classification

/-!
# Lines with excluded openings

Statements and register declarations can have the shape of a declaration. A line that begins
with `return`, with `else` or with a storage keyword is therefore no prototype, whatever
follows. Headers of definitions are held back by `else` only: without a semicolon, a line
that begins with `return` or with a storage keyword is a definition if it is a header.
-/

namespace PrototypeGate

open Grammar

/-- What is left for a line that begins with a statement or a storage keyword. It holds no
prototype, and it is a definition exactly if it is a header without semicolons that does not
begin with `else`. So a semicolon or `else` makes it nothing. -/
theorem classify_of_excluded_opening {keywords : List Text} {line word : Text}
    (hword : word ∈ "return".toList :: "else".toList :: keywords) (hopens : OpensWith line word) :
    (∀ found, classify keywords line = some found ↔
        found = ⟨.definition, line⟩ ∧ ';' ∉ line ∧ ¬OpensWith line "else".toList ∧
          line ∈ header) ∧
      (';' ∈ line ∨ OpensWith line "else".toList → classify keywords line = none) := by
  have hfound : ∀ found, classify keywords line = some found ↔
      found = ⟨.definition, line⟩ ∧ ';' ∉ line ∧ ¬OpensWith line "else".toList ∧
        line ∈ header := by
    rintro ⟨kind, t⟩
    cases kind with
    | prototype =>
      have hnone : classify keywords line ≠ some ⟨.prototype, t⟩ := fun h =>
        (classify_eq_prototype_iff.mp h).1 word hword hopens
      simp [hnone]
    | definition =>
      rw [classify_eq_definition_iff]
      simp
  refine ⟨hfound, fun hexcluded => Option.eq_none_iff_forall_ne_some.mpr fun found h => ?_⟩
  obtain ⟨-, hsemicolon, helse, -⟩ := (hfound found).mp h
  exact hexcluded.elim hsemicolon helse

/-- A register declaration on one line is nothing, and it is a definition when it is wrapped
after its address. -/
theorem classify_of_register_declaration :
    let keywords := Dialect.sdcc.storageKeywords.map String.toList
    let wrapped := "__sfr __at(0x80)".toList
    let whole := "__sfr __at(0x80) P0;".toList
    "__sfr".toList ∈ "return".toList :: "else".toList :: keywords ∧
      OpensWith wrapped "__sfr".toList ∧ OpensWith whole "__sfr".toList ∧
      wrapped ∈ header ∧ classify keywords wrapped = some ⟨.definition, wrapped⟩ ∧
      classify keywords whole = none := by
  intro keywords wrapped whole
  have hword : "__sfr".toList ∈ "return".toList :: "else".toList :: keywords := by decide
  have hwrapped : OpensWith wrapped "__sfr".toList := beginsWith_iff.mp (by decide +kernel)
  have hwhole : OpensWith whole "__sfr".toList := beginsWith_iff.mp (by decide +kernel)
  have hheader : wrapped ∈ header := Header.isSome_ofLine?_iff.mp (by decide +kernel)
  have helse : ¬OpensWith wrapped "else".toList :=
    excludesDefinition_eq_false_iff.mp (by decide +kernel)
  exact ⟨hword, hwrapped, hwhole, hheader,
    ((classify_of_excluded_opening hword hwrapped).1 _).mpr ⟨rfl, by decide, helse, hheader⟩,
    (classify_of_excluded_opening hword hwhole).2 (.inl (by decide))⟩

/-- Without a semicolon, lines that begin with a storage keyword or with `return` are taken
for definitions. -/
theorem definitions_with_excluded_openings :
    let keywords := Dialect.sdcc.storageKeywords.map String.toList
    let wrapped := "__sfr __at(0x80)".toList
    let call := "return f(x)".toList
    "__sfr".toList ∈ keywords ∧ OpensWith wrapped "__sfr".toList ∧
      classify keywords wrapped = some ⟨.definition, wrapped⟩ ∧
      OpensWith call "return".toList ∧ classify keywords call = some ⟨.definition, call⟩ := by
  intro keywords wrapped call
  have hwrapped : OpensWith wrapped "__sfr".toList := beginsWith_iff.mp (by decide +kernel)
  have hcall : OpensWith call "return".toList := beginsWith_iff.mp (by decide +kernel)
  exact ⟨by decide, hwrapped, by decide +kernel, hcall, by decide +kernel⟩

end PrototypeGate

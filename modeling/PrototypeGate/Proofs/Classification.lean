import PrototypeGate.Check.Context
import PrototypeGate.Proofs.Blank
import PrototypeGate.Proofs.HeaderReading

/-!
# What a line declares

A line is a definition header if it is a header by the grammar, and it holds a prototype if
a header in it ends at a semicolon. The prototype that the search finds is the leftmost
one; since no header ends at a semicolon inside another, it is also the one that ends first.
-/

namespace PrototypeGate

open Grammar

/-! ### Prototypes in a line -/

/-- A header ends at the end of `p`, and a semicolon follows `p` in the line. -/
structure PrototypeEndsAt (line p : Text) : Prop where
  /-- A semicolon follows in the line. -/
  terminated : ∃ rest, line = p ++ ';' :: rest
  /-- A header stands before it. -/
  declared : ∃ s, s <:+ p ∧ s ∈ header

/-- The first place of a line where a prototype ends. -/
structure FirstPrototypeEnd (line p : Text) : Prop where
  /-- A prototype ends there. -/
  ends : PrototypeEndsAt line p
  /-- No prototype ends before. -/
  first : ∀ q, PrototypeEndsAt line q → p.length ≤ q.length

/-- A line has one first place where a prototype ends. -/
theorem FirstPrototypeEnd.unique {line p q : Text} (hp : FirstPrototypeEnd line p)
    (hq : FirstPrototypeEnd line q) : p = q := by
  obtain ⟨v, hv⟩ := hp.ends.terminated
  obtain ⟨w, hw⟩ := hq.ends.terminated
  have hlength := Nat.le_antisymm (hp.first q hq.ends) (hq.first p hp.ends)
  exact (List.append_inj (hv.symm.trans hw) hlength).1

/-- A header that ends at a semicolon begins with the line or behind its first character. -/
theorem prototypeEndsAt_cons {c : Char} {line p : Text} (h : PrototypeEndsAt (c :: line) p) :
    p ∈ header ∨ ∃ q, p = c :: q ∧ PrototypeEndsAt line q := by
  obtain ⟨⟨rest, hrest⟩, s, ⟨before, rfl⟩, hs⟩ := h
  cases before with
  | nil => exact Or.inl hs
  | cons d before =>
    obtain ⟨rfl, hline⟩ := List.cons.inj hrest
    exact Or.inr ⟨before ++ s, rfl, ⟨rest, hline⟩, s, List.suffix_append _ _, hs⟩

namespace Header

/-- A header in front of a semicolon is read. -/
theorem read?_of_terminated {t : Text} (ht : t ∈ header) (rest : Text) :
    (read? (fun r => r.head? == some ';') (t ++ ';' :: rest)).isSome = true :=
  read?_complete ht (by simp [EndsHeader]) rfl

/-- The search finds the first place of the line where a prototype ends. -/
theorem firstPrototypeEnd_of_search? {line before after : Text} {h : Header}
    (hfound : search? line = some (before, h, after)) :
    FirstPrototypeEnd line (before ++ h.text) := by
  induction line generalizing before with
  | nil => simp [search?] at hfound
  | cons c line ih =>
    rw [search?] at hfound
    cases hread : read? (fun r => r.head? == some ';') (c :: line) with
    | some found =>
      obtain ⟨header', rest⟩ := found
      rw [hread] at hfound
      obtain ⟨rfl, rfl, rfl⟩ : [] = before ∧ header' = h ∧ rest.tail = after := by
        simpa using hfound
      obtain ⟨hline, hmem, hsemicolon⟩ := read?_sound hread
      obtain ⟨rest, rfl⟩ := List.head?_eq_some_iff.mp (eq_of_beq hsemicolon)
      refine ⟨⟨⟨rest, hline⟩, header'.text, List.suffix_append _ _, hmem⟩, ?_⟩
      -- A prototype that ended before would end inside the header that was read.
      rintro q ⟨⟨behind, hq⟩, s, ⟨front, rfl⟩, hs⟩
      by_contra hshort
      rw [List.nil_append, not_le] at hshort
      rcases List.append_eq_append_iff.mp (hline.symm.trans hq) with ⟨more, hmore, -⟩ |
        ⟨more, hmore, hrest⟩
      · rw [hmore, List.length_append] at hshort
        omega
      · cases more with
        | nil => simp [hmore] at hshort
        | cons d more =>
          obtain ⟨rfl, -⟩ := List.cons.inj hrest
          exact not_mem_header_of_semicolon (hmore ▸ hmem) hs
    | none =>
      rw [hread] at hfound
      obtain ⟨⟨before', found⟩, hsearch, heq⟩ := Option.map_eq_some_iff.mp hfound
      obtain ⟨rfl, rfl⟩ := Prod.mk.inj heq
      obtain ⟨⟨⟨rest, hrest⟩, s, hsuffix, hs⟩, hfirst⟩ := ih hsearch
      refine ⟨⟨⟨rest, by rw [hrest]; rfl⟩, s, hsuffix.trans (List.suffix_cons _ _), hs⟩, ?_⟩
      intro q hq
      obtain ⟨behind, hbehind⟩ := hq.terminated
      rcases prototypeEndsAt_cons hq with hwhole | ⟨tail, rfl, htail⟩
      · have hsome := read?_of_terminated hwhole behind
        rw [← hbehind, hread] at hsome
        cases hsome
      · have := hfirst tail htail
        simp only [List.cons_append, List.length_cons]
        omega

/-- The search finds nothing exactly if no prototype ends in the line. -/
theorem search?_eq_none_iff {line : Text} : search? line = none ↔ ∀ p, ¬PrototypeEndsAt line p := by
  constructor
  · intro hnone p hp
    induction line generalizing p with
    | nil =>
      obtain ⟨rest, hrest⟩ := hp.terminated
      simp at hrest
    | cons c line ih =>
      rw [search?] at hnone
      cases hread : read? (fun r => r.head? == some ';') (c :: line) with
      | some found => simp [hread] at hnone
      | none =>
        rw [hread] at hnone
        obtain ⟨rest, hrest⟩ := hp.terminated
        rcases prototypeEndsAt_cons hp with hwhole | ⟨tail, rfl, htail⟩
        · have hsome := read?_of_terminated hwhole rest
          rw [← hrest, hread] at hsome
          cases hsome
        · exact ih (Option.map_eq_none_iff.mp hnone) tail htail
  · intro hnone
    cases hfound : search? line with
    | none => rfl
    | some found =>
      obtain ⟨before, h, after⟩ := found
      exact absurd (firstPrototypeEnd_of_search? hfound).ends (hnone _)

end Header

/-! ### Excluded lines -/

/-- The line begins with the word, and a word boundary follows. -/
structure OpensWith (line word : Text) : Prop where
  /-- The word is not empty. -/
  nonempty : word ≠ []
  /-- What follows the word does not go on with it. -/
  boundary : ∃ rest, line = word ++ rest ∧
    (word.getLast?.any isWord) ≠ (rest.head?.any isWord)

/-- The test for a keyword is whether the line begins with it at a word boundary. -/
theorem beginsWith_iff {line word : Text} : beginsWith line word = true ↔ OpensWith line word := by
  simp only [beginsWith, isBoundary, Bool.and_eq_true, decide_eq_true_eq, bne_iff_ne,
    List.isPrefixOf_iff_prefix]
  constructor
  · rintro ⟨⟨hne, rest, rfl⟩, hboundary⟩
    rw [List.drop_left] at hboundary
    exact ⟨hne, rest, rfl, hboundary⟩
  · rintro ⟨hne, rest, rfl, hboundary⟩
    refine ⟨⟨hne, rest, rfl⟩, ?_⟩
    rwa [List.drop_left]

/-- A line can hold a prototype unless it begins with a statement or with a keyword. -/
theorem excludesPrototype_eq_false_iff {keywords : List Text} {line : Text} :
    excludesPrototype keywords line = false ↔
      ∀ word ∈ "return".toList :: "else".toList :: keywords, ¬OpensWith line word := by
  simp only [excludesPrototype, List.any_eq_false, beginsWith_iff]
  rfl

/-- A line can be a definition header unless it begins with `else`. -/
theorem excludesDefinition_eq_false_iff {line : Text} :
    excludesDefinition line = false ↔ ¬OpensWith line "else".toList := by
  rw [excludesDefinition, ← beginsWith_iff, Bool.not_eq_true]

/-! ### Classification -/

/-- A line without semicolons holds no prototype. -/
theorem search?_eq_none_of_not_mem {line : Text} (h : ';' ∉ line) : Header.search? line = none := by
  rw [Header.search?_eq_none_iff]
  rintro p ⟨⟨rest, rfl⟩, -⟩
  exact h (by simp)

/-- A line is classified as a definition exactly if it is a header by the grammar, without
semicolons, and does not begin with `else`. -/
theorem classify_eq_definition_iff {keywords : List Text} {line t : Text} :
    classify keywords line = some ⟨.definition, t⟩ ↔
      t = line ∧ ';' ∉ line ∧ ¬OpensWith line "else".toList ∧ line ∈ header := by
  rw [← excludesDefinition_eq_false_iff, ← Header.isSome_ofLine?_iff]
  constructor
  · intro h
    cases hfound : Header.search? line with
    | some found =>
      rw [classify, hfound] at h
      dsimp only at h
      split_ifs at h
      simp at h
    | none =>
      rw [classify, hfound] at h
      dsimp only at h
      split_ifs at h with hexcluded
      obtain ⟨header', hheader, heq⟩ := Option.map_eq_some_iff.mp h
      simp only [Bool.or_eq_true, not_or, Bool.not_eq_true] at hexcluded
      refine ⟨by simpa using heq.symm, ?_, hexcluded.2, by rw [hheader]; rfl⟩
      exact fun hmem => by simp [hmem] at hexcluded
  · rintro ⟨rfl, hsemicolon, helse, hheader⟩
    obtain ⟨h, hh⟩ := Option.isSome_iff_exists.mp hheader
    rw [classify, search?_eq_none_of_not_mem hsemicolon]
    simp [hsemicolon, helse, hh]

/-- A line is classified as a prototype exactly if a prototype ends in it and it begins
with no excluded word; the text is what stands before the semicolon of the first one. -/
theorem classify_eq_prototype_iff {keywords : List Text} {line t : Text} :
    classify keywords line = some ⟨.prototype, t⟩ ↔
      (∀ word ∈ "return".toList :: "else".toList :: keywords, ¬OpensWith line word) ∧
        ∃ p, FirstPrototypeEnd line p ∧ t = Text.trimRight p := by
  rw [← excludesPrototype_eq_false_iff]
  cases hfound : Header.search? line with
  | some found =>
    obtain ⟨before, h, after⟩ := found
    have hfirst := Header.firstPrototypeEnd_of_search? hfound
    have hend : (∃ p, FirstPrototypeEnd line p ∧ t = Text.trimRight p) ↔
        t = Text.trimRight (before ++ h.text) := by
      constructor
      · rintro ⟨p, hp, rfl⟩
        rw [hp.unique hfirst]
      · exact fun ht => ⟨_, hfirst, ht⟩
    rw [classify, hfound, hend]
    cases excludesPrototype keywords line <;> simp [eq_comm]
  | none =>
    have hnone : ¬∃ p, FirstPrototypeEnd line p ∧ t = Text.trimRight p := by
      rintro ⟨p, hp, -⟩
      exact Header.search?_eq_none_iff.mp hfound p hp.ends
    rw [classify, hfound]
    dsimp only
    constructor
    · intro h
      split_ifs at h
      simp at h
    · exact fun h => absurd h.2 hnone

/-- A line is classified as nothing exactly if it is no definition and holds no prototype,
or begins with a word that excludes the one it is or holds. -/
theorem classify_eq_none_iff {keywords : List Text} {line : Text} :
    classify keywords line = none ↔
      ¬(';' ∉ line ∧ ¬OpensWith line "else".toList ∧ line ∈ header) ∧
        ¬((∀ word ∈ "return".toList :: "else".toList :: keywords, ¬OpensWith line word) ∧
          ∃ p, PrototypeEndsAt line p) := by
  constructor
  · intro hnone
    constructor
    · rintro hdefinition
      simp [classify_eq_definition_iff.mpr ⟨rfl, hdefinition⟩] at hnone
    · rintro ⟨hopens, p, hp⟩
      cases hfound : Header.search? line with
      | none => exact Header.search?_eq_none_iff.mp hfound p hp
      | some found =>
        have hfirst := Header.firstPrototypeEnd_of_search? hfound
        simp [classify_eq_prototype_iff.mpr ⟨hopens, _, hfirst, rfl⟩] at hnone
  · rintro ⟨hdefinition, hprototype⟩
    rw [Option.eq_none_iff_forall_ne_some]
    rintro ⟨kind, text⟩ hfound
    cases kind with
    | definition => exact hdefinition (classify_eq_definition_iff.mp hfound).2
    | prototype =>
      obtain ⟨hopens, p, hp, -⟩ := classify_eq_prototype_iff.mp hfound
      exact hprototype ⟨hopens, p, hp.ends⟩

/-- The classifier accepts exactly the grammar. A line is a definition exactly if it is a
header without semicolons that does not begin with `else`. It is a prototype exactly if it
does not begin with a statement or a storage keyword and a prototype ends in it, and the
text is what stands before the first semicolon at which one ends, without the white space
at its end. It is nothing in all other cases. -/
theorem classify_by_grammar (keywords : List Text) (line : Text) :
    (∀ t, classify keywords line = some ⟨.definition, t⟩ ↔
      t = line ∧ ';' ∉ line ∧ ¬OpensWith line "else".toList ∧ line ∈ header) ∧
    (∀ t, classify keywords line = some ⟨.prototype, t⟩ ↔
      (∀ word ∈ "return".toList :: "else".toList :: keywords, ¬OpensWith line word) ∧
        ∃ p, FirstPrototypeEnd line p ∧ t = Text.trimRight p) ∧
    (classify keywords line = none ↔
      ¬(';' ∉ line ∧ ¬OpensWith line "else".toList ∧ line ∈ header) ∧
        ¬((∀ word ∈ "return".toList :: "else".toList :: keywords, ¬OpensWith line word) ∧
          ∃ p, PrototypeEndsAt line p)) :=
  ⟨fun _ => classify_eq_definition_iff, fun _ => classify_eq_prototype_iff, classify_eq_none_iff⟩

/-- A semicolon in the group of a qualifier ends no prototype. -/
example : classify [] "int f(int a) at(1; 2) ; int g(void);".toList =
    some ⟨.prototype, "int f(int a) at(1; 2)".toList⟩ := by decide +kernel

end PrototypeGate

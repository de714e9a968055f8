import PrototypeGate.Proofs.Classification

/-!
# The name of a declaration

The name of a declaration is read from its text: it is the word before the first parenthesis
that opens. A definition is a header from its first character on, and no parenthesis opens in a
header before its parameter list, so the name is always the one in front of that list. A
prototype is looked for anywhere in its line, and its text is everything in front of the
semicolon. Its name is the one in front of the parameter list whenever no parenthesis opens
before the header. Otherwise it is the word before the earlier parenthesis, whatever function
the header is of, so the two agree only by chance.
-/

namespace PrototypeGate

open Grammar
open scoped Computability

/-! ### The word before a parenthesis -/

/-- The text ends with the word, with white space behind it at most, and the word begins at the
beginning of the text or behind a separator. -/
def EndsWithWord (text word : Text) : Prop :=
  ∃ front gap, text = front ++ word ++ gap ∧ (∀ c ∈ front.getLast?, isSeparator c = true) ∧
    ∀ c ∈ gap, isBlank c = true

/-- A parenthesis opens in the text, and the text before the first one ends with the word. -/
def NamedBeforeParen (text word : Text) : Prop :=
  ∃ stem rest, text = stem ++ '(' :: rest ∧ '(' ∉ stem ∧ EndsWithWord stem word

private theorem forall_ne_paren {stem : Text} (hstem : '(' ∉ stem) :
    ∀ c ∈ stem, decide (c ≠ '(') = true := by
  intro c hc
  have hne : c ≠ '(' := fun h => hstem (h ▸ hc)
  simpa using hne

/-- Only the text before the first parenthesis counts for the name. -/
theorem declaredName_append_paren {stem : Text} (hstem : '(' ∉ stem) (rest : Text) :
    declaredName (stem ++ '(' :: rest) = declaredName stem := by
  have hplain := forall_ne_paren hstem
  have hopen : ∀ c ∈ ('(' :: rest).head?, decide (c ≠ '(') = false := by simp
  have hhead : (stem ++ '(' :: rest).takeWhile (· ≠ '(') = stem.takeWhile (· ≠ '(') := by
    rw [(span_append hplain hopen).1, List.takeWhile_eq_self_iff.mpr hplain]
  rw [declaredName, declaredName, hhead]

/-- In a text without parentheses the name is what stands behind the last separator, when the
white space at the end is dropped. -/
theorem declaredName_of_not_mem {stem : Text} (hstem : '(' ∉ stem) :
    declaredName stem =
      ((Text.trimRight stem).reverse.takeWhile fun c => !isSeparator c).reverse := by
  rw [declaredName, List.takeWhile_eq_self_iff.mpr (forall_ne_paren hstem)]

/-- A text without parentheses ends with the name that is read. -/
theorem endsWithWord_declaredName {stem : Text} (hstem : '(' ∉ stem) :
    EndsWithWord stem (declaredName stem) := by
  obtain ⟨gap, hgap, hsplit⟩ := exists_trimRight_append stem
  let inWord (c : Char) : Bool := !isSeparator c
  let reversed := (Text.trimRight stem).reverse
  have hname : declaredName stem = (reversed.takeWhile inWord).reverse :=
    declaredName_of_not_mem hstem
  refine ⟨(reversed.dropWhile inWord).reverse, gap, ?_, ?_, hgap⟩
  · calc stem = reversed.reverse ++ gap := by rw [List.reverse_reverse, hsplit]
      _ = (reversed.takeWhile inWord ++ reversed.dropWhile inWord).reverse ++ gap := by
        rw [List.takeWhile_append_dropWhile]
      _ = (reversed.dropWhile inWord).reverse ++ declaredName stem ++ gap := by
        rw [List.reverse_append, hname]
  · intro c hc
    rw [List.getLast?_reverse] at hc
    have hstop := head?_dropWhile_of_mem c hc
    simpa [inWord] using hstop

/-- A name at the end of a text without parentheses is the one that is read. -/
theorem EndsWithWord.declaredName_eq {stem word : Text} (h : EndsWithWord stem word)
    (hstem : '(' ∉ stem) (hword : word ∈ Grammar.name) : declaredName stem = word := by
  rw [declaredName_of_not_mem hstem]
  obtain ⟨front, gap, rfl, hfront, hgap⟩ := h
  obtain ⟨d, rest, hcons, -⟩ := mem_name_iff.mp hword
  have hne : word ≠ [] := by simp [hcons]
  have hlast : ∀ c ∈ (front ++ word).getLast?, isBlank c = false := by
    intro c hc
    rw [List.getLast?_append_of_ne_nil _ hne] at hc
    exact isBlank_of_isWord (isWord_of_mem_name hword c (List.mem_of_getLast? hc))
  have hrun : ∀ c ∈ word.reverse, (!isSeparator c) = true := by
    intro c hc
    have hletter := isWord_of_mem_name hword c (List.mem_reverse.mp hc)
    simp [isSeparator_of_isWord hletter]
  have hstop : ∀ c ∈ front.reverse.head?, (!isSeparator c) = false := by
    intro c hc
    rw [List.head?_reverse] at hc
    simp [hfront c hc]
  rw [trimRight_append_blanks _ hgap, trimRight_of_last hlast, List.reverse_append,
    (span_append hrun hstop).1, List.reverse_reverse]

/-- In a text with a parenthesis the name that is read is the word before the first one. -/
theorem declaredName_eq_iff_namedBeforeParen {text word : Text} (htext : '(' ∈ text)
    (hword : word ∈ Grammar.name) : declaredName text = word ↔ NamedBeforeParen text word := by
  constructor
  · intro hname
    obtain ⟨stem, rest, rfl, hstem⟩ := List.eq_append_cons_of_mem htext
    rw [declaredName_append_paren hstem] at hname
    exact ⟨stem, rest, rfl, hstem, hname ▸ endsWithWord_declaredName hstem⟩
  · rintro ⟨stem, rest, rfl, hstem, hends⟩
    rw [declaredName_append_paren hstem]
    exact hends.declaredName_eq hstem hword

/-- What stands behind a text with a parenthesis does not count for the name. -/
theorem declaredName_append_of_mem {text : Text} (htext : '(' ∈ text) (rest : Text) :
    declaredName (text ++ rest) = declaredName text := by
  obtain ⟨stem, behind, rfl, hstem⟩ := List.eq_append_cons_of_mem htext
  rw [List.append_assoc, List.cons_append, declaredName_append_paren hstem,
    declaredName_append_paren hstem]

/-- White space at the end of a text with a parenthesis does not count for the name. -/
theorem declaredName_trimRight {text : Text} (htext : '(' ∈ text) :
    declaredName (Text.trimRight text) = declaredName text := by
  obtain ⟨stem, rest, rfl, hstem⟩ := List.eq_append_cons_of_mem htext
  rw [trimRight_append_cons (by decide), declaredName_append_paren hstem,
    declaredName_append_paren hstem]

/-! ### The name in a header -/

/-- A function header whose parameter list has this name in front of it. -/
def HeaderOf (word h : Text) : Prop :=
  word ∈ Grammar.name ∧ ∃ lead ∈ token * token∗, ∃ gap params behind,
    (∀ c ∈ gap, isBlank c = true) ∧ ';' ∉ params ∧ behind ∈ qualifiers ∧
      h = lead ++ word ++ gap ++ '(' :: (params ++ ')' :: behind)

/-- Every header has a name in front of its parameter list. -/
theorem mem_header_iff_exists_headerOf {h : Text} : h ∈ header ↔ ∃ word, HeaderOf word h := by
  rw [mem_header_iff]
  constructor
  · rintro ⟨before, params, behind, hbefore, hparams, hbehind, rfl⟩
    obtain ⟨lead, hlead, word, hword, gap, hgap, rfl⟩ := mem_words_iff.mp hbefore
    exact ⟨word, hword, lead, hlead, gap, params, behind, hgap, hparams, hbehind, rfl⟩
  · rintro ⟨word, hword, lead, hlead, gap, params, behind, hgap, hparams, hbehind, rfl⟩
    exact ⟨lead ++ word ++ gap, params, behind,
      mem_words_iff.mpr ⟨lead, hlead, word, hword, gap, hgap, rfl⟩, hparams, hbehind, rfl⟩

/-- The name of a header is the word before the first parenthesis, also behind a text without
parentheses. -/
theorem HeaderOf.namedBeforeParen {word h before : Text} (hh : HeaderOf word h)
    (hbefore : '(' ∉ before) (rest : Text) : NamedBeforeParen (before ++ h ++ rest) word := by
  obtain ⟨hword, lead, hlead, gap, params, behind, hgap, -, -, rfl⟩ := hh
  have hwords : lead ++ word ++ gap ∈ words :=
    mem_words_iff.mpr ⟨lead, hlead, word, hword, gap, hgap, rfl⟩
  have hnone : '(' ∉ lead ++ word ++ gap := by
    intro hmem
    rcases isWord_or_isSeparator_of_mem_words hwords _ hmem with hc | hc <;> revert hc <;> decide
  have hlast : ∀ c ∈ (before ++ lead).getLast?, isSeparator c = true := by
    have hne : lead ≠ [] := by
      rintro rfl
      simpa using Header.head?_any_of_mem hlead
    rw [List.getLast?_append_of_ne_nil _ hne]
    exact Header.isSeparator_getLast?_of_mem hlead
  refine ⟨before ++ (lead ++ word ++ gap), params ++ ')' :: (behind ++ rest), by simp, ?_, ?_⟩
  · rw [List.mem_append, not_or]
    exact ⟨hbefore, hnone⟩
  · exact ⟨before ++ lead, gap, by simp, hlast, hgap⟩

/-- The name that is read from a header, with any text behind it, is the one in front of its
parameter list. -/
theorem HeaderOf.declaredName_append {word h : Text} (hh : HeaderOf word h) (rest : Text) :
    declaredName (h ++ rest) = word := by
  have hnone : '(' ∉ ([] : Text) := by simp
  have hnamed := hh.namedBeforeParen hnone rest
  rw [List.nil_append] at hnamed
  have hparen : '(' ∈ h ++ rest := by
    obtain ⟨stem, behind, hstem, -⟩ := hnamed
    simp [hstem]
  exact (declaredName_eq_iff_namedBeforeParen hparen hh.1).mpr hnamed

/-- A header has one name in front of its parameter list, and it is the one that is read. -/
theorem HeaderOf.iff_eq_declaredName {word h : Text} (hh : HeaderOf word h) (other : Text) :
    HeaderOf other h ↔ other = declaredName h := by
  have hname : ∀ w, HeaderOf w h → declaredName h = w := fun w hw => by
    simpa using hw.declaredName_append []
  constructor
  · exact fun hother => (hname other hother).symm
  · rintro rfl
    rwa [hname word hh]

/-- In front of the name of a header stands a text that ends with a separator. -/
theorem HeaderOf.exists_before_name {word h : Text} (hh : HeaderOf word h) :
    ∃ before gap rest, h = before ++ word ++ gap ++ '(' :: rest ∧
      (∃ c, before.getLast? = some c ∧ isSeparator c = true) ∧ '(' ∉ before ∧
      ∀ c ∈ gap, isBlank c = true := by
  obtain ⟨hword, lead, hlead, gap, params, behind, hgap, -, -, rfl⟩ := hh
  refine ⟨lead, gap, params ++ ')' :: behind, rfl, ?_, ?_, hgap⟩
  · have hne : lead ≠ [] := by
      rintro rfl
      simpa using Header.head?_any_of_mem hlead
    have hlast := List.getLast?_eq_some_getLast hne
    exact ⟨_, hlast, Header.isSeparator_getLast?_of_mem hlead _ hlast⟩
  · have hwords : lead ++ word ++ gap ∈ words :=
      mem_words_iff.mpr ⟨lead, hlead, word, hword, gap, hgap, rfl⟩
    intro hparen
    have hclass := isWord_or_isSeparator_of_mem_words hwords '(' (by simp [hparen])
    revert hclass
    decide

/-- A line that is classified as a definition has one name in front of its parameter list, and
is filed under it: an identifier behind a separator, with white space at most before the first
parenthesis of the line. -/
theorem definition_filed_under_own_name {keywords : List Text} {line t : Text}
    (h : classify keywords line = some ⟨.definition, t⟩) :
    t = line ∧ declaredName line ∈ Grammar.name ∧
      (∀ word, HeaderOf word line ↔ word = declaredName line) ∧
      ∃ before gap rest, line = before ++ declaredName line ++ gap ++ '(' :: rest ∧
        (∃ c, before.getLast? = some c ∧ isSeparator c = true) ∧ '(' ∉ before ∧
        ∀ c ∈ gap, isBlank c = true := by
  obtain ⟨ht, -, -, hheader⟩ := classify_eq_definition_iff.mp h
  obtain ⟨word, hword⟩ := mem_header_iff_exists_headerOf.mp hheader
  have honly := hword.iff_eq_declaredName
  have hname : HeaderOf (declaredName line) line := (honly _).mpr rfl
  exact ⟨ht, hname.1, honly, hname.exists_before_name⟩

/-- A definition with parentheses in its parameters and in its qualifiers is filed under the
name in front of the parameters. -/
theorem definition_with_qualifiers_filed_under_own_name :
    let line := "char **f_1 (int (*p)(void), ...) __using(1) __at (2)".toList
    classify [] line = some ⟨.definition, line⟩ ∧ declaredName line = "f_1".toList ∧
      ∀ word, HeaderOf word line ↔ word = "f_1".toList := by
  intro line
  have hclass : classify [] line = some ⟨.definition, line⟩ := by decide +kernel
  have hname : declaredName line = "f_1".toList := by decide +kernel
  obtain ⟨-, -, honly, -⟩ := definition_filed_under_own_name hclass
  rw [hname] at honly
  exact ⟨hclass, hname, honly⟩

/-! ### The leftmost prototype -/

/-- The leftmost prototype of the line begins behind `before` and is one of the function with
this name. -/
structure LeftmostPrototype (line before word : Text) : Prop where
  /-- A header of the function stands there, and a semicolon follows. -/
  declared : ∃ h rest, HeaderOf word h ∧ line = before ++ h ++ ';' :: rest
  /-- No header in front of a semicolon begins earlier. -/
  leftmost : ∀ front h rest, h ∈ header → line = front ++ h ++ ';' :: rest →
    before.length ≤ front.length

/-- A line has one leftmost prototype at most. -/
theorem LeftmostPrototype.unique {line before word other name : Text}
    (h : LeftmostPrototype line before word) (h' : LeftmostPrototype line other name) :
    before = other ∧ word = name := by
  obtain ⟨s, rest, hs, hline⟩ := h.declared
  obtain ⟨s', rest', hs', hline'⟩ := h'.declared
  have hlength : before.length = other.length := Nat.le_antisymm
    (h.leftmost other s' rest' (mem_header_iff_exists_headerOf.mpr ⟨name, hs'⟩) hline')
    (h'.leftmost before s rest (mem_header_iff_exists_headerOf.mpr ⟨word, hs⟩) hline)
  rw [hline, List.append_assoc, List.append_assoc] at hline'
  obtain ⟨hbefore, htail⟩ := List.append_inj hline' hlength
  refine ⟨hbefore, ?_⟩
  rw [← hs.declaredName_append (';' :: rest), htail, hs'.declaredName_append]

/-- The search finds the leftmost prototype. -/
theorem leftmostPrototype_of_search? {line before after : Text} {h : Header}
    (hfound : Header.search? line = some (before, h, after)) :
    HeaderOf (declaredName h.text) h.text ∧
      LeftmostPrototype line before (declaredName h.text) := by
  induction line generalizing before with
  | nil => simp [Header.search?] at hfound
  | cons c line ih =>
    rw [Header.search?] at hfound
    cases hread : Header.read? (fun r => r.head? == some ';') (c :: line) with
    | some found =>
      obtain ⟨found, rest⟩ := found
      rw [hread] at hfound
      obtain ⟨rfl, rfl, rfl⟩ : [] = before ∧ found = h ∧ rest.tail = after := by
        simpa using hfound
      obtain ⟨hline, hmem, hsemicolon⟩ := Header.read?_sound hread
      obtain ⟨rest, rfl⟩ := List.head?_eq_some_iff.mp (eq_of_beq hsemicolon)
      obtain ⟨word, hword⟩ := mem_header_iff_exists_headerOf.mp hmem
      have hname : declaredName found.text = word := by
        simpa using hword.declaredName_append []
      rw [hname]
      exact ⟨hword, ⟨found.text, rest, hword, hline⟩, by simp⟩
    | none =>
      rw [hread] at hfound
      obtain ⟨⟨before', found⟩, hsearch, heq⟩ := Option.map_eq_some_iff.mp hfound
      obtain ⟨rfl, rfl⟩ := Prod.mk.inj heq
      obtain ⟨hheader, ⟨s, rest, hs, hdeclared⟩, hleftmost⟩ := ih hsearch
      refine ⟨hheader, ⟨s, rest, hs, by rw [hdeclared]; rfl⟩, ?_⟩
      intro front t behind ht hfront
      cases front with
      | nil =>
        -- A header at the beginning of the line would have been read.
        have hsome := Header.read?_of_terminated ht behind
        rw [← List.nil_append t, ← hfront, hread] at hsome
        cases hsome
      | cons d front =>
        have := hleftmost front t behind ht (List.cons.inj hfront).2
        simp only [List.length_cons]
        omega

/-- The text of a prototype goes up to the semicolon behind the leftmost one of its line. -/
theorem exists_search?_of_classify {keywords : List Text} {line t : Text}
    (h : classify keywords line = some ⟨.prototype, t⟩) :
    ∃ before found after, Header.search? line = some (before, found, after) ∧
      t = Text.trimRight (before ++ found.text) := by
  cases hfound : Header.search? line with
  | some found =>
    obtain ⟨before, found, after⟩ := found
    rw [classify, hfound] at h
    dsimp only at h
    split_ifs at h
    exact ⟨before, found, after, rfl, by simpa using h.symm⟩
  | none =>
    rw [classify, hfound] at h
    dsimp only at h
    split_ifs at h
    simp at h

/-- A line that is classified as a prototype has one leftmost prototype. The name under which it
is filed is the one in front of its parameter list exactly if no parenthesis opens in the line
before the header, or if the first one that does happens to stand behind the same name. Behind
such a parenthesis the text before the header alone decides about the name. -/
theorem prototype_filed_under_own_name_iff {keywords : List Text} {line t : Text}
    (h : classify keywords line = some ⟨.prototype, t⟩) :
    ∃ before word, (∀ b w, LeftmostPrototype line b w ↔ b = before ∧ w = word) ∧
      (declaredName t = word ↔ '(' ∉ before ∨ NamedBeforeParen before word) ∧
      ('(' ∈ before → declaredName t = declaredName before) := by
  obtain ⟨before, found, after, hsearch, rfl⟩ := exists_search?_of_classify h
  obtain ⟨hheader, hleftmost⟩ := leftmostPrototype_of_search? hsearch
  generalize declaredName found.text = word at hheader hleftmost
  have honly : ∀ b w, LeftmostPrototype line b w ↔ b = before ∧ w = word := by
    intro b w
    constructor
    · exact fun hother => hother.unique hleftmost
    · rintro ⟨rfl, rfl⟩
      exact hleftmost
  have hparen : '(' ∈ before ++ found.text := by
    simp [Header.text]
  refine ⟨before, word, honly, ?_⟩
  rw [declaredName_trimRight hparen]
  -- The first parenthesis stands before the header, or it opens the parameter list.
  by_cases hbefore : '(' ∈ before
  · rw [declaredName_append_of_mem hbefore, declaredName_eq_iff_namedBeforeParen hbefore hheader.1]
    simp [hbefore]
  · have hnamed := hheader.namedBeforeParen hbefore []
    rw [List.append_nil] at hnamed
    have hname := (declaredName_eq_iff_namedBeforeParen hparen hheader.1).mpr hnamed
    simp [hbefore, hname]

/-- A prototype behind a statement is filed under its own name, also if its parameter list has
parentheses inside. -/
theorem prototype_behind_statement_filed_under_own_name :
    let line := "int a; char *f(int (*p)(void));".toList
    let t := "int a; char *f(int (*p)(void))".toList
    classify ["__sfr".toList] line = some ⟨.prototype, t⟩ ∧
      (∀ b w, LeftmostPrototype line b w ↔ b = "int a; ".toList ∧ w = "f".toList) ∧
      declaredName t = "f".toList := by
  intro line t
  have hclass : classify ["__sfr".toList] line = some ⟨.prototype, t⟩ := by decide +kernel
  have hfound : Header.search? line = some ("int a; ".toList,
      ⟨"char *".toList, "f".toList, [], "int (*p)(void)".toList, []⟩, []) := by decide +kernel
  have hleftmost : LeftmostPrototype line "int a; ".toList "f".toList :=
    (leftmostPrototype_of_search? hfound).2
  obtain ⟨before, word, honly, hname, -⟩ := prototype_filed_under_own_name_iff hclass
  obtain ⟨rfl, rfl⟩ := (honly _ _).mp hleftmost
  exact ⟨hclass, honly, hname.mpr (Or.inl (by decide))⟩

/-- The prototypes of two functions behind an attribute with parentheses are filed under the name
of the attribute, and the second one ends the check as if it redeclared the first. -/
theorem attributed_prototypes_filed_under_one_name :
    let noreturn := "__attribute__((noreturn)) ".toList
    let f := noreturn ++ "void f(void);".toList
    let g := noreturn ++ "void g(int a);".toList
    LeftmostPrototype f noreturn "f".toList ∧ LeftmostPrototype g noreturn "g".toList ∧
      (∀ line ∈ [f, g], ∃ t, classify [] line = some ⟨.prototype, t⟩ ∧
        declaredName t = "__attribute__".toList) ∧
      ∃ last c, (Context.initial []).check [f, g] = (last, some (.conflict c)) ∧
        c.condition = .duplicatePrototypeMismatch := by
  intro noreturn f g
  have hf : Header.search? f = some (noreturn,
      ⟨"void ".toList, "f".toList, [], "void".toList, []⟩, []) := by decide +kernel
  have hg : Header.search? g = some (noreturn,
      ⟨"void ".toList, "g".toList, [], "int a".toList, []⟩, []) := by decide +kernel
  let record (signature : String) (line : Int) : Record :=
    ⟨"__attribute__".toList, noreturn ++ signature.toList, "<stdin>".toList, line⟩
  let first := record "void f(void)" 1
  let second := record "void g(int a)" 2
  have hrun : (Context.initial []).check [f, g] =
      (⟨[], ⟨"<stdin>".toList, 3, []⟩, ⟨⟨[first]⟩, .empty⟩⟩,
        some (.conflict ⟨.duplicatePrototypeMismatch, second, first⟩)) := by decide +kernel
  refine ⟨(leftmostPrototype_of_search? hf).2, (leftmostPrototype_of_search? hg).2, ?_, ?_⟩
  · rw [List.forall_mem_cons, List.forall_mem_singleton]
    exact ⟨⟨first.signature, by decide +kernel, by decide +kernel⟩,
      second.signature, by decide +kernel, by decide +kernel⟩
  · exact ⟨_, _, hrun, rfl⟩

end PrototypeGate

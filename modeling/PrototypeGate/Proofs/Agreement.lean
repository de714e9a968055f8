import PrototypeGate.Proofs.Classification
import PrototypeGate.Proofs.Filing
import PrototypeGate.Proofs.MarkerReading

/-!
# Prototypes and their definitions

The prototype of a function is the header of its definition with a semicolon behind it,
perhaps after white space and perhaps before more text. This file shows that the two agree:
the classifier gives both the same text, whatever parameters and qualifiers the header has,
so they have the same name, and a run that knows nothing of the function files the prototype
and then the definition without a conflict.
-/

namespace PrototypeGate

open Grammar

/-! ### Headers at the ends of a text -/

namespace Grammar

/-- White space behind a header belongs to it. -/
theorem append_blanks_mem_header {t blanks : Text} (ht : t ∈ header)
    (hblanks : ∀ c ∈ blanks, isBlank c = true) : t ++ blanks ∈ header := by
  obtain ⟨before, params, after, hbefore, hparams, hafter, rfl⟩ := mem_header_iff.mp ht
  obtain ⟨qs, hqs, spaces, hspaces, rfl⟩ := mem_qualifiers_iff.mp hafter
  have hend : qs.flatten ++ (spaces ++ blanks) ∈ qualifiers :=
    mem_qualifiers_iff.mpr ⟨qs, hqs, spaces ++ blanks,
      List.forall_mem_append.mpr ⟨hspaces, hblanks⟩, rfl⟩
  exact mem_header_iff.mpr ⟨before, params, _, hbefore, hparams, hend, by simp⟩

/-- A header begins with the character of a name. -/
theorem exists_cons_of_mem_header {t : Text} (ht : t ∈ header) :
    ∃ c rest, t = c :: rest ∧ isNameStart c = true := by
  obtain ⟨before, params, after, hbefore, -, -, rfl⟩ := mem_header_iff.mp ht
  obtain ⟨lead, hlead, word, -, gap, -, rfl⟩ := mem_words_iff.mp hbefore
  cases lead with
  | nil => simpa using Header.head?_any_of_mem hlead
  | cons c lead =>
    exact ⟨c, _, rfl, by simpa using Header.head?_any_of_mem hlead⟩

end Grammar

/-- A line that begins with a header is no marker. -/
theorem Marker.read?_trim_header_append {h : Text} (hmem : h ∈ header) (rest : Text) :
    read? (Text.trim (h ++ rest)) = none := by
  obtain ⟨c, tail, rfl, hc⟩ := exists_cons_of_mem_header hmem
  have hblank : isBlank c = false := isBlank_of_isWord (isWord_of_isNameStart hc)
  rw [List.cons_append, trim_cons hblank]
  refine read?_eq_none fun hhash => ?_
  obtain rfl : c = '#' := by simpa using hhash
  simp [isNameStart] at hc

/-- A line that begins with a header is trimmed at its end only. -/
theorem trim_header_append {h : Text} (hmem : h ∈ header) (rest : Text) :
    Text.trim (h ++ rest) = Text.trimRight (h ++ rest) := by
  obtain ⟨c, tail, rfl, hc⟩ := exists_cons_of_mem_header hmem
  have hblank : isBlank c = false := isBlank_of_isWord (isWord_of_isNameStart hc)
  rw [Text.trim, trimLeft_of_first (by simpa using hblank)]

/-! ### The prototype of a header -/

/-- A word that a line begins with when its end is trimmed is one that it begins with. -/
theorem OpensWith.of_trimRight {line word : Text} (h : OpensWith (Text.trimRight line) word) :
    OpensWith line word := by
  obtain ⟨blanks, hblanks, hline⟩ := exists_trimRight_append line
  obtain ⟨hne, rest, hrest, hboundary⟩ := h
  refine ⟨hne, rest ++ blanks, by rw [← hline, hrest, List.append_assoc], ?_⟩
  cases rest with
  | cons c rest => exact hboundary
  | nil =>
    -- Neither the end of a line nor white space goes on with a word.
    have hspace : blanks.head?.any isWord = false := by
      cases blanks with
      | nil => rfl
      | cons c blanks => exact isWord_of_isBlank (hblanks c List.mem_cons_self)
    rw [List.nil_append, hspace]
    exact hboundary

/-- A header without semicolons ends at the first prototype end of the line it begins. -/
theorem firstPrototypeEnd_of_mem_header {p : Text} (hp : p ∈ header) (hnone : ';' ∉ p)
    (rest : Text) : FirstPrototypeEnd (p ++ ';' :: rest) p := by
  refine ⟨⟨⟨rest, rfl⟩, p, List.suffix_rfl, hp⟩, ?_⟩
  rintro q ⟨⟨behind, hq⟩, -⟩
  rcases List.append_eq_append_iff.mp hq with ⟨middle, rfl, -⟩ | ⟨middle, rfl, hmiddle⟩
  · simp
  · cases middle with
    | nil => simp
    | cons c middle =>
      obtain ⟨rfl, -⟩ := List.cons.inj hmiddle
      exact absurd (by simp) hnone

/-- The text of a prototype whose header ends before white space is the header. -/
theorem classify_header_semicolon {keywords : List Text} {h w : Text} (rest : Text)
    (hmem : h ∈ header) (hnone : ';' ∉ h) (hend : ∀ c ∈ h.getLast?, isBlank c = false)
    (hblanks : ∀ c ∈ w, isBlank c = true)
    (hopens : ∀ word ∈ "return".toList :: "else".toList :: keywords,
      ¬OpensWith (h ++ w ++ ';' :: rest) word) :
    classify keywords (h ++ w ++ ';' :: rest) = some ⟨.prototype, h⟩ := by
  have hspace : ';' ∉ w := fun hmem => absurd (hblanks _ hmem) (by decide)
  have hfirst : FirstPrototypeEnd (h ++ w ++ ';' :: rest) (h ++ w) :=
    firstPrototypeEnd_of_mem_header (append_blanks_mem_header hmem hblanks)
      (by simp [hnone, hspace]) rest
  have htext : Text.trimRight (h ++ w) = h := by
    rw [trimRight_append_blanks h hblanks, trimRight_of_last hend]
  exact classify_eq_prototype_iff.mpr ⟨hopens, h ++ w, hfirst, htext.symm⟩

/-! ### Filing both -/

/-- A record is found under its name if none was filed under it before. -/
theorem Registry.find?_insert_of_find?_eq_none {r : Registry} {record : Record}
    (h : r.find? record.name = none) : (r.insert record).find? record.name = some record := by
  rw [Registry.find?] at h
  simp [Registry.find?, Registry.insert, List.find?_append, h]

/-- A prototype and a definition with its name and its text are both filed, if nothing was
filed under the name before. -/
theorem Ledger.resolveAll_prototype_definition (l : Ledger) (prototype definition : Record)
    (hname : definition.name = prototype.name)
    (htext : definition.signature = prototype.signature)
    (hprototypes : l.prototypes.find? prototype.name = none)
    (hdefinitions : l.definitions.find? prototype.name = none) :
    l.resolveAll [⟨.prototype, prototype⟩, ⟨.definition, definition⟩] =
      (⟨l.prototypes.insert prototype, l.definitions.insert definition⟩, none) := by
  have hfound := Registry.find?_insert_of_find?_eq_none hprototypes
  simp only [resolveAll, resolve, resolvePrototype, hprototypes, hdefinitions, Option.map_none,
    resolveDefinition, hname, hfound, htext, if_true, fileDefinition]

/-- The prototype and the header of a definition on two lines of a stream are filed with
the same name and the same text. -/
theorem filings_prototype_definition {keywords : List Text} {h w rest : Text} (p : Position)
    (hmem : h ∈ header) (hend : ∀ c ∈ h.getLast?, isBlank c = false)
    (hprototype : classify keywords (h ++ w ++ ';' :: Text.trimRight rest) = some ⟨.prototype, h⟩)
    (hdefinition : classify keywords h = some ⟨.definition, h⟩) :
    filings keywords p [h ++ w ++ ';' :: rest, h] =
      [⟨.prototype, ⟨declaredName h, h, p.file, p.nextLine⟩⟩,
        ⟨.definition, ⟨declaredName h, h, p.file, p.nextLine + 1⟩⟩] := by
  have hline : Text.trim (h ++ w ++ ';' :: rest) = h ++ w ++ ';' :: Text.trimRight rest := by
    rw [← trimRight_append_cons (by decide), List.append_assoc, trim_header_append hmem]
  have hheader : Text.trim h = h := by
    rw [← List.append_nil h, trim_header_append hmem, List.append_nil, trimRight_of_last hend]
  have hcontent := Marker.read?_trim_header_append hmem (w ++ ';' :: rest)
  have hheaderContent := Marker.read?_trim_header_append hmem []
  rw [← List.append_assoc, hline] at hcontent
  rw [List.append_nil, hheader] at hheaderContent
  simp only [filings, filing?, Position.after, hline, hheader, hcontent, hheaderContent,
    hprototype, hdefinition, Option.map_some, Option.toList_some, List.cons_append,
    List.nil_append]

/-- A prototype and the header of its definition agree. If a header without white space at
its end is classified as a definition, then the header with a semicolon behind it, perhaps
after white space and before more text, is classified as a prototype of the same text, and
so of the same name, unless the line begins with a statement or a storage keyword. A run in
which nothing is filed under the name reads the two lines without a conflict and files
both. -/
theorem prototype_agrees_with_header (ctx : Context) {h w : Text} (rest : Text)
    (hdefinition : classify ctx.keywords h = some ⟨.definition, h⟩)
    (hend : ∀ c ∈ h.getLast?, isBlank c = false) (hblanks : ∀ c ∈ w, isBlank c = true)
    (hopens : ∀ word ∈ "return".toList :: "else".toList :: ctx.keywords,
      ¬OpensWith (h ++ w ++ ';' :: rest) word) :
    classify ctx.keywords (h ++ w ++ ';' :: rest) = some ⟨.prototype, h⟩ ∧
      (classify ctx.keywords (h ++ w ++ ';' :: rest)).map (declaredName ·.text) =
        (classify ctx.keywords h).map (declaredName ·.text) ∧
      (ctx.ledger.prototypes.find? (declaredName h) = none →
        ctx.ledger.definitions.find? (declaredName h) = none →
          (ctx.check [h ++ w ++ ';' :: rest, h]).2 = none ∧
            (ctx.check [h ++ w ++ ';' :: rest, h]).1.ledger =
              ⟨ctx.ledger.prototypes.insert
                  ⟨declaredName h, h, ctx.position.file, ctx.position.nextLine⟩,
                ctx.ledger.definitions.insert
                  ⟨declaredName h, h, ctx.position.file, ctx.position.nextLine + 1⟩⟩) := by
  obtain ⟨-, hnone, -, hmem⟩ := classify_eq_definition_iff.mp hdefinition
  have hprototype := classify_header_semicolon rest hmem hnone hend hblanks hopens
  refine ⟨hprototype, by rw [hprototype, hdefinition]; rfl, fun hprototypes hdefinitions => ?_⟩
  have htrimmed : classify ctx.keywords (h ++ w ++ ';' :: Text.trimRight rest) =
      some ⟨.prototype, h⟩ := by
    refine classify_header_semicolon _ hmem hnone hend hblanks fun word hword hopen => ?_
    rw [← trimRight_append_cons (by decide)] at hopen
    exact hopens word hword hopen.of_trimRight
  have hlines : ∀ raw ∈ [h ++ w ++ ';' :: rest, h], NumberReadable raw := by
    simp only [List.forall_mem_cons, List.not_mem_nil]
    refine ⟨numberReadable_of_content ?_, numberReadable_of_content ?_, by simp⟩
    · rw [List.append_assoc, Marker.read?_trim_header_append hmem]
    · rw [← List.append_nil h, Marker.read?_trim_header_append hmem]
  obtain ⟨hledger, hhalt⟩ := ctx.check_eq_resolveAll hlines
  rw [filings_prototype_definition ctx.position hmem hend htrimmed hdefinition] at hledger hhalt
  have hboth := ctx.ledger.resolveAll_prototype_definition
    ⟨declaredName h, h, ctx.position.file, ctx.position.nextLine⟩
    ⟨declaredName h, h, ctx.position.file, ctx.position.nextLine + 1⟩
    rfl rfl hprototypes hdefinitions
  rw [hboth] at hledger hhalt
  exact ⟨hhalt, hledger⟩

/-- A header with a qualifier, white space before the semicolon and another prototype behind
it, in a run that has filed a function of another name. -/
theorem prototype_agrees_with_qualified_header :
    let other : Record := ⟨"g".toList, "int g(void)".toList, "a.c".toList, 2⟩
    let ctx : Context := ⟨["__sfr".toList], ⟨"a.c".toList, 7, []⟩, ⟨⟨[other]⟩, ⟨[other]⟩⟩⟩
    let h : Text := "char *f(int a[(2)]) __using(1)".toList
    let line : Text := h ++ " \t".toList ++ ';' :: " int f(void);  ".toList
    classify ctx.keywords h = some ⟨.definition, h⟩ ∧
      (∀ c ∈ h.getLast?, isBlank c = false) ∧ (∀ c ∈ " \t".toList, isBlank c = true) ∧
      (∀ word ∈ "return".toList :: "else".toList :: ctx.keywords, ¬OpensWith line word) ∧
      ctx.ledger.prototypes.find? (declaredName h) = none ∧
      ctx.ledger.definitions.find? (declaredName h) = none ∧
      classify ctx.keywords line = some ⟨.prototype, h⟩ ∧
      (ctx.check [line, h]).2 = none ∧
      (ctx.check [line, h]).1.ledger =
        ⟨⟨[other, ⟨"f".toList, h, "a.c".toList, 7⟩]⟩,
          ⟨[other, ⟨"f".toList, h, "a.c".toList, 8⟩]⟩⟩ := by
  intro other ctx h line
  have hdefinition : classify ctx.keywords h = some ⟨.definition, h⟩ := by decide +kernel
  have hlast : h.getLast? = some ')' := by decide
  have hend : ∀ c ∈ h.getLast?, isBlank c = false := by
    rw [hlast]
    rintro c ⟨⟩
    decide
  have hblanks : ∀ c ∈ " \t".toList, isBlank c = true :=
    List.all_eq_true.mp (by decide)
  have hopens : ∀ word ∈ "return".toList :: "else".toList :: ctx.keywords, ¬OpensWith line word :=
    excludesPrototype_eq_false_iff.mp (by decide +kernel)
  have hprototypes : ctx.ledger.prototypes.find? (declaredName h) = none := by decide +kernel
  have hdefinitions : ctx.ledger.definitions.find? (declaredName h) = none := by decide +kernel
  have hname : declaredName h = "f".toList := by decide +kernel
  obtain ⟨hprototype, -, hrun⟩ :=
    prototype_agrees_with_header ctx " int f(void);  ".toList hdefinition hend hblanks hopens
  obtain ⟨hhalt, hledger⟩ := hrun hprototypes hdefinitions
  rw [hname] at hledger
  exact ⟨hdefinition, hend, hblanks, hopens, hprototypes, hdefinitions, hprototype, hhalt, hledger⟩

end PrototypeGate

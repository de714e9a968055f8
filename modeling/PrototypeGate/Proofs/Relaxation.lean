import PrototypeGate.Proofs.Registries

/-!
# More storage keywords

A storage keyword holds prototypes back and does nothing else, so a run with more keywords files
fewer prototypes. This file shows that it can only be the more lenient for it. Whatever a ledger
takes, a ledger takes too that has the same definitions and lacks some of the prototypes; so a
run that meets no conflict meets none with more keywords, and at its end only the prototypes of
the lines that the additional keywords exclude are missing.
-/

namespace PrototypeGate

/-! ### Lines -/

/-- The line holds no prototype because of `more` keywords, but could with the first ones. -/
def excludedOnlyBy (keywords more : List Text) (line : Text) : Bool :=
  excludesPrototype more line && !excludesPrototype keywords line

/-- The declarations of a stream in order, each with the line it stands on. -/
def declarations (keywords : List Text) : Position → List Text → List (Text × Filing)
  | _, [] => []
  | p, raw :: rest =>
    ((filing? keywords p raw).map (raw, ·)).toList ++ declarations keywords (p.after raw) rest

/-- Whether a declaration is one with more keywords as well. -/
def remains (keywords more : List Text) (d : Text × Filing) : Bool :=
  d.2.kind = .definition || !excludedOnlyBy keywords more (Text.trim d.1)

section Lines

variable {keywords more : List Text}

/-- More keywords exclude more lines. -/
theorem excludesPrototype_of_subset (hmore : keywords ⊆ more) {line : Text}
    (h : excludesPrototype keywords line = true) : excludesPrototype more line = true := by
  rw [excludesPrototype, List.any_eq_true] at h ⊢
  obtain ⟨word, hword, hbegins⟩ := h
  refine ⟨word, ?_, hbegins⟩
  rw [List.mem_append] at hword ⊢
  exact hword.imp_right fun hmem => hmore hmem

/-- With more keywords a line is the declaration it was, unless it was a prototype and is now
excluded. -/
theorem classify_of_subset (hmore : keywords ⊆ more) (line : Text) :
    classify more line = (classify keywords line).filter fun found =>
      found.kind = .definition || !excludedOnlyBy keywords more line := by
  rw [classify, classify]
  cases Header.search? line with
  | some found =>
    cases hfew : excludesPrototype keywords line with
    | true => simp [excludesPrototype_of_subset hmore hfew]
    | false =>
      cases hmany : excludesPrototype more line <;>
        simp [excludedOnlyBy, hfew, hmany, Option.filter]
  | none =>
    dsimp only
    split
    · rfl
    · cases Header.ofLine? line <;> rfl

/-- With more keywords a line is classified as before, or it was a prototype and is nothing. -/
theorem classify_eq_or_excluded (hmore : keywords ⊆ more) (line : Text) :
    classify more line = classify keywords line ∨
      classify more line = none ∧ ∃ t, classify keywords line = some ⟨.prototype, t⟩ := by
  rw [classify_of_subset hmore]
  cases classify keywords line with
  | none => exact .inl rfl
  | some found =>
    obtain ⟨_ | _, t⟩ := found
    · cases hline : excludedOnlyBy keywords more line with
      | true => exact .inr ⟨by simp, t, rfl⟩
      | false => exact .inl (by simp)
    · exact .inl (by simp)

/-- With more keywords a line declares what remains of what it declared. -/
theorem filing?_of_subset (hmore : keywords ⊆ more) (p : Position) (raw : Text) :
    filing? more p raw =
      (filing? keywords p raw).filter fun d => remains keywords more (raw, d) := by
  rw [filing?, filing?]
  cases Marker.read? (Text.trim raw) with
  | some marker => rfl
  | none =>
    dsimp only
    rw [classify_of_subset hmore, Option.filter_map]
    rfl

/-- The declarations of a stream are what it files. -/
theorem filings_eq_map (keywords : List Text) (p : Position) (lines : List Text) :
    filings keywords p lines = (declarations keywords p lines).map Prod.snd := by
  induction lines generalizing p with
  | nil => rfl
  | cons raw rest ih =>
    rw [filings, declarations, ih, List.map_append]
    cases filing? keywords p raw <;> rfl

/-- With more keywords a stream declares what remains of what it declared. -/
theorem declarations_of_subset (hmore : keywords ⊆ more) (p : Position) (lines : List Text) :
    declarations more p lines = (declarations keywords p lines).filter (remains keywords more) := by
  induction lines generalizing p with
  | nil => rfl
  | cons raw rest ih =>
    rw [declarations, declarations, ih, filing?_of_subset hmore, List.filter_append]
    congr 1
    cases filing? keywords p raw with
    | none => rfl
    | some d => cases hremains : remains keywords more (raw, d) <;> simp [hremains]

/-- The definitions remain. -/
theorem recordsOf_definition_remains (ds : List (Text × Filing)) :
    recordsOf .definition ((ds.filter (remains keywords more)).map Prod.snd) =
      recordsOf .definition (ds.map Prod.snd) := by
  rw [recordsOf, recordsOf, List.filter_map, List.filter_map, List.filter_filter]
  congr 2
  refine List.filter_congr fun d _ => ?_
  cases hkind : d.2.kind <;> simp [remains, hkind]

/-- The prototypes remain that stand on lines which are not newly excluded. -/
theorem recordsOf_prototype_remains (ds : List (Text × Filing)) :
    recordsOf .prototype ((ds.filter (remains keywords more)).map Prod.snd) =
      recordsOf .prototype ((ds.filter fun d =>
        !excludedOnlyBy keywords more (Text.trim d.1)).map Prod.snd) := by
  rw [recordsOf, recordsOf, List.filter_map, List.filter_map, List.filter_filter,
    List.filter_filter]
  congr 2
  refine List.filter_congr fun d _ => ?_
  cases hkind : d.2.kind <;> simp [remains, hkind]

end Lines

/-! ### Ledgers -/

namespace Ledger

/-- Nothing that was filed stands in the way of a declaration. -/
def Takes (l : Ledger) : Filing → Prop
  | ⟨.prototype, record⟩ =>
    l.prototypes.find? record.name = none ∧ l.definitions.find? record.name = none
  | ⟨.definition, record⟩ =>
    l.definitions.find? record.name = none ∧
      ∀ p, l.prototypes.find? record.name = some p → p.signature = record.signature

/-- File a declaration without looking. -/
def file (l : Ledger) : Filing → Ledger
  | ⟨.prototype, record⟩ => { l with prototypes := l.prototypes.insert record }
  | ⟨.definition, record⟩ => { l with definitions := l.definitions.insert record }

/-- The second ledger has the definitions of the first one and no prototypes of its own. -/
structure Thinned (l thin : Ledger) : Prop where
  /-- The prototypes are some of those in the first ledger, in their order. -/
  prototypes : thin.prototypes.records.Sublist l.prototypes.records
  /-- The definitions are the same. -/
  definitions : thin.definitions = l.definitions
  /-- No two prototypes have the same name. -/
  distinct : (l.prototypes.records.map Record.name).Nodup

variable {l thin : Ledger} {d : Filing}

/-- What a ledger takes is filed. -/
theorem Takes.resolve_eq (h : l.Takes d) : l.resolve d.kind d.record = (l.file d, none) := by
  obtain ⟨_ | _, record⟩ := d
  · obtain ⟨hprototypes, hdefinitions⟩ := h
    simp only [resolve, resolvePrototype, hprototypes, hdefinitions, Option.map_none, file]
  · obtain ⟨hdefinitions, hagrees⟩ := h
    have hfile : l.fileDefinition record = (l.file ⟨.definition, record⟩, none) := by
      simp only [fileDefinition, hdefinitions, file]
    simp only [resolve, resolveDefinition]
    cases hprototype : l.prototypes.find? record.name with
    | none => exact hfile
    | some p => simpa only [hagrees p hprototype, if_true] using hfile

/-- What is resolved without a conflict was taken. -/
theorem takes_of_resolve_eq_none (hnone : (l.resolve d.kind d.record).2 = none) : l.Takes d := by
  obtain ⟨kind, record⟩ := d
  have hresolved := l.resolve_resolved kind record
  rw [hnone] at hresolved
  generalize (l.resolve kind record).1 = next at hresolved
  cases hresolved with
  | prototype hfirst hdefinition => exact ⟨hfirst, hdefinition⟩
  | definition hfirst hagrees => exact ⟨hfirst, hagrees⟩

/-- Declarations are resolved without a conflict exactly if each is taken when it is its turn. -/
theorem resolveAll_cons_eq_none_iff_takes {ds : List Filing} :
    (l.resolveAll (d :: ds)).2 = none ↔ l.Takes d ∧ ((l.file d).resolveAll ds).2 = none := by
  rw [resolveAll_cons_eq_none_iff]
  constructor
  · rintro ⟨hd, hrest⟩
    have htakes := takes_of_resolve_eq_none hd
    rw [htakes.resolve_eq] at hrest
    exact ⟨htakes, hrest⟩
  · rintro ⟨htakes, hrest⟩
    rw [htakes.resolve_eq]
    exact ⟨rfl, hrest⟩

/-- Declarations that meet no conflict are filed behind what was filed before. -/
theorem records_resolveAll_of_eq_none {ds : List Filing} (hnone : (l.resolveAll ds).2 = none) :
    (l.resolveAll ds).1.prototypes.records =
        l.prototypes.records ++ recordsOf .prototype ds ∧
      (l.resolveAll ds).1.definitions.records =
        l.definitions.records ++ recordsOf .definition ds := by
  induction ds generalizing l with
  | nil => simp [resolveAll, recordsOf]
  | cons d ds ih =>
    obtain ⟨htakes, hrest⟩ := resolveAll_cons_eq_none_iff_takes.mp hnone
    obtain ⟨hprototypes, hdefinitions⟩ := ih hrest
    rw [resolveAll, htakes.resolve_eq]
    simp only [hprototypes, hdefinitions]
    obtain ⟨_ | _, record⟩ := d <;> simp [file, Registry.insert, recordsOf]

namespace Thinned

/-- A ledger with fewer prototypes takes more. -/
theorem takes (h : l.Thinned thin) (htakes : l.Takes d) : thin.Takes d := by
  have hfound {name : Text} {p : Record} (hp : thin.prototypes.find? name = some p) :
      l.prototypes.find? name = some p := by
    obtain ⟨hmem, hname⟩ := Registry.mem_of_find?_eq_some hp
    exact (Registry.find?_eq_some_iff h.distinct).mpr ⟨h.prototypes.subset hmem, hname⟩
  obtain ⟨_ | _, record⟩ := d
  · obtain ⟨hprototypes, hdefinitions⟩ := htakes
    refine ⟨?_, h.definitions ▸ hdefinitions⟩
    rw [Option.eq_none_iff_forall_ne_some]
    intro p hp
    rw [hfound hp] at hprototypes
    cases hprototypes
  · obtain ⟨hdefinitions, hagrees⟩ := htakes
    exact ⟨h.definitions ▸ hdefinitions, fun p hp => hagrees p (hfound hp)⟩

/-- Both ledgers file what the first one takes. -/
theorem file (h : l.Thinned thin) (htakes : l.Takes d) : (l.file d).Thinned (thin.file d) := by
  obtain ⟨_ | _, record⟩ := d
  · exact ⟨h.prototypes.append (List.Sublist.refl [record]), h.definitions,
      Registry.nodup_insert h.distinct htakes.1⟩
  · exact ⟨h.prototypes, congrArg (·.insert record) h.definitions, h.distinct⟩

/-- A prototype that only the first ledger files is one that the second one lacks. -/
theorem drop (h : l.Thinned thin) (htakes : l.Takes d) (hkind : d.kind = .prototype) :
    (l.file d).Thinned thin := by
  obtain ⟨kind, record⟩ := d
  obtain rfl : kind = .prototype := hkind
  exact ⟨h.prototypes.trans (List.sublist_append_left _ _), h.definitions,
    Registry.nodup_insert h.distinct htakes.1⟩

/-- Declarations that meet no conflict meet none when some prototypes among them are left
out. -/
theorem resolveAll_filter (h : l.Thinned thin) {ds : List (Text × Filing)}
    {keep : Text × Filing → Bool} (hkeep : ∀ d, d.2.kind = .definition → keep d = true)
    (hnone : (l.resolveAll (ds.map Prod.snd)).2 = none) :
    (thin.resolveAll ((ds.filter keep).map Prod.snd)).2 = none := by
  induction ds generalizing l thin with
  | nil => rfl
  | cons d ds ih =>
    obtain ⟨htakes, hrest⟩ := resolveAll_cons_eq_none_iff_takes.mp hnone
    cases hd : keep d with
    | true =>
      rw [List.filter_cons_of_pos hd, List.map_cons, resolveAll_cons_eq_none_iff_takes]
      exact ⟨h.takes htakes, ih (h.file htakes) hrest⟩
    | false =>
      have hkind : d.2.kind = .prototype := by
        cases hkind : d.2.kind with
        | prototype => rfl
        | definition => simp [hkeep d hkind] at hd
      rw [List.filter_cons_of_neg (by simp [hd])]
      exact ih (h.drop htakes hkind) hrest

end Thinned

end Ledger

/-! ### Runs -/

namespace Context

/-- A run that reads everything resolves the declarations of its stream without a conflict. -/
theorem resolveAll_eq_none_of_check_eq_none {ctx : Context} {lines : List Text}
    (hnone : (ctx.check lines).2 = none) :
    (ctx.ledger.resolveAll (filings ctx.keywords ctx.position lines)).2 = none := by
  have hlines := numberReadable_of_check_eq_none hnone
  have hhalt := (ctx.check_eq_resolveAll hlines).2
  rw [hnone] at hhalt
  exact Option.map_eq_none_iff.mp hhalt.symm

/-- A run that reads everything has filed the declarations of its stream. -/
theorem records_check_of_eq_none {ctx : Context} {lines : List Text}
    (hnone : (ctx.check lines).2 = none) :
    let ds := filings ctx.keywords ctx.position lines
    (ctx.check lines).1.ledger.prototypes.records =
        ctx.ledger.prototypes.records ++ recordsOf .prototype ds ∧
      (ctx.check lines).1.ledger.definitions.records =
        ctx.ledger.definitions.records ++ recordsOf .definition ds := by
  have hlines := numberReadable_of_check_eq_none hnone
  rw [(ctx.check_eq_resolveAll hlines).1]
  exact Ledger.records_resolveAll_of_eq_none (resolveAll_eq_none_of_check_eq_none hnone)

/-- A run that reads everything does so with more keywords, too. -/
theorem check_eq_none_of_subset {keywords more : List Text} (hmore : keywords ⊆ more)
    {p : Position} {l : Ledger} (hl : (l.prototypes.records.map Record.name).Nodup)
    {lines : List Text} (hnone : ((⟨keywords, p, l⟩ : Context).check lines).2 = none) :
    ((⟨more, p, l⟩ : Context).check lines).2 = none := by
  have hlines := numberReadable_of_check_eq_none hnone
  have hfew : (l.resolveAll (filings keywords p lines)).2 = none :=
    resolveAll_eq_none_of_check_eq_none hnone
  have hthin : l.Thinned l := ⟨List.Sublist.refl _, rfl, hl⟩
  rw [(check_eq_resolveAll ⟨more, p, l⟩ hlines).2, Option.map_eq_none_iff]
  rw [filings_eq_map] at hfew ⊢
  rw [declarations_of_subset hmore]
  apply hthin.resolveAll_filter _ hfew
  intro d hd
  simp [remains, hd]

end Context

/-- More storage keywords only ever relax a check. Each line is classified as before, or it was
a prototype and is nothing now. A run that reads everything does so with more keywords, too; it
ends at the same position, with the same definitions and with the prototypes it had, in their
order, but for those on lines that only the additional keywords exclude. -/
theorem check_relaxed_by_more_keywords {keywords more : List Text} (hmore : keywords ⊆ more)
    (p : Position) {l : Ledger} (hl : (l.prototypes.records.map Record.name).Nodup)
    (lines : List Text) :
    let few := (⟨keywords, p, l⟩ : Context).check lines
    let many := (⟨more, p, l⟩ : Context).check lines
    let ds := declarations keywords p lines
    (∀ line, classify more line = classify keywords line ∨
        classify more line = none ∧ ∃ t, classify keywords line = some ⟨.prototype, t⟩) ∧
      (few.2 = none →
        many.2 = none ∧ many.1.position = few.1.position ∧
          many.1.ledger.definitions = few.1.ledger.definitions ∧
          few.1.ledger.prototypes.records =
            l.prototypes.records ++ recordsOf .prototype (ds.map Prod.snd) ∧
          many.1.ledger.prototypes.records =
            l.prototypes.records ++ recordsOf .prototype ((ds.filter fun d =>
              !excludedOnlyBy keywords more (Text.trim d.1)).map Prod.snd)) := by
  intro few many ds
  refine ⟨classify_eq_or_excluded hmore, fun hfew => ?_⟩
  have hmany : many.2 = none := Context.check_eq_none_of_subset hmore hl hfew
  have hfewEnd := Context.position_check_of_eq_none hfew
  have hmanyEnd := Context.position_check_of_eq_none hmany
  have hfewRecords := Context.records_check_of_eq_none hfew
  have hmanyRecords := Context.records_check_of_eq_none hmany
  simp only [filings_eq_map] at hfewRecords hmanyRecords
  rw [declarations_of_subset hmore, recordsOf_prototype_remains,
    recordsOf_definition_remains] at hmanyRecords
  have hdefinitions := hmanyRecords.2.trans hfewRecords.2.symm
  exact ⟨hmany, hmanyEnd.trans hfewEnd.symm, congrArg Registry.mk hdefinitions, hfewRecords.1,
    hmanyRecords.1⟩

/-- With the keyword `sbit` a register declaration is no prototype any more, and the other records
are filed as before. -/
theorem check_relaxed_by_sbit :
    let lines := ["sbit at(0x80) P0;".toList, "int f(void);".toList, "int f(void)".toList]
    let few := (Context.initial ["sfr".toList]).check lines
    let many := (Context.initial ["sbit".toList, "sfr".toList]).check lines
    ["sfr".toList] ⊆ ["sbit".toList, "sfr".toList] ∧ few.2 = none ∧ many.2 = none ∧
      few.1.ledger.prototypes.records.map Record.name = ["at".toList, "f".toList] ∧
      many.1.ledger.prototypes.records.map Record.name = ["f".toList] := by
  intro lines few many
  have hmore : ["sfr".toList] ⊆ ["sbit".toList, "sfr".toList] := by simp
  have hfew : few.2 = none := by decide +kernel
  obtain ⟨-, hrelaxed⟩ :=
    check_relaxed_by_more_keywords hmore .initial (l := .empty) List.nodup_nil lines
  obtain ⟨hmany, -, -, hfewRecords, hmanyRecords⟩ := hrelaxed hfew
  refine ⟨hmore, hfew, hmany, ?_, ?_⟩
  · rw [show few.1.ledger.prototypes.records = _ from hfewRecords]
    decide +kernel
  · rw [show many.1.ledger.prototypes.records = _ from hmanyRecords]
    decide +kernel

end PrototypeGate

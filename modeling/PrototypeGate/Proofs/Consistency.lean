import Mathlib.Data.List.Induction
import PrototypeGate.Proofs.Filing

/-!
# What a run accepts

A run keeps two registries and looks each declaration up in them. What it accepts can be
said without registries: of every function at most one prototype and at most one
definition, the prototype first and with the same text. This file shows that a run stops
exactly at the first declaration that breaks this rule, and with which code and which
earlier declaration it does so. The registries of a run that goes on are the declarations
read so far, sorted by kind; this is the invariant that carries the proof.
-/

namespace PrototypeGate

/-- Declarations are consistent when every function has at most one prototype and at most
one definition, and when its prototype, if it has both, stands first and has the text of
the definition. -/
structure Consistent (ds : List Filing) : Prop where
  /-- No function has two prototypes or two definitions. -/
  one_of_a_kind : ∀ {i j : Nat} (hi : i < ds.length) (hj : j < ds.length),
    ds[i].kind = ds[j].kind → ds[i].record.name = ds[j].record.name → i = j
  /-- A prototype stands before the definition of its function and has the same text. -/
  prototype_first : ∀ {i j : Nat} (hi : i < ds.length) (hj : j < ds.length),
    ds[i].kind = .prototype → ds[j].kind = .definition →
      ds[i].record.name = ds[j].record.name →
        i < j ∧ ds[i].record.signature = ds[j].record.signature

/-- How a declaration is at fault after the declarations before it: the code of the
condition and the earlier record that the declaration conflicts with. -/
inductive Offence (before : List Filing) (d : Filing) : Nat → Record → Prop
  /-- The second prototype of a function, with the text of the first one. -/
  | repeated {prior : Record} (hkind : d.kind = .prototype)
      (hprior : ⟨.prototype, prior⟩ ∈ before) (hname : prior.name = d.record.name)
      (htext : prior.signature = d.record.signature) : Offence before d 1 prior
  /-- The second prototype of a function, with another text. -/
  | redeclared {prior : Record} (hkind : d.kind = .prototype)
      (hprior : ⟨.prototype, prior⟩ ∈ before) (hname : prior.name = d.record.name)
      (htext : prior.signature ≠ d.record.signature) : Offence before d 2 prior
  /-- The first prototype of a function that is defined already. -/
  | late {prior : Record} (hkind : d.kind = .prototype)
      (honly : ∀ r, ⟨.prototype, r⟩ ∈ before → r.name ≠ d.record.name)
      (hprior : ⟨.definition, prior⟩ ∈ before) (hname : prior.name = d.record.name) :
      Offence before d 3 prior
  /-- A definition of another text than the prototype. -/
  | mismatched {prior : Record} (hkind : d.kind = .definition)
      (hprior : ⟨.prototype, prior⟩ ∈ before) (hname : prior.name = d.record.name)
      (htext : prior.signature ≠ d.record.signature) : Offence before d 4 prior
  /-- The second definition of a function whose prototype, if any, has the same text. -/
  | redefined {prior : Record} (hkind : d.kind = .definition)
      (hagrees : ∀ r, ⟨.prototype, r⟩ ∈ before → r.name = d.record.name →
        r.signature = d.record.signature)
      (hprior : ⟨.definition, prior⟩ ∈ before) (hname : prior.name = d.record.name) :
      Offence before d 5 prior

/-! ### Consistency of pairs -/

/-- Whether a declaration may stand before another one. Of the same function, only a
prototype may, and only before the definition of the same text. -/
def Filing.Admits (earlier later : Filing) : Prop :=
  earlier.record.name = later.record.name →
    earlier.kind = .prototype ∧ later.kind = .definition ∧
      earlier.record.signature = later.record.signature

/-- Declarations are consistent exactly if each admits all those after it. -/
theorem consistent_iff_pairwise {ds : List Filing} :
    Consistent ds ↔ ds.Pairwise Filing.Admits := by
  rw [List.pairwise_iff_getElem]
  constructor
  · intro h i j hi hj hij hname
    have hkinds : ds[i].kind ≠ ds[j].kind := by
      intro hkind
      have := h.one_of_a_kind hi hj hkind hname
      omega
    cases hki : ds[i].kind with
    | prototype =>
      cases hkj : ds[j].kind with
      | prototype => exact absurd (hki.trans hkj.symm) hkinds
      | definition => exact ⟨rfl, rfl, (h.prototype_first hi hj hki hkj hname).2⟩
    | definition =>
      cases hkj : ds[j].kind with
      | prototype =>
        have := (h.prototype_first hj hi hkj hki hname.symm).1
        omega
      | definition => exact absurd (hki.trans hkj.symm) hkinds
  · intro h
    constructor
    · intro i j hi hj hkind hname
      rcases Nat.lt_trichotomy i j with hij | hij | hij
      · obtain ⟨hki, hkj, _⟩ := h i j hi hj hij hname
        simp [hki, hkj] at hkind
      · exact hij
      · obtain ⟨hkj, hki, _⟩ := h j i hj hi hij hname.symm
        simp [hki, hkj] at hkind
    · intro i j hi hj hki hkj hname
      rcases Nat.lt_trichotomy i j with hij | rfl | hij
      · exact ⟨hij, (h i j hi hj hij hname).2.2⟩
      · simp [hki] at hkj
      · have := (h j i hj hi hij hname.symm).1
        simp [hkj] at this

instance : DecidableRel Filing.Admits := fun earlier later =>
  inferInstanceAs (Decidable (earlier.record.name = later.record.name →
    earlier.kind = .prototype ∧ later.kind = .definition ∧
      earlier.record.signature = later.record.signature))

instance (ds : List Filing) : Decidable (Consistent ds) :=
  decidable_of_iff _ consistent_iff_pairwise.symm

/-- Consistent declarations stay so with one more exactly if all of them admit it. -/
theorem consistent_append_singleton {ds : List Filing} {d : Filing} :
    Consistent (ds ++ [d]) ↔ Consistent ds ∧ ∀ e ∈ ds, e.Admits d := by
  simp [consistent_iff_pairwise, List.pairwise_append]

/-- Among declarations that are not consistent there is a first one that breaks the
rule. -/
theorem exists_first_offender {ds : List Filing} (h : ¬Consistent ds) :
    ∃ before d after, ds = before ++ d :: after ∧ Consistent before ∧
      ¬Consistent (before ++ [d]) := by
  induction ds using List.reverseRecOn with
  | nil => exact absurd (consistent_iff_pairwise.mpr List.Pairwise.nil) h
  | append_singleton ds d ih =>
    by_cases hds : Consistent ds
    · exact ⟨ds, d, [], rfl, hds, h⟩
    · obtain ⟨before, e, after, rfl, hbefore, he⟩ := ih hds
      exact ⟨before, e, after ++ [d], by simp, hbefore, he⟩

/-! ### The registries of a run that goes on -/

/-- The records of the declarations of one kind. -/
def recordsOf (kind : Kind) (ds : List Filing) : List Record :=
  (ds.filter (·.kind = kind)).map Filing.record

/-- The registries that hold the given declarations, each those of its kind. -/
def Ledger.holding (ds : List Filing) : Ledger :=
  ⟨⟨recordsOf .prototype ds⟩, ⟨recordsOf .definition ds⟩⟩

/-- A record is among those of a kind if it was filed as one of them. -/
theorem mem_recordsOf {kind : Kind} {ds : List Filing} {r : Record} :
    r ∈ recordsOf kind ds ↔ ⟨kind, r⟩ ∈ ds := by
  simp only [recordsOf, List.mem_map, List.mem_filter, decide_eq_true_eq]
  constructor
  · rintro ⟨d, ⟨hd, rfl⟩, rfl⟩
    exact hd
  · intro h
    exact ⟨⟨kind, r⟩, ⟨h, rfl⟩, rfl⟩

/-- A record found under a name has that name and is in the registry. -/
theorem Registry.mem_of_find?_eq_some {r : Registry} {name : Text} {record : Record}
    (h : r.find? name = some record) : record ∈ r.records ∧ record.name = name :=
  ⟨List.mem_of_find?_eq_some h, by simpa using List.find?_some h⟩

/-- Nothing is found under a name exactly if no record has it. -/
theorem Registry.find?_eq_none_iff {r : Registry} {name : Text} :
    r.find? name = none ↔ ∀ record ∈ r.records, record.name ≠ name := by
  simp [Registry.find?]

/-- A declaration that all earlier ones admit is filed with its kind. -/
theorem resolve_holding_of_admits {before : List Filing} {d : Filing}
    (hd : ∀ e ∈ before, e.Admits d) :
    (Ledger.holding before).resolve d.kind d.record =
      (Ledger.holding (before ++ [d]), none) := by
  obtain ⟨kind, record⟩ := d
  have hdefinitions : (Ledger.holding before).definitions.find? record.name = none := by
    rw [Registry.find?_eq_none_iff]
    intro r hr hname
    simpa using (hd _ (mem_recordsOf.mp hr) hname).1
  cases kind with
  | prototype =>
    have hprototypes : (Ledger.holding before).prototypes.find? record.name = none := by
      rw [Registry.find?_eq_none_iff]
      intro r hr hname
      simpa using (hd _ (mem_recordsOf.mp hr) hname).2.1
    simp only [Ledger.resolve, Ledger.resolvePrototype, hprototypes, hdefinitions, Option.map_none]
    simp [Ledger.holding, recordsOf, Registry.insert]
  | definition =>
    have hfile : (Ledger.holding before).fileDefinition record =
        (Ledger.holding (before ++ [⟨.definition, record⟩]), none) := by
      simp only [Ledger.fileDefinition, hdefinitions]
      simp [Ledger.holding, recordsOf, Registry.insert]
    simp only [Ledger.resolve, Ledger.resolveDefinition]
    cases hprototype : (Ledger.holding before).prototypes.find? record.name with
    | none => exact hfile
    | some prior =>
      obtain ⟨hmem, hname⟩ := Registry.mem_of_find?_eq_some hprototype
      have htext : prior.signature = record.signature := (hd _ (mem_recordsOf.mp hmem) hname).2.2
      simpa only [htext, if_true] using hfile

/-- Consistent declarations hold at most one prototype of a function. -/
theorem Consistent.prototype_unique {ds : List Filing} (h : Consistent ds) {r s : Record}
    (hr : ⟨.prototype, r⟩ ∈ ds) (hs : ⟨.prototype, s⟩ ∈ ds) (hname : r.name = s.name) :
    r = s := by
  obtain ⟨i, hi, hri⟩ := List.getElem_of_mem hr
  obtain ⟨j, hj, hsj⟩ := List.getElem_of_mem hs
  have hij : i = j := h.one_of_a_kind hi hj (by rw [hri, hsj]) (by rw [hri, hsj]; exact hname)
  subst hij
  simpa using hri.symm.trans hsj

private theorem resolvePrototype_holding_of_offends {before : List Filing} {record : Record}
    (hd : ¬∀ e ∈ before, e.Admits ⟨.prototype, record⟩) :
    ∃ c, ((Ledger.holding before).resolvePrototype record).2 = some c ∧ c.record = record ∧
      Offence before ⟨.prototype, record⟩ c.condition.code c.prior := by
  simp only [Ledger.resolvePrototype]
  cases hprototype : (Ledger.holding before).prototypes.find? record.name with
  | some prior =>
    obtain ⟨hmem, hname⟩ := Registry.mem_of_find?_eq_some hprototype
    by_cases htext : prior.signature = record.signature
    · exact ⟨⟨.duplicatePrototype, record, prior⟩, by simp [htext], rfl,
        .repeated rfl (mem_recordsOf.mp hmem) hname htext⟩
    · exact ⟨⟨.duplicatePrototypeMismatch, record, prior⟩, by simp [htext], rfl,
        .redeclared rfl (mem_recordsOf.mp hmem) hname htext⟩
  | none =>
    have honly : ∀ r, ⟨.prototype, r⟩ ∈ before → r.name ≠ record.name :=
      fun r hr => Registry.find?_eq_none_iff.mp hprototype r (mem_recordsOf.mpr hr)
    cases hdefinition : (Ledger.holding before).definitions.find? record.name with
    | some prior =>
      obtain ⟨hmem, hname⟩ := Registry.mem_of_find?_eq_some hdefinition
      exact ⟨⟨.prototypeAfterDefinition, record, prior⟩, rfl, rfl,
        .late rfl honly (mem_recordsOf.mp hmem) hname⟩
    | none =>
      refine absurd (fun e he hname => ?_) hd
      obtain ⟨_ | _, r⟩ := e
      · exact absurd hname (honly r he)
      · exact absurd hname (Registry.find?_eq_none_iff.mp hdefinition r (mem_recordsOf.mpr he))

private theorem fileDefinition_holding_of_offends {before : List Filing} {record : Record}
    (hd : ¬∀ e ∈ before, e.Admits ⟨.definition, record⟩)
    (hagrees : ∀ r, ⟨.prototype, r⟩ ∈ before → r.name = record.name →
      r.signature = record.signature) :
    ∃ c, ((Ledger.holding before).fileDefinition record).2 = some c ∧ c.record = record ∧
      Offence before ⟨.definition, record⟩ c.condition.code c.prior := by
  simp only [Ledger.fileDefinition]
  cases hdefinition : (Ledger.holding before).definitions.find? record.name with
  | some prior =>
    obtain ⟨hmem, hname⟩ := Registry.mem_of_find?_eq_some hdefinition
    exact ⟨⟨.duplicateDefinition, record, prior⟩, rfl, rfl,
      .redefined rfl hagrees (mem_recordsOf.mp hmem) hname⟩
  | none =>
    refine absurd (fun e he hname => ?_) hd
    obtain ⟨_ | _, r⟩ := e
    · exact ⟨rfl, rfl, hagrees r he hname⟩
    · exact absurd hname (Registry.find?_eq_none_iff.mp hdefinition r (mem_recordsOf.mpr he))

private theorem resolveDefinition_holding_of_offends {before : List Filing} {record : Record}
    (hbefore : Consistent before) (hd : ¬∀ e ∈ before, e.Admits ⟨.definition, record⟩) :
    ∃ c, ((Ledger.holding before).resolveDefinition record).2 = some c ∧ c.record = record ∧
      Offence before ⟨.definition, record⟩ c.condition.code c.prior := by
  simp only [Ledger.resolveDefinition]
  cases hprototype : (Ledger.holding before).prototypes.find? record.name with
  | none =>
    exact fileDefinition_holding_of_offends hd fun r hr hname =>
      absurd hname (Registry.find?_eq_none_iff.mp hprototype r (mem_recordsOf.mpr hr))
  | some prior =>
    obtain ⟨hmem, hname⟩ := Registry.mem_of_find?_eq_some hprototype
    by_cases htext : prior.signature = record.signature
    · simp only [htext, if_true]
      -- The prototype that is found is the only one, so it speaks for all of them.
      refine fileDefinition_holding_of_offends hd fun r hr hrname => ?_
      rw [hbefore.prototype_unique hr (mem_recordsOf.mp hmem) (hrname.trans hname.symm), htext]
    · exact ⟨⟨.definitionPrototypeMismatch, record, prior⟩, by simp [htext], rfl,
        .mismatched rfl (mem_recordsOf.mp hmem) hname htext⟩

/-- A declaration that some earlier one does not admit is in conflict, and the conflict
names its offence. -/
theorem resolve_holding_of_offends {before : List Filing} {d : Filing}
    (hbefore : Consistent before) (hd : ¬∀ e ∈ before, e.Admits d) :
    ∃ c, ((Ledger.holding before).resolve d.kind d.record).2 = some c ∧ c.record = d.record ∧
      Offence before d c.condition.code c.prior := by
  obtain ⟨_ | _, record⟩ := d
  · exact resolvePrototype_holding_of_offends hd
  · exact resolveDefinition_holding_of_offends hbefore hd

/-- Consistent declarations are all filed, each with its kind. -/
theorem resolveAll_eq_holding {ds : List Filing} (h : Consistent ds) :
    Ledger.empty.resolveAll ds = (Ledger.holding ds, none) := by
  induction ds using List.reverseRecOn with
  | nil => rfl
  | append_singleton ds d ih =>
    obtain ⟨hds, hd⟩ := consistent_append_singleton.mp h
    rw [Ledger.resolveAll_append, ih hds]
    simp only [Ledger.resolveAll, resolve_holding_of_admits hd]

/-- The first declaration that breaks the rule stops the resolution, whatever follows
it. -/
theorem resolveAll_of_first_offender {before : List Filing} {d : Filing}
    (hbefore : Consistent before) (hd : ¬Consistent (before ++ [d])) (after : List Filing) :
    ∃ c, (Ledger.empty.resolveAll (before ++ d :: after)).2 = some c ∧ c.record = d.record ∧
      Offence before d c.condition.code c.prior := by
  have hadmits : ¬∀ e ∈ before, e.Admits d := fun h =>
    hd (consistent_append_singleton.mpr ⟨hbefore, h⟩)
  obtain ⟨c, hc, hrecord, hoffence⟩ := resolve_holding_of_offends hbefore hadmits
  refine ⟨c, ?_, hrecord, hoffence⟩
  rw [Ledger.resolveAll_append, resolveAll_eq_holding hbefore]
  simp only [Ledger.resolveAll]
  generalize (Ledger.holding before).resolve d.kind d.record = outcome at hc
  obtain ⟨next, conflict⟩ := outcome
  subst hc
  rfl

/-- Resolving declarations from empty registries meets no conflict exactly if they are
consistent. -/
theorem resolveAll_eq_none_iff {ds : List Filing} :
    (Ledger.empty.resolveAll ds).2 = none ↔ Consistent ds := by
  constructor
  · intro hnone
    by_contra h
    obtain ⟨before, d, after, rfl, hbefore, hd⟩ := exists_first_offender h
    obtain ⟨c, hc, -⟩ := resolveAll_of_first_offender hbefore hd after
    simp [hc] at hnone
  · intro h
    rw [resolveAll_eq_holding h]

/-! ### Runs -/

/-- A run from empty registries succeeds exactly if the declarations of its stream are
consistent. Otherwise it stops at the line of the first declaration that breaks the rule,
with the code and the earlier declaration that its offence calls for, whatever lines
follow. -/
theorem check_stops_at_first_offence (keywords : List Text) (p : Position) {lines : List Text}
    (hlines : ∀ raw ∈ lines, NumberReadable raw) :
    (((⟨keywords, p, .empty⟩ : Context).check lines).2 = none ↔
        Consistent (filings keywords p lines)) ∧
      (¬Consistent (filings keywords p lines) →
        ∃ above raw below d c, lines = above ++ raw :: below ∧
          filings keywords p (above ++ [raw]) = filings keywords p above ++ [d] ∧
          Consistent (filings keywords p above) ∧
          ¬Consistent (filings keywords p above ++ [d]) ∧
          c.record = d.record ∧
          Offence (filings keywords p above) d c.condition.code c.prior ∧
          ∀ more, ((⟨keywords, p, .empty⟩ : Context).check (above ++ raw :: more)).2 =
            some (.conflict c)) := by
  constructor
  · rw [(Context.check_eq_resolveAll _ hlines).2, Option.map_eq_none_iff, resolveAll_eq_none_iff]
  · intro h
    obtain ⟨before, d, after, hds, hbefore, hd⟩ := exists_first_offender h
    obtain ⟨above, raw, below, rfl, rfl, hraw⟩ := filings_eq_append_cons hds
    obtain ⟨c, hc, hrecord, hoffence⟩ := resolveAll_of_first_offender hbefore hd []
    have hgrown : filings keywords p (above ++ [raw]) = filings keywords p above ++ [d] := by
      simp [filings_append, filings, hraw]
    refine ⟨above, raw, below, d, c, rfl, hgrown, hbefore, hd, hrecord, hoffence, fun more => ?_⟩
    have hread : ∀ line ∈ above ++ [raw], NumberReadable line :=
      fun line hline => hlines line (by simp at hline ⊢; tauto)
    have hstop := (Context.check_eq_resolveAll ⟨keywords, p, .empty⟩ hread).2
    rw [hgrown, hc, Option.map_some] at hstop
    rw [List.append_cons, Context.check_append]
    generalize (⟨keywords, p, .empty⟩ : Context).check (above ++ [raw]) = outcome at hstop
    obtain ⟨next, halt⟩ := outcome
    subst hstop
    rfl

/-- A prototype, a definition of another function and a definition that differs from the
prototype: the third one is the offence. -/
theorem check_stops_at_differing_definition :
    let lines := ["int f(int a);".toList, "#7 \"b.c\"".toList, "int g(void)".toList,
      "int f(int b)".toList]
    (∀ raw ∈ lines, NumberReadable raw) ∧ ¬Consistent (filings [] .initial lines) ∧
      ∃ above raw below d c, lines = above ++ raw :: below ∧
        Offence (filings [] .initial above) d c.condition.code c.prior ∧
        ∀ more, ((⟨[], .initial, .empty⟩ : Context).check (above ++ raw :: more)).2 =
          some (.conflict c) := by
  intro lines
  have hlines : ∀ raw ∈ lines, NumberReadable raw := by decide +kernel
  have hbad : ¬Consistent (filings [] .initial lines) := by decide +kernel
  obtain ⟨above, raw, below, d, c, hsplit, _, _, _, _, hoffence, hstop⟩ :=
    (check_stops_at_first_offence [] .initial hlines).2 hbad
  exact ⟨hlines, hbad, above, raw, below, d, c, hsplit, hoffence, hstop⟩

end PrototypeGate

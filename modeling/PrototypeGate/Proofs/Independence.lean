import PrototypeGate.Proofs.Registries

/-!
# Functions do not interact

A declaration is compared only with declarations of the same name. So when the declarations of
some functions are mixed with those of others, in whatever order, each of the two groups is
resolved as it would be alone: the registries hold the same records of it in the same order, and
of two declarations that are in conflict the one that comes first decides. What carries the
proofs is that a ledger cut down to some names answers like the whole one, as long as it is asked
for these names only.
-/

namespace PrototypeGate

/-- The third list holds the elements of the other two, those of each in their order. -/
inductive Interleaving {α : Type} : List α → List α → List α → Prop
  /-- Nothing is left. -/
  | nil : Interleaving [] [] []
  /-- The next element is one of the first list. -/
  | left {x : α} {xs ys zs : List α} (h : Interleaving xs ys zs) :
      Interleaving (x :: xs) ys (x :: zs)
  /-- The next element is one of the second list. -/
  | right {y : α} {xs ys zs : List α} (h : Interleaving xs ys zs) :
      Interleaving xs (y :: ys) (y :: zs)

namespace Interleaving

variable {α : Type} {xs ys zs : List α}

/-- The two lists play the same role. -/
theorem symm (h : Interleaving xs ys zs) : Interleaving ys xs zs := by
  induction h with
  | nil => exact .nil
  | left _ ih => exact .right ih
  | right _ ih => exact .left ih

/-- A beginning of an interleaving is one of beginnings of the two lists, and so is the rest. -/
theorem exists_of_append {front back : List α} (h : Interleaving xs ys (front ++ back)) :
    ∃ xs₁ xs₂ ys₁ ys₂, xs = xs₁ ++ xs₂ ∧ ys = ys₁ ++ ys₂ ∧
      Interleaving xs₁ ys₁ front ∧ Interleaving xs₂ ys₂ back := by
  induction front generalizing xs ys with
  | nil => exact ⟨[], xs, [], ys, rfl, rfl, .nil, h⟩
  | cons z front ih =>
    cases h with
    | left h =>
      obtain ⟨xs₁, xs₂, ys₁, ys₂, rfl, rfl, hfront, hback⟩ := ih h
      exact ⟨z :: xs₁, xs₂, ys₁, ys₂, rfl, rfl, .left hfront, hback⟩
    | right h =>
      obtain ⟨xs₁, xs₂, ys₁, ys₂, rfl, rfl, hfront, hback⟩ := ih h
      exact ⟨xs₁, xs₂, z :: ys₁, ys₂, rfl, rfl, .right hfront, hback⟩

/-- What tells the elements of the two lists apart picks those of the first one. -/
theorem filter_eq_left {p : α → Bool} (h : Interleaving xs ys zs) (hxs : ∀ x ∈ xs, p x = true)
    (hys : ∀ y ∈ ys, p y = false) : zs.filter p = xs := by
  induction h with
  | nil => rfl
  | left _ ih =>
    rw [List.forall_mem_cons] at hxs
    rw [List.filter_cons_of_pos hxs.1, ih hxs.2 hys]
  | right _ ih =>
    rw [List.forall_mem_cons] at hys
    rw [List.filter_cons_of_neg (by simp [hys.1]), ih hxs hys.2]

end Interleaving

/-! ### Ledgers cut down to some names -/

/-- The names of declarations. -/
def namesOf (ds : List Filing) : List Text :=
  ds.map (·.record.name)

/-- The records of a registry that have one of the names. -/
def Registry.only (r : Registry) (names : List Text) : Registry :=
  ⟨r.records.filter fun record => names.contains record.name⟩

/-- The records of both registries that have one of the names. -/
def Ledger.only (l : Ledger) (names : List Text) : Ledger :=
  ⟨l.prototypes.only names, l.definitions.only names⟩

variable {names : List Text} {record : Record}

/-- One of the names is looked up as in the whole registry. -/
theorem Registry.find?_only (r : Registry) {name : Text} (hname : name ∈ names) :
    (r.only names).find? name = r.find? name := by
  rw [find?, only, List.find?_filter, find?]
  congr 1
  funext other
  by_cases hother : other.name = name
  · simp [hother, hname]
  · simp [hother]

/-- A record with one of the names is filed in what is left of the registry, too. -/
theorem Registry.only_insert_of_mem (r : Registry) (hname : record.name ∈ names) :
    (r.insert record).only names = (r.only names).insert record := by
  simp [insert, only, hname]

/-- A record with another name leaves no trace in it. -/
theorem Registry.only_insert_of_not_mem (r : Registry) (hname : record.name ∉ names) :
    (r.insert record).only names = r.only names := by
  simp [insert, only, hname]

namespace Ledger

/-! ### One declaration -/

section Resolve

variable (l : Ledger) (hname : record.name ∈ names)
include hname

private theorem resolvePrototype_only :
    (l.only names).resolvePrototype record =
      ((l.resolvePrototype record).1.only names, (l.resolvePrototype record).2) := by
  have hprototypes : (l.only names).prototypes.find? record.name = _ :=
    l.prototypes.find?_only hname
  have hdefinitions : (l.only names).definitions.find? record.name = _ :=
    l.definitions.find?_only hname
  rw [resolvePrototype, resolvePrototype, hprototypes, hdefinitions]
  cases l.prototypes.find? record.name with
  | some prior =>
    by_cases htext : prior.signature = record.signature
    · simp only [htext, if_true]
    · simp only [htext, if_false]
  | none =>
    have hinsert := l.prototypes.only_insert_of_mem hname
    simp only [only, hinsert]

private theorem fileDefinition_only :
    (l.only names).fileDefinition record =
      ((l.fileDefinition record).1.only names, (l.fileDefinition record).2) := by
  have hdefinitions : (l.only names).definitions.find? record.name = _ :=
    l.definitions.find?_only hname
  rw [fileDefinition, fileDefinition, hdefinitions]
  cases l.definitions.find? record.name with
  | some prior => rfl
  | none =>
    have hinsert := l.definitions.only_insert_of_mem hname
    simp only [only, hinsert]

private theorem resolveDefinition_only :
    (l.only names).resolveDefinition record =
      ((l.resolveDefinition record).1.only names, (l.resolveDefinition record).2) := by
  have hprototypes : (l.only names).prototypes.find? record.name = _ :=
    l.prototypes.find?_only hname
  have hfile := l.fileDefinition_only hname
  rw [resolveDefinition, resolveDefinition, hprototypes]
  cases l.prototypes.find? record.name with
  | some prior =>
    by_cases htext : prior.signature = record.signature
    · simpa only [htext, if_true] using hfile
    · simp only [htext, if_false]
  | none => exact hfile

/-- A declaration with one of the names is resolved as in the whole ledger. -/
theorem resolve_only (kind : Kind) :
    (l.only names).resolve kind record =
      ((l.resolve kind record).1.only names, (l.resolve kind record).2) := by
  cases kind with
  | prototype => exact l.resolvePrototype_only hname
  | definition => exact l.resolveDefinition_only hname

end Resolve

/-- A declaration with another name changes nothing that has one of the names. -/
theorem only_resolve_of_not_mem (l : Ledger) (kind : Kind) (hname : record.name ∉ names) :
    (l.resolve kind record).1.only names = l.only names := by
  have hprototypes := l.prototypes.only_insert_of_not_mem hname
  have hdefinitions := l.definitions.only_insert_of_not_mem hname
  have hresolved := l.resolve_resolved kind record
  generalize l.resolve kind record = outcome at hresolved ⊢
  obtain ⟨next, conflict⟩ := outcome
  cases hresolved with
  | refused _ => rfl
  | prototype _ _ => simp only [only, hprototypes]
  | late _ _ => simp only [only, hprototypes]
  | definition _ _ => simp only [only, hdefinitions]

/-! ### Runs -/

/-- What is left of a ledger after declarations that meet no conflict is what those with the
names make of what was left before. -/
theorem resolveAll_filter_of_eq_none (names : List Text) {l : Ledger} {ds : List Filing}
    (hnone : (l.resolveAll ds).2 = none) :
    (l.only names).resolveAll (ds.filter (·.record.name ∈ names)) =
      ((l.resolveAll ds).1.only names, none) := by
  induction ds generalizing l with
  | nil => rfl
  | cons d ds ih =>
    obtain ⟨hd, hrest⟩ := resolveAll_cons_eq_none_iff.mp hnone
    rw [resolveAll_cons_of_eq_none hd, ← ih hrest]
    by_cases hname : d.record.name ∈ names
    · have hstep := l.resolve_only hname d.kind
      have honly : ((l.only names).resolve d.kind d.record).2 = none := by rw [hstep, hd]
      rw [List.filter_cons_of_pos (by simpa using hname), resolveAll_cons_of_eq_none honly, hstep]
    · rw [List.filter_cons_of_neg (by simpa using hname), l.only_resolve_of_not_mem d.kind hname]

/-- A conflict is met at one of the declarations, and those before it meet none. -/
theorem exists_of_resolveAll_eq_some {l : Ledger} {ds : List Filing} {c : Conflict}
    (hsome : (l.resolveAll ds).2 = some c) :
    ∃ before d after, ds = before ++ d :: after ∧ (l.resolveAll before).2 = none ∧
      (l.resolveAll (before ++ [d])).2 = some c := by
  induction ds generalizing l with
  | nil => cases hsome
  | cons d ds ih =>
    rw [resolveAll] at hsome
    cases hd : l.resolve d.kind d.record with
    | mk next conflict =>
      rw [hd] at hsome
      cases conflict with
      | some first => exact ⟨[], d, ds, rfl, rfl, by simpa [resolveAll, hd] using hsome⟩
      | none =>
        obtain ⟨before, e, after, rfl, hbefore, he⟩ := ih hsome
        exact ⟨d :: before, e, after, rfl, by simpa [resolveAll, hd] using hbefore,
          by simpa [resolveAll, hd] using he⟩

/-- What comes behind a conflict does not matter. -/
theorem resolveAll_append_of_eq_some {l : Ledger} {before : List Filing} {c : Conflict}
    (hsome : (l.resolveAll before).2 = some c) (after : List Filing) :
    (l.resolveAll (before ++ after)).2 = some c := by
  rw [resolveAll_append]
  generalize l.resolveAll before = outcome at hsome ⊢
  obtain ⟨next, conflict⟩ := outcome
  obtain rfl : conflict = some c := hsome
  rfl

/-- A declaration behind others that meet no conflict is resolved in the ledger they lead to. -/
theorem resolveAll_concat_of_eq_none {l : Ledger} {before : List Filing}
    (hnone : (l.resolveAll before).2 = none) (d : Filing) :
    (l.resolveAll (before ++ [d])).2 = ((l.resolveAll before).1.resolve d.kind d.record).2 := by
  rw [resolveAll_append]
  generalize l.resolveAll before = outcome at hnone ⊢
  obtain ⟨next, conflict⟩ := outcome
  obtain rfl : conflict = none := hnone
  rw [← resolveAll_singleton]

end Ledger

/-! ### Two groups of declarations -/

/-- No declaration of one list has the name of one of the other. -/
def NamesApart (xs ys : List Filing) : Prop :=
  ∀ x ∈ xs, ∀ y ∈ ys, x.record.name ≠ y.record.name

instance (xs ys : List Filing) : Decidable (NamesApart xs ys) :=
  inferInstanceAs (Decidable (∀ x ∈ xs, ∀ y ∈ ys, x.record.name ≠ y.record.name))

/-- Resolving the first list alone stops at one of its declarations, and those of the second
list that come before it in the third one meet no conflict alone. -/
inductive OffendsFirst : List Filing → List Filing → List Filing → Prop
  | intro {xs xs' ys ys' zs zs' : List Filing} {d : Filing} (hbefore : Interleaving xs ys zs)
      (hafter : Interleaving xs' ys' zs') (hxs : (Ledger.empty.resolveAll xs).2 = none)
      (hd : (Ledger.empty.resolveAll (xs ++ [d])).2 ≠ none)
      (hys : (Ledger.empty.resolveAll ys).2 = none) :
      OffendsFirst (xs ++ d :: xs') (ys ++ ys') (zs ++ d :: zs')

namespace NamesApart

variable {xs ys : List Filing}

/-- The two lists play the same role. -/
theorem symm (h : NamesApart xs ys) : NamesApart ys xs :=
  fun y hy x hx => (h x hx y hy).symm

/-- Parts of the lists have no name in common either. -/
theorem mono {xs' ys' : List Filing} (h : NamesApart xs ys) (hxs : xs' ⊆ xs) (hys : ys' ⊆ ys) :
    NamesApart xs' ys' :=
  fun x hx y hy => h x (hxs hx) y (hys hy)

end NamesApart

namespace Interleaving

variable {xs ys zs : List Filing}

/-- Names that those of the first list are among, and those of the second one are not, pick the
declarations of the first list. -/
theorem filter_names (h : Interleaving xs ys zs) (hxs : ∀ x ∈ xs, x.record.name ∈ names)
    (hys : ∀ y ∈ ys, y.record.name ∉ names) : zs.filter (·.record.name ∈ names) = xs := by
  apply h.filter_eq_left
  · intro x hx
    simpa using hxs x hx
  · intro y hy
    simpa using hys y hy

/-- Mixed declarations that meet no conflict meet none alone, and alone they leave the records
that are found under their names. -/
theorem resolveAll_left (h : Interleaving xs ys zs) (hapart : NamesApart xs ys)
    (hnone : (Ledger.empty.resolveAll zs).2 = none) :
    Ledger.empty.resolveAll xs = ((Ledger.empty.resolveAll zs).1.only (namesOf xs), none) := by
  have hrun := Ledger.resolveAll_filter_of_eq_none (namesOf xs) hnone
  have hxs : zs.filter (·.record.name ∈ namesOf xs) = xs := by
    apply h.filter_names
    · exact fun x hx => List.mem_map_of_mem hx
    · intro y hy hmem
      obtain ⟨x, hx, hname⟩ := List.mem_map.mp hmem
      exact hapart x hx y hy hname
  rwa [hxs] at hrun

/-- Behind mixed declarations that meet no conflict, one whose name is none of the second list
meets the conflict that it meets behind the first list alone. -/
theorem resolveAll_concat (h : Interleaving xs ys zs) (hapart : NamesApart xs ys) {d : Filing}
    (hd : ∀ y ∈ ys, d.record.name ≠ y.record.name)
    (hnone : (Ledger.empty.resolveAll zs).2 = none) :
    (Ledger.empty.resolveAll (zs ++ [d])).2 = (Ledger.empty.resolveAll (xs ++ [d])).2 := by
  let names := d.record.name :: namesOf xs
  have hmem : d.record.name ∈ names := List.mem_cons_self
  have hxs : zs.filter (·.record.name ∈ names) = xs := by
    apply h.filter_names
    · exact fun x hx => List.mem_cons_of_mem _ (List.mem_map_of_mem hx)
    · intro y hy hmem
      rcases List.mem_cons.mp hmem with hname | hmem
      · exact hd y hy hname.symm
      · obtain ⟨x, hx, hname⟩ := List.mem_map.mp hmem
        exact hapart x hx y hy hname
  have hrun := Ledger.resolveAll_filter_of_eq_none names hnone
  rw [hxs, show Ledger.empty.only names = Ledger.empty from rfl] at hrun
  have hxsNone : (Ledger.empty.resolveAll xs).2 = none := by rw [hrun]
  rw [Ledger.resolveAll_concat_of_eq_none hnone, Ledger.resolveAll_concat_of_eq_none hxsNone, hrun,
    Ledger.resolve_only _ hmem]

/-- If mixed declarations meet their conflict at one of the first list, so does this list
alone. -/
theorem offendsFirst_of_stop {xs' ys' zs' : List Filing} (h : Interleaving xs ys zs)
    (h' : Interleaving xs' ys' zs') {d : Filing}
    (hapart : NamesApart (xs ++ d :: xs') (ys ++ ys')) {c : Conflict}
    (hnone : (Ledger.empty.resolveAll zs).2 = none)
    (hsome : (Ledger.empty.resolveAll (zs ++ [d])).2 = some c) :
    (Ledger.empty.resolveAll (xs ++ d :: xs')).2 = some c ∧
      OffendsFirst (xs ++ d :: xs') (ys ++ ys') (zs ++ d :: zs') := by
  have hfront : NamesApart xs ys := hapart.mono (by simp) (by simp)
  have hname : ∀ y ∈ ys, d.record.name ≠ y.record.name := fun y hy =>
    hapart d (by simp) y (by simp [hy])
  have hd : (Ledger.empty.resolveAll (xs ++ [d])).2 = some c := by
    rw [← h.resolveAll_concat hfront hname hnone, hsome]
  constructor
  · rw [List.append_cons]
    exact Ledger.resolveAll_append_of_eq_some hd xs'
  · have hxs : (Ledger.empty.resolveAll xs).2 = none := by rw [h.resolveAll_left hfront hnone]
    have hys : (Ledger.empty.resolveAll ys).2 = none := by
      rw [h.symm.resolveAll_left hfront.symm hnone]
    exact .intro h h' hxs (by simp [hd]) hys

/-- A conflict of mixed declarations is that of one of the two lists alone, and the declaration
at which this list stops comes first. -/
theorem offendsFirst_of_eq_some (h : Interleaving xs ys zs) (hapart : NamesApart xs ys)
    {c : Conflict} (hsome : (Ledger.empty.resolveAll zs).2 = some c) :
    ((Ledger.empty.resolveAll xs).2 = some c ∧ OffendsFirst xs ys zs) ∨
      ((Ledger.empty.resolveAll ys).2 = some c ∧ OffendsFirst ys xs zs) := by
  obtain ⟨before, d, after, rfl, hbefore, hd⟩ := Ledger.exists_of_resolveAll_eq_some hsome
  obtain ⟨xs₁, xs₂, ys₁, ys₂, rfl, rfl, hfront, hback⟩ := h.exists_of_append
  cases hback with
  | left hback => exact .inl (hfront.offendsFirst_of_stop hback hapart hbefore hd)
  | right hback =>
    exact .inr (hfront.symm.offendsFirst_of_stop hback.symm hapart.symm hbefore hd)

/-- Mixed declarations meet no conflict exactly if both lists alone meet none. -/
theorem resolveAll_eq_none_iff (h : Interleaving xs ys zs) (hapart : NamesApart xs ys) :
    (Ledger.empty.resolveAll zs).2 = none ↔
      (Ledger.empty.resolveAll xs).2 = none ∧ (Ledger.empty.resolveAll ys).2 = none := by
  constructor
  · intro hnone
    rw [h.resolveAll_left hapart hnone, h.symm.resolveAll_left hapart.symm hnone]
    exact ⟨rfl, rfl⟩
  · rintro ⟨hxs, hys⟩
    cases hzs : (Ledger.empty.resolveAll zs).2 with
    | none => rfl
    | some c =>
      rcases h.offendsFirst_of_eq_some hapart hzs with ⟨hsome, -⟩ | ⟨hsome, -⟩
      · simp [hxs] at hsome
      · simp [hys] at hsome

end Interleaving

/-- If the declaration at which the first list stops comes first, mixed declarations meet the
conflict of this list. -/
theorem OffendsFirst.resolveAll_eq_some {xs ys zs : List Filing} (h : OffendsFirst xs ys zs)
    (hapart : NamesApart xs ys) {c : Conflict} (hsome : (Ledger.empty.resolveAll xs).2 = some c) :
    (Ledger.empty.resolveAll zs).2 = some c := by
  cases h with
  | @intro xs xs' ys ys' zs zs' d hbefore hafter hxs hd hys =>
    have hfront : NamesApart xs ys := hapart.mono (by simp) (by simp)
    have hname : ∀ y ∈ ys, d.record.name ≠ y.record.name := fun y hy =>
      hapart d (by simp) y (by simp [hy])
    have hnone := (hbefore.resolveAll_eq_none_iff hfront).mpr ⟨hxs, hys⟩
    obtain ⟨first, hfirst⟩ := Option.ne_none_iff_exists'.mp hd
    have hxsFirst := Ledger.resolveAll_append_of_eq_some hfirst xs'
    rw [List.append_assoc, List.singleton_append, hsome] at hxsFirst
    have hzsFirst : (Ledger.empty.resolveAll (zs ++ [d])).2 = some c := by
      rw [hbefore.resolveAll_concat hfront hname hnone, hfirst, hxsFirst]
    rw [List.append_cons]
    exact Ledger.resolveAll_append_of_eq_some hzsFirst zs'

/-- Declarations of different functions do not interact, however they are mixed. They meet no
conflict together exactly if those of each group meet none alone, and then both registries hold
the same records of the group, in the same order, as they do alone. Otherwise the conflict is
that of the group whose offending declaration comes first. -/
theorem interleaved_groups_resolve_apart {xs ys zs : List Filing} (h : Interleaving xs ys zs)
    (hapart : NamesApart xs ys) :
    let run := Ledger.empty.resolveAll
    ((run zs).2 = none ↔ (run xs).2 = none ∧ (run ys).2 = none) ∧
      ((run zs).2 = none → (run zs).1.only (namesOf xs) = (run xs).1 ∧
        (run zs).1.only (namesOf ys) = (run ys).1) ∧
      ∀ c, (run zs).2 = some c ↔ ((run xs).2 = some c ∧ OffendsFirst xs ys zs) ∨
        ((run ys).2 = some c ∧ OffendsFirst ys xs zs) := by
  intro run
  refine ⟨h.resolveAll_eq_none_iff hapart, fun hnone => ?_, fun c => ?_⟩
  · have hxs := h.resolveAll_left hapart hnone
    have hys := h.symm.resolveAll_left hapart.symm hnone
    exact ⟨(congrArg Prod.fst hxs).symm, (congrArg Prod.fst hys).symm⟩
  · constructor
    · exact h.offendsFirst_of_eq_some hapart
    · rintro (⟨hsome, hfirst⟩ | ⟨hsome, hfirst⟩)
      · exact hfirst.resolveAll_eq_some hapart hsome
      · exact hfirst.resolveAll_eq_some hapart.symm hsome

/-- Two functions of which each is at fault. The second definition of `g` comes before the second
prototype of `f`, so it decides. -/
theorem interleaved_groups_of_two_offenders :
    let f : Filing := ⟨.prototype, "f".toList, "int f(void)".toList, "a.h".toList, 1⟩
    let g : Filing := ⟨.definition, "g".toList, "int g(void)".toList, "a.h".toList, 2⟩
    let again : Filing := ⟨.definition, "g".toList, "int g(int a)".toList, "a.h".toList, 3⟩
    let xs := [f, f]
    let ys := [g, again]
    let zs := [f, g, again, f]
    Interleaving xs ys zs ∧ NamesApart xs ys ∧
      (Ledger.empty.resolveAll zs).2 = some ⟨.duplicateDefinition, again.record, g.record⟩ ∧
      (Ledger.empty.resolveAll ys).2 = some ⟨.duplicateDefinition, again.record, g.record⟩ ∧
      (Ledger.empty.resolveAll xs).2 = some ⟨.duplicatePrototype, f.record, f.record⟩ := by
  intro f g again xs ys zs
  have h : Interleaving xs ys zs := .left (.right (.right (.left .nil)))
  have hapart : NamesApart xs ys := by decide
  have hxs : (Ledger.empty.resolveAll xs).2 = some ⟨.duplicatePrototype, f.record, f.record⟩ := by
    decide
  have hys : (Ledger.empty.resolveAll ys).2 =
      some ⟨.duplicateDefinition, again.record, g.record⟩ := by decide
  have hbefore : Interleaving [g] [f] [f, g] := .right (.left .nil)
  have hfirst : OffendsFirst ys xs zs :=
    .intro hbefore (.right .nil) (by decide) (by decide) (by decide)
  exact ⟨h, hapart, ((interleaved_groups_resolve_apart h hapart).2.2 _).mpr (.inr ⟨hys, hfirst⟩),
    hys, hxs⟩

end PrototypeGate

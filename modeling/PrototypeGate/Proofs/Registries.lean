import Mathlib.Data.List.Nodup
import PrototypeGate.Proofs.Consistency

/-!
# Registries after failures

A run stops at its first failure, but its context can be used on: more lines can be read,
markers followed and declarations resolved. This file says what the registries are worth
then. No record is ever given up, a step that fails leaves both registries as they are, and
the one exception is a prototype of a function that is defined already, which is filed
before the conflict is noticed. It is also the only way in which a prototype can come to
stand beside a definition of another text.
-/

namespace PrototypeGate

/-- A single step of using a context. -/
inductive Step where
  /-- Read a line of the stream. -/
  | line (raw : Text)
  /-- Follow a line if it is a marker. -/
  | marker (raw : Text)
  /-- Resolve a declaration. -/
  | declaration (kind : Kind) (record : Record)

/-- A call on a context: a single step or a whole stream. -/
inductive Call where
  /-- Take a single step. -/
  | step (step : Step)
  /-- Read a stream up to its end or to the line that stops the run. -/
  | stream (lines : List Text)

namespace Context

/-- Take a single step. -/
def take (ctx : Context) : Step → Context × Option Halt
  | .line raw => ctx.readLine raw
  | .marker raw =>
    match Marker.read? raw with
    | some marker => ctx.follow marker
    | none => (ctx, none)
  | .declaration kind record => ctx.resolve kind record

/-- Make a call. -/
def call (ctx : Context) : Call → Context × Option Halt
  | .step step => ctx.take step
  | .stream lines => ctx.check lines

/-- Make calls in order and go on after each, whether it halted or not. The second
component is the history of what the calls halted for. -/
def callAll (ctx : Context) : List Call → Context × List Halt
  | [] => (ctx, [])
  | call :: rest =>
    let (next, halt) := ctx.call call
    (next.callAll rest).map id (halt.toList ++ ·)

end Context

namespace Ledger

/-- What resolving a declaration can do to the registries, and what comes of it. -/
inductive Resolved (l : Ledger) (record : Record) : Kind → Ledger → Option Conflict → Prop
  /-- The declaration is refused. -/
  | refused {kind : Kind} {c : Conflict} (hcode : c.condition.code ≠ 3) :
      Resolved l record kind l (some c)
  /-- The first prototype of a function that is not defined is filed. -/
  | prototype (hfirst : l.prototypes.find? record.name = none)
      (hdefinition : l.definitions.find? record.name = none) :
      Resolved l record .prototype { l with prototypes := l.prototypes.insert record } none
  /-- The first prototype of a function that is defined already is filed in conflict. -/
  | late {prior : Record} (hfirst : l.prototypes.find? record.name = none)
      (hprior : l.definitions.find? record.name = some prior) :
      Resolved l record .prototype { l with prototypes := l.prototypes.insert record }
        (some ⟨.prototypeAfterDefinition, record, prior⟩)
  /-- The first definition of a function is filed, if its prototype has the same text. -/
  | definition (hfirst : l.definitions.find? record.name = none)
      (hagrees : ∀ p, l.prototypes.find? record.name = some p → p.signature = record.signature) :
      Resolved l record .definition { l with definitions := l.definitions.insert record } none

/-- Later registries hold what earlier ones did, and perhaps more behind it. -/
structure Extended (l next : Ledger) : Prop where
  /-- No prototype is given up. -/
  prototypes : l.prototypes.records <+: next.prototypes.records
  /-- No definition is given up. -/
  definitions : l.definitions.records <+: next.definitions.records

/-- What one step may do to the registries, given what it halted for. -/
structure Retained (l next : Ledger) (halt : Option Halt) : Prop extends Extended l next where
  /-- At most one record is filed. -/
  one : next.prototypes.size + next.definitions.size ≤
    l.prototypes.size + l.definitions.size + 1
  /-- Four of the conflicts change nothing. -/
  refused : ∀ c, halt = some (.conflict c) → c.condition.code ≠ 3 → next = l
  /-- The other one files the offending prototype and nothing else. -/
  late : ∀ c, halt = some (.conflict c) → c.condition.code = 3 →
    next = { l with prototypes := l.prototypes.insert c.record }
  /-- A line number that cannot be read changes nothing. -/
  unreadable : ∀ digits, halt = some (.longNumber digits) → next = l

/-- What holds of the registries of a context with a history, failures included. -/
structure Accounted (history : List Halt) (l : Ledger) : Prop where
  /-- No two prototypes have the same name. -/
  prototypes : (l.prototypes.records.map Record.name).Nodup
  /-- No two definitions have the same name. -/
  definitions : (l.definitions.records.map Record.name).Nodup
  /-- A prototype beside a definition of another text was filed in conflict. -/
  mixed : ∀ p ∈ l.prototypes.records, ∀ d ∈ l.definitions.records, p.name = d.name →
    p.signature ≠ d.signature →
      ∃ c, .conflict c ∈ history ∧ c.condition.code = 3 ∧ c.record.name = p.name

/-- The same registries give up nothing. -/
theorem Extended.refl (l : Ledger) : l.Extended l :=
  ⟨List.prefix_rfl, List.prefix_rfl⟩

/-- What is kept twice is kept. -/
theorem Extended.trans {l next last : Ledger} (h : l.Extended next) (h' : next.Extended last) :
    l.Extended last :=
  ⟨h.prototypes.trans h'.prototypes, h.definitions.trans h'.definitions⟩

/-! ### One declaration -/

private theorem fileDefinition_resolved {l : Ledger} {record : Record}
    (hagrees : ∀ p, l.prototypes.find? record.name = some p → p.signature = record.signature) :
    l.Resolved record .definition (l.fileDefinition record).1 (l.fileDefinition record).2 := by
  rw [fileDefinition]
  cases hfirst : l.definitions.find? record.name with
  | some prior => exact .refused (by simp [Condition.code])
  | none => exact .definition hfirst hagrees

/-- Resolving a declaration does one of the four things. -/
theorem resolve_resolved (l : Ledger) (kind : Kind) (record : Record) :
    l.Resolved record kind (l.resolve kind record).1 (l.resolve kind record).2 := by
  cases kind with
  | prototype =>
    rw [resolve, resolvePrototype]
    cases hfirst : l.prototypes.find? record.name with
    | some prior =>
      by_cases htext : prior.signature = record.signature
      · simp only [if_pos htext]
        exact .refused (by simp [Condition.code])
      · simp only [if_neg htext]
        exact .refused (by simp [Condition.code])
    | none =>
      cases hdefinition : l.definitions.find? record.name with
      | some prior => exact .late hfirst hdefinition
      | none => exact .prototype hfirst hdefinition
  | definition =>
    rw [resolve, resolveDefinition]
    cases hprototype : l.prototypes.find? record.name with
    | none => exact fileDefinition_resolved (by simp [hprototype])
    | some prior =>
      by_cases htext : prior.signature = record.signature
      · simp only [if_pos htext]
        exact fileDefinition_resolved (by simpa [hprototype] using htext)
      · simp only [if_neg htext]
        exact .refused (by simp [Condition.code])

/-- Resolving a declaration gives up no record and contains its failures. -/
theorem Resolved.retained {l next : Ledger} {record : Record} {kind : Kind}
    {conflict : Option Conflict} (h : l.Resolved record kind next conflict) :
    l.Retained next (conflict.map .conflict) := by
  cases h with
  | refused hcode =>
    refine ⟨.refl l, Nat.le_succ _, fun _ _ _ => rfl, ?_, by simp⟩
    rintro c hc hlate
    obtain rfl : _ = c := by simpa using hc
    exact absurd hlate hcode
  | prototype hfirst hdefinition =>
    refine ⟨⟨List.prefix_append _ _, List.prefix_rfl⟩, ?_, by simp, by simp, by simp⟩
    simp only [Registry.size, Registry.insert, List.length_append, List.length_singleton]
    omega
  | late hfirst hprior =>
    refine ⟨⟨List.prefix_append _ _, List.prefix_rfl⟩, ?_, ?_, ?_, by simp⟩
    · simp only [Registry.size, Registry.insert, List.length_append, List.length_singleton]
      omega
    · rintro c hc hcode
      obtain rfl : _ = c := by simpa using hc
      exact absurd rfl hcode
    · rintro c hc -
      obtain rfl : _ = c := by simpa using hc
      rfl
  | definition hfirst hagrees =>
    refine ⟨⟨List.prefix_rfl, List.prefix_append _ _⟩, ?_, by simp, by simp, by simp⟩
    simp only [Registry.size, Registry.insert, List.length_append, List.length_singleton]
    omega

end Ledger

/-! ### Names -/

namespace Registry

variable {r : Registry}

/-- A registry without repeated names finds each record under its own name, and nothing
else. -/
theorem find?_eq_some_iff (hr : (r.records.map Record.name).Nodup) {name : Text}
    {record : Record} :
    r.find? name = some record ↔ record ∈ r.records ∧ record.name = name := by
  refine ⟨mem_of_find?_eq_some, ?_⟩
  rintro ⟨hmem, rfl⟩
  cases hfound : r.find? record.name with
  | none => exact absurd rfl (find?_eq_none_iff.mp hfound record hmem)
  | some other =>
    obtain ⟨hother, hname⟩ := mem_of_find?_eq_some hfound
    rw [List.inj_on_of_nodup_map hr hother hmem hname]

/-- A record of a new name repeats none. -/
theorem nodup_insert (hr : (r.records.map Record.name).Nodup) {record : Record}
    (hfirst : r.find? record.name = none) :
    ((r.insert record).records.map Record.name).Nodup := by
  have hnew : record.name ∉ r.records.map Record.name := by
    rw [List.mem_map]
    rintro ⟨other, hother, hname⟩
    exact find?_eq_none_iff.mp hfirst other hother hname
  rw [insert, List.map_append, List.map_singleton, List.nodup_append_comm]
  exact List.nodup_cons.mpr ⟨hnew, hr⟩

end Registry

namespace Ledger

/-- A longer history accounts for the same registries. -/
theorem Accounted.append {history : List Halt} {l : Ledger} (hl : l.Accounted history)
    (more : List Halt) : l.Accounted (history ++ more) := by
  refine ⟨hl.prototypes, hl.definitions, fun p hp d hd hname htext => ?_⟩
  obtain ⟨c, hc, hlate⟩ := hl.mixed p hp d hd hname htext
  exact ⟨c, List.mem_append_left more hc, hlate⟩

/-- Resolving a declaration keeps the registries accounted for. -/
theorem Resolved.accounted {l next : Ledger} {record : Record} {kind : Kind}
    {conflict : Option Conflict} (h : l.Resolved record kind next conflict)
    {history : List Halt} (hl : l.Accounted history) :
    next.Accounted (history ++ (conflict.map Halt.conflict).toList) := by
  have hold := hl.append (conflict.map Halt.conflict).toList
  cases h with
  | refused hcode => exact hold
  | prototype hfirst hdefinition =>
    refine ⟨Registry.nodup_insert hl.prototypes hfirst, hl.definitions, ?_⟩
    intro p hp d hd hname htext
    rcases List.mem_append.mp hp with hp | hp
    · exact hold.mixed p hp d hd hname htext
    · obtain rfl : p = record := List.mem_singleton.mp hp
      exact absurd hname.symm (Registry.find?_eq_none_iff.mp hdefinition d hd)
  | late hfirst hprior =>
    refine ⟨Registry.nodup_insert hl.prototypes hfirst, hl.definitions, ?_⟩
    intro p hp d hd hname htext
    rcases List.mem_append.mp hp with hp | hp
    · exact hold.mixed p hp d hd hname htext
    · obtain rfl : p = record := List.mem_singleton.mp hp
      exact ⟨_, List.mem_append_right history List.mem_cons_self, rfl, rfl⟩
  | definition hfirst hagrees =>
    refine ⟨hl.prototypes, Registry.nodup_insert hl.definitions hfirst, ?_⟩
    intro p hp d hd hname htext
    rcases List.mem_append.mp hd with hd | hd
    · exact hold.mixed p hp d hd hname htext
    · -- The definition would have been refused beside a prototype of another text.
      obtain rfl : d = record := List.mem_singleton.mp hd
      have hfound := (Registry.find?_eq_some_iff hl.prototypes).mpr ⟨hp, hname⟩
      exact absurd (hagrees p hfound) htext

end Ledger

/-! ### Steps and calls -/

namespace Context

variable (ctx : Context)

/-- Following a marker leaves the registries alone. -/
theorem follow_ledger (m : Marker) :
    (ctx.follow m).1.ledger = ctx.ledger ∧ ∀ c, (ctx.follow m).2 ≠ some (.conflict c) := by
  rw [follow, Position.follow]
  cases m.number? <;> simp

/-- A step either leaves the registries alone and meets no conflict, or resolves a
declaration. -/
theorem take_cases (step : Step) :
    ((ctx.take step).1.ledger = ctx.ledger ∧ ∀ c, (ctx.take step).2 ≠ some (.conflict c)) ∨
      ∃ kind record conflict,
        ctx.ledger.Resolved record kind (ctx.take step).1.ledger conflict ∧
          (ctx.take step).2 = conflict.map .conflict := by
  cases step with
  | line raw =>
    rw [take, readLine]
    cases Marker.read? (Text.trim raw) with
    | some marker => exact .inl (ctx.follow_ledger marker)
    | none =>
      cases classify ctx.keywords (Text.trim raw) with
      | none => exact .inl ⟨rfl, by simp⟩
      | some found => exact .inr ⟨_, _, _, ctx.ledger.resolve_resolved _ _, rfl⟩
  | marker raw =>
    rw [take]
    cases Marker.read? raw with
    | some marker => exact .inl (ctx.follow_ledger marker)
    | none => exact .inl ⟨rfl, by simp⟩
  | declaration kind record => exact .inr ⟨_, _, _, ctx.ledger.resolve_resolved _ _, rfl⟩

/-- A step gives up no record and contains its failures. -/
theorem take_retained (step : Step) :
    ctx.ledger.Retained (ctx.take step).1.ledger (ctx.take step).2 := by
  rcases ctx.take_cases step with ⟨hsame, hnone⟩ | ⟨kind, record, conflict, hresolved, hhalt⟩
  · rw [hsame]
    exact ⟨.refl _, Nat.le_succ _, fun _ _ _ => rfl, fun c hc _ => absurd hc (hnone c),
      fun _ _ => rfl⟩
  · rw [hhalt]
    exact hresolved.retained

/-- A step keeps the registries accounted for. -/
theorem take_accounted (step : Step) {history : List Halt} (h : ctx.ledger.Accounted history) :
    (ctx.take step).1.ledger.Accounted (history ++ (ctx.take step).2.toList) := by
  rcases ctx.take_cases step with ⟨hsame, -⟩ | ⟨kind, record, conflict, hresolved, hhalt⟩
  · rw [hsame]
    exact h.append _
  · rw [hhalt]
    exact hresolved.accounted h

/-- A stream is read by single steps, so reading it gives up no record. -/
theorem check_extended (lines : List Text) : ctx.ledger.Extended (ctx.check lines).1.ledger := by
  induction lines generalizing ctx with
  | nil => exact .refl _
  | cons raw rest ih =>
    have hline := (ctx.take_retained (.line raw)).toExtended
    rw [take] at hline
    rw [check]
    generalize ctx.readLine raw = outcome at hline
    obtain ⟨next, _ | halt⟩ := outcome
    · exact hline.trans (ih next)
    · exact hline

/-- Calls give up no record. -/
theorem callAll_extended (calls : List Call) :
    ctx.ledger.Extended (ctx.callAll calls).1.ledger := by
  induction calls generalizing ctx with
  | nil => exact .refl _
  | cons call rest ih =>
    have hcall : ctx.ledger.Extended (ctx.call call).1.ledger := by
      cases call with
      | step step => exact (ctx.take_retained step).toExtended
      | stream lines => exact ctx.check_extended lines
    exact hcall.trans (ih _)

/-- Reading a stream keeps the registries accounted for. -/
theorem check_accounted (lines : List Text) {history : List Halt}
    (h : ctx.ledger.Accounted history) :
    (ctx.check lines).1.ledger.Accounted (history ++ (ctx.check lines).2.toList) := by
  induction lines generalizing ctx with
  | nil => exact h.append _
  | cons raw rest ih =>
    have hline := ctx.take_accounted (.line raw) h
    rw [take] at hline
    rw [check]
    generalize ctx.readLine raw = outcome at hline
    obtain ⟨next, _ | halt⟩ := outcome
    · rw [Option.toList_none, List.append_nil] at hline
      exact ih next hline
    · exact hline

/-- Calls keep the registries accounted for by the history they leave. -/
theorem callAll_accounted (calls : List Call) {history : List Halt}
    (h : ctx.ledger.Accounted history) :
    (ctx.callAll calls).1.ledger.Accounted (history ++ (ctx.callAll calls).2) := by
  induction calls generalizing ctx history with
  | nil => exact h.append _
  | cons call rest ih =>
    have hcall : (ctx.call call).1.ledger.Accounted (history ++ (ctx.call call).2.toList) := by
      cases call with
      | step step => exact ctx.take_accounted step h
      | stream lines => exact ctx.check_accounted lines h
    have hrest := ih _ hcall
    rw [List.append_assoc] at hrest
    exact hrest

end Context

/-- Whatever is done with a context that starts with empty registries, and whatever fails on
the way: each registry holds at most one record of a name and finds it under that name, and
no record is ever given up. The next single step files at most one record, and changes
neither registry if it fails, except that a prototype after the definition of its function
is filed. A prototype beside a definition of its name with another text was filed that
way. -/
theorem registries_keep_records_whatever_fails (keywords : List Text) (p : Position)
    (calls : List Call) :
    let run := (⟨keywords, p, .empty⟩ : Context).callAll calls
    let l := run.1.ledger
    (∀ r ∈ [l.prototypes, l.definitions], (r.records.map Record.name).Nodup ∧
        ∀ name record, r.find? name = some record ↔ record ∈ r.records ∧ record.name = name) ∧
      (∀ more, l.Extended (run.1.callAll more).1.ledger) ∧
      (∀ step, l.Retained (run.1.take step).1.ledger (run.1.take step).2) ∧
      ∀ q ∈ l.prototypes.records, ∀ d ∈ l.definitions.records, q.name = d.name →
        q.signature ≠ d.signature →
          ∃ c, .conflict c ∈ run.2 ∧ c.condition.code = 3 ∧ c.record.name = q.name := by
  intro run l
  have hempty : Ledger.empty.Accounted [] :=
    ⟨List.nodup_nil, List.nodup_nil, fun _ hp => absurd hp List.not_mem_nil⟩
  have hrun : l.Accounted run.2 :=
    Context.callAll_accounted ⟨keywords, p, .empty⟩ calls hempty
  have hnames (r : Registry) (hr : (r.records.map Record.name).Nodup) :
      (r.records.map Record.name).Nodup ∧
        ∀ name record, r.find? name = some record ↔ record ∈ r.records ∧ record.name = name :=
    ⟨hr, fun _ _ => Registry.find?_eq_some_iff hr⟩
  refine ⟨?_, run.1.callAll_extended, run.1.take_retained, hrun.mixed⟩
  rw [List.forall_mem_cons, List.forall_mem_singleton]
  exact ⟨hnames _ hrun.prototypes, hnames _ hrun.definitions⟩

/-- A prototype that comes after its definition stays beside it with another text, and the next
one like it is a repetition. -/
example :
    let run := (Context.initial []).callAll
      [.stream ["int f(int a)".toList, "int f(void);".toList, "int g(void);".toList],
        .step (.line "int f(void);".toList)]
    run.1.ledger.definitions.records.map Record.signature = ["int f(int a)".toList] ∧
      run.1.ledger.prototypes.records.map Record.signature = ["int f(void)".toList] ∧
      run.2.length = 2 := by
  decide +kernel

end PrototypeGate

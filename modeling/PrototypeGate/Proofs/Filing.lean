import PrototypeGate.Check.Context

/-!
# The declarations of a stream

Reading a stream does two things that can be told apart. It files declarations, each
under the position it is read at, and it resolves what was filed. This file separates
them: `filings` lists the declarations of a stream without looking at any registry,
`Ledger.resolveAll` resolves a list of declarations without looking at any line, and a
run is one after the other as long as every line number can be read.
-/

namespace PrototypeGate

/-- A declaration of a stream: its kind and the record it is filed as. -/
structure Filing where
  /-- Prototype or definition. -/
  kind : Kind
  /-- The declaration with its name and place. -/
  record : Record
  deriving DecidableEq, Repr

/-- The position after a line of the stream. -/
def Position.after (p : Position) (raw : Text) : Position :=
  match Marker.read? (Text.trim raw) with
  | some marker => (p.follow marker).1
  | none => { p with nextLine := p.nextLine + 1 }

/-- The declaration on a line that is read at a position. A marker holds none. -/
def filing? (keywords : List Text) (p : Position) (raw : Text) : Option Filing :=
  match Marker.read? (Text.trim raw) with
  | some _ => none
  | none => (classify keywords (Text.trim raw)).map fun found =>
      ⟨found.kind, ⟨declaredName found.text, found.text, p.file, p.nextLine⟩⟩

/-- The declarations of a stream in order, each with the position it is read at. -/
def filings (keywords : List Text) : Position → List Text → List Filing
  | _, [] => []
  | p, raw :: rest => (filing? keywords p raw).toList ++ filings keywords (p.after raw) rest

/-- The line is no marker whose line number has too many digits. -/
def NumberReadable (raw : Text) : Prop :=
  ∀ marker, Marker.read? (Text.trim raw) = some marker → marker.digits.length ≤ Marker.digitLimit

instance (raw : Text) : Decidable (NumberReadable raw) :=
  decidable_of_iff
    ((Marker.read? (Text.trim raw)).all fun marker => marker.digits.length ≤ Marker.digitLimit)
    (by simp [NumberReadable, Option.all_eq_true])

/-- A line that is no marker has no line number to read. -/
theorem numberReadable_of_content {raw : Text} (h : Marker.read? (Text.trim raw) = none) :
    NumberReadable raw := by
  intro marker hmarker
  rw [h] at hmarker
  cases hmarker

/-- Resolve declarations in order, up to the first conflict. -/
def Ledger.resolveAll (l : Ledger) : List Filing → Ledger × Option Conflict
  | [] => (l, none)
  | d :: rest =>
    match l.resolve d.kind d.record with
    | (next, none) => next.resolveAll rest
    | (next, some conflict) => (next, some conflict)

/-- The declarations of a stream in two parts are those of its parts, the second part
read from the position that the first one leads to. -/
theorem filings_append (keywords : List Text) (p : Position) (xs ys : List Text) :
    filings keywords p (xs ++ ys) =
      filings keywords p xs ++ filings keywords (xs.foldl Position.after p) ys := by
  induction xs generalizing p with
  | nil => rfl
  | cons x xs ih =>
    simp only [List.cons_append, filings, List.foldl_cons, ih, List.append_assoc]

/-- Whatever stands on one line, it files at most one declaration, so a declaration of
a stream comes from a line of its own. -/
theorem filings_eq_append_cons {keywords : List Text} {p : Position} {lines : List Text}
    {before after : List Filing} {d : Filing}
    (h : filings keywords p lines = before ++ d :: after) :
    ∃ above raw below, lines = above ++ raw :: below ∧ filings keywords p above = before ∧
      filing? keywords (above.foldl Position.after p) raw = some d := by
  induction lines generalizing p before with
  | nil => simp [filings] at h
  | cons line rest ih =>
    rw [filings] at h
    cases hfound : filing? keywords p line with
    | none =>
      rw [hfound, Option.toList_none, List.nil_append] at h
      obtain ⟨above, raw, below, rfl, rfl, hd⟩ := ih h
      exact ⟨line :: above, raw, below, rfl, by simp [filings, hfound], hd⟩
    | some first =>
      rw [hfound, Option.toList_some, List.singleton_append] at h
      cases before with
      | nil =>
        obtain ⟨rfl, -⟩ := List.cons.inj h
        exact ⟨[], line, rest, rfl, rfl, hfound⟩
      | cons e before =>
        obtain ⟨rfl, htail⟩ := List.cons.inj h
        obtain ⟨above, raw, below, rfl, rfl, hd⟩ := ih htail
        exact ⟨line :: above, raw, below, rfl, by simp [filings, hfound], hd⟩

/-- A list of declarations is resolved in two parts. -/
theorem Ledger.resolveAll_append (l : Ledger) (xs ys : List Filing) :
    l.resolveAll (xs ++ ys) =
      match l.resolveAll xs with
      | (next, none) => next.resolveAll ys
      | (next, some conflict) => (next, some conflict) := by
  induction xs generalizing l with
  | nil => rfl
  | cons x xs ih =>
    simp only [List.cons_append, Ledger.resolveAll]
    rcases l.resolve x.kind x.record with ⟨next, _ | conflict⟩
    · exact ih next
    · rfl

/-- Declarations are resolved without a conflict exactly if the first one is, and the others
behind it. -/
theorem Ledger.resolveAll_cons_eq_none_iff {l : Ledger} {d : Filing} {ds : List Filing} :
    (l.resolveAll (d :: ds)).2 = none ↔
      (l.resolve d.kind d.record).2 = none ∧
        ((l.resolve d.kind d.record).1.resolveAll ds).2 = none := by
  rw [resolveAll]
  rcases l.resolve d.kind d.record with ⟨next, _ | conflict⟩ <;> simp

/-- Behind a declaration that meets no conflict the others are resolved in the ledger that it
leads to. -/
theorem Ledger.resolveAll_cons_of_eq_none {l : Ledger} {d : Filing}
    (hnone : (l.resolve d.kind d.record).2 = none) (ds : List Filing) :
    l.resolveAll (d :: ds) = (l.resolve d.kind d.record).1.resolveAll ds := by
  rw [resolveAll]
  generalize l.resolve d.kind d.record = outcome at hnone ⊢
  obtain ⟨next, conflict⟩ := outcome
  obtain rfl : conflict = none := hnone
  rfl

/-- A declaration alone is resolved. -/
theorem Ledger.resolveAll_singleton (l : Ledger) (d : Filing) :
    l.resolveAll [d] = l.resolve d.kind d.record := by
  rw [resolveAll]
  rcases l.resolve d.kind d.record with ⟨next, _ | conflict⟩ <;> rfl

namespace Context

/-- Reading a line whose number can be read moves the position on and resolves the
declaration on the line, if there is one. -/
theorem readLine_eq (ctx : Context) {raw : Text} (hraw : NumberReadable raw) :
    ctx.readLine raw =
      match ctx.ledger.resolveAll (filing? ctx.keywords ctx.position raw).toList with
      | (ledger, conflict) =>
        (⟨ctx.keywords, ctx.position.after raw, ledger⟩, conflict.map .conflict) := by
  cases hmarker : Marker.read? (Text.trim raw) with
  | some marker =>
    have hnumber : marker.number? = some (decimalNumber marker.digits) :=
      if_pos (hraw marker hmarker)
    simp only [readLine, filing?, Position.after, hmarker, follow, Position.follow, hnumber,
      Option.toList_none, Ledger.resolveAll, Option.map_none]
  | none =>
    cases hfound : classify ctx.keywords (Text.trim raw) with
    | none =>
      simp only [readLine, filing?, Position.after, hmarker, hfound, Option.map_none,
        Option.toList_none, Ledger.resolveAll]
    | some found =>
      simp only [readLine, filing?, Position.after, hmarker, hfound, Option.map_some,
        Option.toList_some, Ledger.resolveAll, resolve]
      generalize ctx.ledger.resolve found.kind _ = outcome
      rcases outcome with ⟨next, _ | conflict⟩ <;> rfl

/-- A stream is checked in two parts. -/
theorem check_append (ctx : Context) (xs ys : List Text) :
    ctx.check (xs ++ ys) =
      match ctx.check xs with
      | (next, none) => next.check ys
      | (next, some halt) => (next, some halt) := by
  induction xs generalizing ctx with
  | nil => rfl
  | cons x xs ih =>
    simp only [List.cons_append, check]
    rcases ctx.readLine x with ⟨next, _ | halt⟩
    · exact ih next
    · rfl

/-- A run over lines whose numbers can be read files the declarations of the stream and
resolves them: it ends with the registries, and stops at the conflict, that resolving
them gives. -/
theorem check_eq_resolveAll (ctx : Context) {lines : List Text}
    (hlines : ∀ raw ∈ lines, NumberReadable raw) :
    (ctx.check lines).1.ledger =
        (ctx.ledger.resolveAll (filings ctx.keywords ctx.position lines)).1 ∧
      (ctx.check lines).2 =
        (ctx.ledger.resolveAll (filings ctx.keywords ctx.position lines)).2.map .conflict := by
  induction lines generalizing ctx with
  | nil => exact ⟨rfl, rfl⟩
  | cons raw rest ih =>
    have hraw : NumberReadable raw := hlines raw List.mem_cons_self
    have hrest : ∀ line ∈ rest, NumberReadable line :=
      fun line hline => hlines line (List.mem_cons_of_mem _ hline)
    simp only [check, filings, ctx.readLine_eq hraw, Ledger.resolveAll_append]
    rcases ctx.ledger.resolveAll (filing? ctx.keywords ctx.position raw).toList with
      ⟨next, _ | conflict⟩
    · exact ih ⟨ctx.keywords, ctx.position.after raw, next⟩ hrest
    · exact ⟨rfl, rfl⟩

/-- A line that does not stop a run has a number that can be read, if it is a marker. -/
theorem numberReadable_of_readLine_eq_none {ctx : Context} {raw : Text}
    (hnone : (ctx.readLine raw).2 = none) : NumberReadable raw := by
  intro marker hmarker
  apply Decidable.byContradiction
  intro hdigits
  have hnumber : marker.number? = none := if_neg hdigits
  simp [readLine, hmarker, follow, Position.follow, hnumber] at hnone

/-- A run over a line and others reads on behind the line if that does not stop it. -/
theorem check_cons_eq_none_iff {ctx : Context} {raw : Text} {rest : List Text} :
    (ctx.check (raw :: rest)).2 = none ↔
      (ctx.readLine raw).2 = none ∧ ((ctx.readLine raw).1.check rest).2 = none := by
  rw [check]
  rcases ctx.readLine raw with ⟨next, _ | halt⟩ <;> simp

/-- A line that does not stop a run leads to the context in which the others are read. -/
theorem check_cons_of_readLine_eq_none {ctx : Context} {raw : Text}
    (hnone : (ctx.readLine raw).2 = none) (rest : List Text) :
    ctx.check (raw :: rest) = (ctx.readLine raw).1.check rest := by
  rw [check]
  generalize ctx.readLine raw = outcome at hnone ⊢
  obtain ⟨next, halt⟩ := outcome
  obtain rfl : halt = none := hnone
  rfl

/-- A run that reads everything can read every line number. -/
theorem numberReadable_of_check_eq_none {ctx : Context} {lines : List Text}
    (hnone : (ctx.check lines).2 = none) : ∀ raw ∈ lines, NumberReadable raw := by
  induction lines generalizing ctx with
  | nil => simp
  | cons raw rest ih =>
    obtain ⟨hraw, hrest⟩ := check_cons_eq_none_iff.mp hnone
    exact List.forall_mem_cons.mpr ⟨numberReadable_of_readLine_eq_none hraw, ih hrest⟩

/-- A run that reads everything ends at the position that its lines lead to. -/
theorem position_check_of_eq_none {ctx : Context} {lines : List Text}
    (hnone : (ctx.check lines).2 = none) :
    (ctx.check lines).1.position = lines.foldl Position.after ctx.position := by
  induction lines generalizing ctx with
  | nil => rfl
  | cons raw rest ih =>
    obtain ⟨hraw, hrest⟩ := check_cons_eq_none_iff.mp hnone
    have hposition : (ctx.readLine raw).1.position = ctx.position.after raw := by
      rw [ctx.readLine_eq (numberReadable_of_readLine_eq_none hraw)]
    rw [check_cons_of_readLine_eq_none hraw, ih hrest, hposition, List.foldl_cons]

end Context

end PrototypeGate

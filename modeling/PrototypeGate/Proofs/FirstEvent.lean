import PrototypeGate.Proofs.Stopping
import PrototypeGate.Proofs.Verdict

/-!
# The first event of a check

A check by the built-in normalizer reads a file when its turn comes and not before. Two kinds of
event can end it: a file cannot be read, or a line is in conflict with what was filed. This file
shows that the first event ends it, whichever kind it is, in the context that the lines read so
far lead to. What would come later, files that are missing or in conflict included, is not
looked at.
-/

namespace PrototypeGate

namespace World

/-- The files at these paths can be read, and reading their lines leads from one context to
another without an event. -/
def Passes (w : World) (ctx : Context) (paths : List Path) (next : Context) : Prop :=
  ∃ sources, w.Reads paths sources ∧
    ctx.check (sources.flatMap Source.normalize) = (next, none)

/-- What happens at the file at a path that is read in a context, and the context it leaves. -/
inductive EventAt (w : World) (ctx : Context) (path : Path) : Context → Interruption → Prop
  /-- The file cannot be read, so it leaves the context alone. -/
  | unreadable {problem : FileProblem} (hread : w.read path = .error problem) :
      EventAt w ctx path ctx (.failure (.tool
        (.sourceUnreadable (String.ofList path) ⟨problem, String.ofList path⟩)))
  /-- A line of the file is in conflict. It leaves what the lines up to it have led to. -/
  | conflict {content : List UInt8} {above below : List Text} {raw : Text} {mid last : Context}
      {c : Conflict} (hread : w.read path = .ok content)
      (hlines : Source.normalize ⟨path, Tree.sourceText content⟩ = above ++ raw :: below)
      (habove : ctx.check above = (mid, none))
      (hraw : mid.readLine raw = (last, some (.conflict c))) :
      EventAt w ctx path last (.halt (.conflict c))

/-- Something happens at one of the files, and nothing at those before it. -/
def FirstEvent (w : World) (ctx : Context) (paths : List Path) (last : Context)
    (event : Interruption) : Prop :=
  ∃ before path after next, paths = before ++ path :: after ∧ w.Passes ctx before next ∧
    w.EventAt next path last event

variable {w : World} {ctx next last : Context} {path : Path}

/-! ### Files that pass -/

/-- A check goes on behind files at which nothing happens. -/
theorem checkFiles_append_of_passes {before : List Path} (hbefore : w.Passes ctx before next)
    (paths : List Path) : w.checkFiles ctx (before ++ paths) = w.checkFiles next paths := by
  obtain ⟨sources, hreads, hcheck⟩ := hbefore
  induction hreads generalizing ctx with
  | nil =>
    obtain rfl : ctx = next := (Prod.mk.inj hcheck).1
    rfl
  | @cons path source before sources hsource _ ih =>
    rw [List.flatMap_cons, Context.check_append] at hcheck
    cases hfirst : ctx.check source.normalize with
    | mk mid halt =>
      rw [hfirst] at hcheck
      cases halt with
      | some halt => cases (Prod.mk.inj hcheck).2
      | none =>
        rw [List.cons_append, checkFiles, hsource]
        simp only [hfirst]
        exact ih hcheck

/-- A file that can be read and whose lines stop nothing passes before others. -/
theorem Passes.cons {source : Source} {paths : List Path} (hsource : w.readSource path = .ok source)
    (hfirst : ctx.check source.normalize = (next, none)) (h : w.Passes next paths last) :
    w.Passes ctx (path :: paths) last := by
  obtain ⟨sources, hreads, hcheck⟩ := h
  refine ⟨source :: sources, .cons hsource hreads, ?_⟩
  rw [List.flatMap_cons, Context.check_append, hfirst]
  exact hcheck

/-- Files pass in another world if they have the same contents there. -/
theorem Passes.of_read_eq {before : List Path} (h : w.Passes ctx before next) {other : World}
    (hread : ∀ q ∈ before, other.read q = w.read q) :
    other.Passes ctx before next := by
  obtain ⟨sources, hreads, hcheck⟩ := h
  refine ⟨sources, ?_, hcheck⟩
  clear hcheck
  induction hreads with
  | nil => exact .nil
  | @cons path source before sources hsource _ ih =>
    rw [List.forall_mem_cons] at hread
    refine .cons ?_ (ih hread.2)
    rw [← hsource, readSource, readSource, hread.1]

/-! ### Events -/

/-- The event at a file is the same in another world if the file has the same content there. -/
theorem EventAt.of_read_eq {event : Interruption} (h : w.EventAt ctx path last event)
    {other : World} (hread : other.read path = w.read path) :
    other.EventAt ctx path last event := by
  cases h with
  | unreadable hproblem => exact .unreadable (hread.trans hproblem)
  | conflict hcontent hlines habove hraw =>
    exact .conflict (hread.trans hcontent) hlines habove hraw

/-- A check ends with the event at the file whose turn it is. -/
theorem checkFiles_of_eventAt (hpath : Tree.isSound path) {event : Interruption}
    (hevent : w.EventAt ctx path last event) (after : List Path) :
    w.checkFiles ctx (path :: after) = (last, some event) := by
  cases hevent with
  | unreadable hread => simp [checkFiles, readSource, hpath, hread]
  | conflict hread hlines habove hraw =>
    have hcheck := Context.check_eq_some_iff.mpr ⟨_, _, _, _, hlines, habove, hraw⟩
    simp [checkFiles, readSource, hpath, hread, hcheck]

/-- The first event ends a check, whatever files come later. -/
theorem checkFiles_of_passes_of_eventAt {before : List Path} (hbefore : w.Passes ctx before next)
    (hpath : Tree.isSound path) {event : Interruption} (hevent : w.EventAt next path last event)
    (after : List Path) :
    w.checkFiles ctx (before ++ path :: after) = (last, some event) := by
  rw [checkFiles_append_of_passes hbefore]
  exact checkFiles_of_eventAt hpath hevent after

/-- A check that ends early has met the first event, unless a line number was too long. -/
theorem firstEvent_of_checkFiles {paths : List Path} (hpaths : ∀ q ∈ paths, Tree.isSound q)
    {event : Interruption} (hevent : ∀ digits, event ≠ .halt (.longNumber digits))
    (hcheck : w.checkFiles ctx paths = (last, some event)) :
    w.FirstEvent ctx paths last event := by
  -- Each file that passes leads to another context, in which the rest of the list is checked.
  induction paths generalizing ctx with
  | nil => simp [checkFiles] at hcheck
  | cons path paths ih =>
    rw [List.forall_mem_cons] at hpaths
    have hstart : w.Passes ctx [] ctx := ⟨[], .nil, rfl⟩
    cases hread : w.read path with
    | error problem =>
      obtain ⟨rfl, rfl⟩ : ctx = last ∧ _ = event := by
        simpa [checkFiles, readSource, hpaths.1, hread] using hcheck
      exact ⟨[], path, paths, ctx, rfl, hstart, .unreadable hread⟩
    | ok content =>
      have hsource : w.readSource path = .ok ⟨path, Tree.sourceText content⟩ := by
        simp [readSource, hpaths.1, hread]
      rw [checkFiles, hsource] at hcheck
      cases hfirst : ctx.check (Source.normalize ⟨path, Tree.sourceText content⟩) with
      | mk next halt =>
        simp only [hfirst] at hcheck
        cases halt with
        | none =>
          obtain ⟨before, file, after, mid, rfl, hbefore, hfile⟩ := ih hpaths.2 hcheck
          exact ⟨path :: before, file, after, mid, rfl, .cons hsource hfirst hbefore, hfile⟩
        | some halt =>
          obtain ⟨rfl, rfl⟩ : next = last ∧ .halt halt = event := by simpa using hcheck
          cases halt with
          | longNumber digits => exact absurd rfl (hevent digits)
          | conflict c =>
            obtain ⟨above, raw, below, mid, hlines, habove, hraw⟩ :=
              Context.check_eq_some_iff.mp hfirst
            exact ⟨[], path, paths, ctx, rfl, hstart, .conflict hread hlines habove hraw⟩

end World

/-- A check by the built-in normalizer ends with the first event. It ends early, with an event and
in a context, exactly if this is the event at one of the files, met after the files before it
have passed, and the context is what these files and the lines up to the event have led to; the
runs that a line number with too many digits stops are left out. With the same contents of the
files up to there, every other world and every other list of later files lead to the same
end. -/
theorem check_ends_with_first_event (w : World) (ctx : Context) (dialect : String)
    {paths : List Path} (hpaths : ∀ q ∈ paths, Tree.isSound q) :
    (∀ last event, (∀ digits, event ≠ .halt (.longNumber digits)) →
      (w.check (.builtin dialect) ctx paths = (last, some event) ↔
        w.FirstEvent ctx paths last event)) ∧
    ∀ before path after next last event, paths = before ++ path :: after →
      w.Passes ctx before next → w.EventAt next path last event →
        ∀ (other : World) (later : List Path),
          (∀ q ∈ before ++ [path], other.read q = w.read q) →
            other.check (.builtin dialect) ctx (before ++ path :: later) = (last, some event) := by
  constructor
  · intro last event hevent
    constructor
    · exact World.firstEvent_of_checkFiles hpaths hevent
    · rintro ⟨before, path, after, next, rfl, hbefore, hfile⟩
      have hpath : Tree.isSound path := hpaths path (by simp)
      exact World.checkFiles_of_passes_of_eventAt hbefore hpath hfile after
  · rintro before path after next last event rfl hbefore hfile other later hread
    have hpath : Tree.isSound path := hpaths path (by simp)
    have hother : other.Passes ctx before next :=
      hbefore.of_read_eq fun q hq => hread q (by simp [hq])
    have hevent : other.EventAt next path last event := hfile.of_read_eq (hread path (by simp))
    exact World.checkFiles_of_passes_of_eventAt hother hpath hevent later

/-- A function defined against its prototype ends a check before the missing file behind it is
asked for, also when its header is given by the way from the root. The prototypes up to there
are filed, the one below the conflict is not, and the end is the same whatever the later files
are. -/
theorem check_ends_before_missing_file :
    let w := World.ofFiles (fun _ => .ok .null) [("a.h", .ofText "int f(void);\n"),
      ("b.c", .ofText "int g(void);\nint f(int a) { }\nint h(void);\n")]
    let ctx := Context.ofDialect .sdcc
    let header := "/work/../work/a.h".toList
    let source := "b.c".toList
    let f : Record := ⟨"f".toList, "int f(void)".toList, header, 1⟩
    let g : Record := ⟨"g".toList, "int g(void)".toList, source, 1⟩
    let last : Context := ⟨ctx.keywords, ⟨source, 3, [header, source]⟩, ⟨⟨[f, g]⟩, .empty⟩⟩
    let event : Interruption := .halt (.conflict
      ⟨.definitionPrototypeMismatch, ⟨"f".toList, "int f(int a)".toList, source, 2⟩, f⟩)
    w.read "c.c".toList = .error .notFound ∧
      w.FirstEvent ctx [header, source, "c.c".toList] last event ∧
      w.check (.builtin "sdcc") ctx [header, source, "c.c".toList] = (last, some event) ∧
      ∀ (other : World) (later : List Path),
        (∀ q ∈ [header, source], other.read q = w.read q) →
          other.check (.builtin "sdcc") ctx (header :: source :: later) = (last, some event) := by
  intro w ctx header source f g last event
  let content := utf8 "int g(void);\nint f(int a) { }\nint h(void);\n".toList
  let start : Context := ⟨ctx.keywords, ⟨header, 2, [header]⟩, ⟨⟨[f]⟩, .empty⟩⟩
  let mid : Context := ⟨ctx.keywords, ⟨source, 2, [header, source]⟩, ⟨⟨[f, g]⟩, .empty⟩⟩
  have hpaths : ∀ q ∈ [header, source, "c.c".toList], Tree.isSound q := by decide
  have hheader : w.Passes ctx [header] start :=
    ⟨[⟨header, "int f(void);\n".toList⟩], .cons (by decide +kernel) .nil, by decide +kernel⟩
  have hread : w.read source = .ok content := by decide +kernel
  have hlines : Source.normalize ⟨source, Tree.sourceText content⟩ =
      ["#1 \"b.c\"".toList, "int g(void);".toList] ++
        "int f(int a)".toList :: ["int h(void);".toList] := by decide +kernel
  have habove : start.check ["#1 \"b.c\"".toList, "int g(void);".toList] = (mid, none) := by
    decide +kernel
  have hraw : mid.readLine "int f(int a)".toList = (last, some (.conflict
      ⟨.definitionPrototypeMismatch, ⟨"f".toList, "int f(int a)".toList, source, 2⟩, f⟩)) := by
    decide +kernel
  have hsource : w.EventAt start source last event := .conflict hread hlines habove hraw
  have hfirst : w.FirstEvent ctx [header, source, "c.c".toList] last event :=
    ⟨[header], source, ["c.c".toList], start, rfl, hheader, hsource⟩
  obtain ⟨hends, hfixed⟩ := check_ends_with_first_event w ctx "sdcc" hpaths
  have hcheck := (hends last event (by simp [event])).mpr hfirst
  exact ⟨by decide +kernel, hfirst, hcheck,
    hfixed [header] source ["c.c".toList] start last event rfl hheader hsource⟩

end PrototypeGate

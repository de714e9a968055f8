import PrototypeGate.CommandLine.Session
import PrototypeGate.Proofs.Collection
import PrototypeGate.Proofs.Loading
import PrototypeGate.Proofs.ReportReading
import PrototypeGate.Proofs.Stopping

/-!
# Sessions that break down

A session should end with an exit code of its own: a verdict, a tool error or a misuse.
Some failures are not foreseen, and then it breaks down without one. This file lists the
causes, each with what must have gone well before, and shows that a session breaks down
for these causes and for no other; in every other case its exit code is one of eight.
-/

namespace PrototypeGate

/-- Whether a file can be written does not depend on its content. -/
theorem Disk.write_eq_error_iff {disk : Disk} {p : Path} {content : List UInt8}
    {problem : FileProblem} :
    disk.write p content = .error problem ↔ ∀ other, disk.write p other = .error problem := by
  refine ⟨fun h other => ?_, fun h => h content⟩
  by_cases hp : p = []
  · simpa [Disk.write, hp] using h
  · simp only [Disk.write, hp, if_false] at h ⊢
    generalize disk.root.follow (p.start disk.work) _ = reached at h ⊢
    rcases reached with _ | ⟨trail, bytes | entries⟩
    · exact h
    · exact h
    · simp only at h ⊢
      split_ifs at h ⊢
      · exact h
      · generalize entries.lookup _ = found at h ⊢
        rcases found with _ | bytes | inner
        · simp at h
        · simp at h
        · exact h

namespace World

open CommandLine (Request)

/-- The path of the configuration file of a request, empty if there is none. -/
def configPath (w : World) (r : Request) : String :=
  match r.config with
  | some path => path
  | none => if w.disk.isFile defaultConfig.toList then defaultConfig else ""

/-- The command string that is to be split: the request's, else that of the environment. An
empty one counts as none. -/
def commandText? (w : World) (r : Request) : Option String :=
  (r.normalizer.filter (!·.isEmpty)).or (w.command?.filter (!·.isEmpty))

/-- The source entries in force: the request's, else the configured ones. -/
def entries (r : Request) (config : Config) : List Path :=
  if r.sources.isEmpty then config.sources.map String.toList else r.sources.map String.toList

/-- The directory that the source entries in force are relative to. -/
def entryBase (r : Request) (config : Config) : Path :=
  if r.sources.isEmpty then config.base else Path.here

/-- The settings of a request are in order and amount to a plan. -/
def Plans (w : World) (r : Request) (plan : Plan) : Prop :=
  ∃ config, (w.config r).2 = .ok config ∧ w.plan r config = .ok plan

/-- The declarations of the first lines of a plan's stream. -/
def declared (plan : Plan) (lines : List Text) : List Filing :=
  filings (plan.keywords.map String.toList) .initial lines

/-- What reading the stream of a plan stops for. -/
def halt (w : World) (plan : Plan) : Option Halt :=
  ((Context.initial (plan.keywords.map String.toList)).check
    (w.lines plan.normalizer plan.paths).1).2

/-- A check of the plan reaches a verdict: some beginning of its stream has inconsistent
declarations, or the stream is read to its end. -/
def Decides (w : World) (plan : Plan) : Prop :=
  ∃ read rest, (w.lines plan.normalizer plan.paths).1 = read ++ rest ∧
    (∀ raw ∈ read, NumberReadable raw) ∧
    (¬Consistent (declared plan read) ∨
      rest = [] ∧ (w.lines plan.normalizer plan.paths).2 = none)

/-- The plan has a helper with a file for its output, and this file cannot be removed in the
end although it is there. -/
def LeavesFile (w : World) (plan : Plan) (error : FileError) : Prop :=
  (∃ command dialect, plan.normalizer = .external command dialect) ∧ w.hasScratch ∧
    w.leftover? = some error ∧ error.problem ≠ .notFound

/-- Why writing a report breaks down. -/
inductive ReportBreaks (w : World) (target : String) : Fault → Prop
  /-- The path holds a null character. -/
  | path (htarget : ¬Tree.isSound target.toList) : ReportBreaks w target .nullCharacter
  /-- No file can be written at the path, whatever its content. -/
  | place {problem : FileProblem} (htarget : target ≠ "" ∧ target ≠ "-")
      (hsound : Tree.isSound target.toList)
      (hwrite : ∀ content, w.write target.toList content = .error problem) :
      ReportBreaks w target (.report ⟨problem, target⟩)

/-- Why a request breaks down. -/
inductive BreaksDown (w : World) (r : Request) : Fault → Prop
  /-- The configuration file breaks the session. -/
  | config {fault : Fault} (hpath : w.configPath r ≠ "")
      (hload : Config.Breaks w.read w.reader (w.configPath r) fault) : BreaksDown w r fault
  /-- The command string of the request or of the environment cannot be split. -/
  | command {config : Config} {text : String} {problem : ShellWords.Problem}
      (hconfig : (w.config r).2 = .ok config) (htext : w.commandText? r = some text)
      (hsplit : ShellWords.split text = .error problem) : BreaksDown w r (.command problem)
  /-- A source entry is a pattern that spells out a null character. -/
  | sources {config : Config} {command : List String} {before after : List Path} {entry : Path}
      (hconfig : (w.config r).2 = .ok config) (hcommand : w.command r config = .ok command)
      (hentries : entries r config = before ++ entry :: after)
      (hbefore : ∀ e ∈ before, Sources.Stands w.disk (entryBase r config) e ∧
        ¬Sources.Breaks (entryBase r config) e)
      (hentry : Sources.Breaks (entryBase r config) entry) : BreaksDown w r .nullCharacter
  /-- The file for a helper's output cannot be removed. -/
  | leftover {plan : Plan} {error : FileError} (hplan : w.Plans r plan)
      (hleft : w.LeavesFile plan error) : BreaksDown w r (.leftover error)
  /-- A word of the helper command holds a null character. -/
  | helper {plan : Plan} {command : List String} {dialect : String} (hplan : w.Plans r plan)
      (hclean : ∀ error, ¬w.LeavesFile plan error)
      (hnormalizer : plan.normalizer = .external command dialect) (hscratch : w.hasScratch)
      (hword : ∃ word ∈ command, '\x00' ∈ word.toList) : BreaksDown w r .nullCharacter
  /-- A marker has too many digits, and the declarations before it are consistent. -/
  | marker {plan : Plan} {above below : List Text} {raw : Text} {digits : Nat}
      (hverb : r.verb = .check) (hplan : w.Plans r plan)
      (hclean : ∀ error, ¬w.LeavesFile plan error)
      (hlines : (w.lines plan.normalizer plan.paths).1 = above ++ raw :: below)
      (habove : ∀ line ∈ above, NumberReadable line) (hgood : Consistent (declared plan above))
      (hraw : NumberTooLong raw digits) : BreaksDown w r (.longNumber digits)
  /-- The check meets a conflict whose line numbers have too many digits to be printed. -/
  | numeral {plan : Plan} {c : Conflict} (hverb : r.verb = .check) (hplan : w.Plans r plan)
      (hclean : ∀ error, ¬w.LeavesFile plan error) (hconflict : w.halt plan = some (.conflict c))
      (hlong : ¬c.Printable) : BreaksDown w r .longNumeral
  /-- The check reaches a verdict that can be printed, but the report cannot be written. -/
  | report {plan : Plan} {target : String} {fault : Fault} (hverb : r.verb = .check)
      (hplan : w.Plans r plan) (hclean : ∀ error, ¬w.LeavesFile plan error)
      (hverdict : w.Decides plan) (hprint : ∀ c, w.halt plan = some (.conflict c) → c.Printable)
      (hjson : r.json = some target) (hreport : (w.after plan).ReportBreaks target fault) :
      BreaksDown w r fault

variable {w : World} {r : Request}

/-! ### Settings -/

/-- The configuration of a request breaks down exactly if there is a configuration file and
loading it does. -/
theorem config_eq_fault_iff {fault : Fault} :
    (w.config r).2 = .error (.fault fault) ↔
      w.configPath r ≠ "" ∧ Config.Breaks w.read w.reader (w.configPath r) fault := by
  have hconfig : w.config r = if (w.configPath r).isEmpty then ([], .ok .standard)
      else Config.load w.read w.reader (w.configPath r) := rfl
  by_cases hpath : w.configPath r = ""
  · simp [hconfig, hpath]
  · rw [hconfig, if_neg (by simpa using hpath), Config.load_eq_fault_iff]
    simp [hpath]

private theorem commandOf?_eq (text : Option String) :
    commandOf? text = (text.filter (!·.isEmpty)).map fun command =>
      (ShellWords.split command).mapError fun problem => .fault (.command problem) := by
  cases text with
  | none => rfl
  | some command => by_cases hempty : command = "" <;> simp [commandOf?, hempty, Option.filter]

/-- The command of a request fails exactly if its text cannot be split. -/
theorem command_eq_error_iff {config : Config} {failure : Failure} :
    w.command r config = .error failure ↔
      ∃ text problem, w.commandText? r = some text ∧ ShellWords.split text = .error problem ∧
        failure = .fault (.command problem) := by
  have hcommand : w.command r config = match w.commandText? r with
      | some text => (ShellWords.split text).mapError fun problem => .fault (.command problem)
      | none => .ok (config.normalizer.getD []) := by
    simp only [command, commandText?, commandOf?_eq]
    cases r.normalizer.filter (!·.isEmpty) with
    | some text => rfl
    | none => cases w.command?.filter (!·.isEmpty) <;> rfl
  cases htext : w.commandText? r with
  | none => simp [hcommand, htext]
  | some text =>
    cases hsplit : ShellWords.split text <;>
      simp [hcommand, htext, hsplit, mapError_error, mapError_ok, eq_comm]

private theorem paths_eq (w : World) (r : Request) (config : Config) :
    w.paths r config =
      Sources.collect w.disk (entries r config) (entryBase r config) >>= fun found =>
        if found.isEmpty then .error (.tool .noSources) else .ok found := by
  unfold World.paths entries entryBase
  split <;> rfl

/-- The sources of a request break down exactly if an entry is a pattern that spells out a
null character and every entry before it stands for files. -/
theorem paths_eq_fault_iff (hw : w.disk.root.Named) {config : Config} {fault : Fault} :
    w.paths r config = .error (.fault fault) ↔
      fault = .nullCharacter ∧ ∃ before entry after, entries r config = before ++ entry :: after ∧
        (∀ e ∈ before, Sources.Stands w.disk (entryBase r config) e ∧
          ¬Sources.Breaks (entryBase r config) e) ∧
        Sources.Breaks (entryBase r config) entry := by
  rw [paths_eq, bind_eq_error_iff, ← Sources.collect_eq_fault_iff hw]
  constructor
  · rintro (h | ⟨found, -, h⟩)
    · exact h
    · split at h <;> simp at h
  · exact .inl

/-- Every source of a request can be given to the system. -/
theorem isSound_of_mem_paths (hw : w.disk.root.Named) {config : Config} {paths : List Path}
    (hpaths : w.paths r config = .ok paths) : ∀ q ∈ paths, Tree.isSound q := by
  rw [paths_eq] at hpaths
  cases hfound : Sources.collect w.disk (entries r config) (entryBase r config) with
  | error failure => simp [hfound, Bind.bind, Except.bind] at hpaths
  | ok found =>
    have hall := Sources.isSound_of_mem_collect hw hfound
    simp only [hfound, Bind.bind, Except.bind] at hpaths
    split at hpaths
    · simp at hpaths
    · obtain rfl : found = paths := by simpa using hpaths
      exact hall

/-- A plan breaks down exactly if its command or its sources do, in this order. -/
theorem plan_eq_fault_iff {config : Config} {fault : Fault} :
    w.plan r config = .error (.fault fault) ↔
      w.command r config = .error (.fault fault) ∨
        ∃ command, w.command r config = .ok command ∧
          w.paths r config = .error (.fault fault) := by
  have hplan : w.plan r config = w.command r config >>= fun command =>
      w.paths r config >>= fun paths =>
        .ok ⟨.ofCommand command (r.dialect.getD config.dialect).name,
          keywordsOf r config (r.dialect.getD config.dialect), paths⟩ := rfl
  simp [hplan, bind_eq_error_iff]

/-- The sources of a plan can be given to the system, and its helper, if any, is told the
name of a dialect. -/
theorem Plans.sound (hw : w.disk.root.Named) {plan : Plan} (hplan : w.Plans r plan) :
    (∀ q ∈ plan.paths, Tree.isSound q) ∧
      ∀ command dialect, plan.normalizer = .external command dialect →
        ∃ d : Dialect, dialect = d.name := by
  obtain ⟨config, -, hplan⟩ := hplan
  cases hcommand : w.command r config with
  | error failure => simp [World.plan, hcommand, Bind.bind, Except.bind] at hplan
  | ok command =>
    cases hpaths : w.paths r config with
    | error failure => simp [World.plan, hcommand, hpaths, Bind.bind, Except.bind] at hplan
    | ok paths =>
      obtain rfl : _ = plan := by
        simpa [World.plan, hcommand, hpaths, Bind.bind, Except.bind, Pure.pure, Except.pure]
          using hplan
      refine ⟨isSound_of_mem_paths hw hpaths, fun words dialect hnormalizer => ?_⟩
      simp only [Normalizer.ofCommand] at hnormalizer
      split at hnormalizer
      · cases hnormalizer
      · cases hnormalizer
        exact ⟨_, rfl⟩

/-! ### Streams -/

private theorem mem_replaceFrom {old new : Text} {c : Char} (hold : c ∉ old) (hnew : c ∉ new)
    (hne : old ≠ []) (skip : Nat) (t : Text) :
    c ∈ replaceFrom old new skip t ↔ c ∈ t.drop skip := by
  fun_induction replaceFrom old new skip t with
  | case1 skip => simp
  | case2 skip d rest ih => simpa using ih
  | case3 d rest hprefix ih =>
    obtain ⟨after, hafter⟩ := List.isPrefixOf_iff_prefix.mp hprefix
    obtain ⟨first, others, rfl⟩ := List.exists_cons_of_ne_nil hne
    obtain ⟨rfl, rfl⟩ := List.cons.inj hafter
    obtain ⟨hfirst, hothers⟩ := not_or.mp (List.mem_cons.not.mp hold)
    have hrest : c ∈ replaceFrom (first :: others) new others.length (others ++ after) ↔
        c ∈ after := by simpa using ih
    simp [hrest, hnew, hfirst, hothers]
  | case4 d rest hprefix ih => simp [ih]

/-- The words that a helper is started with hold a null character exactly if its command does,
when the sources can be given to the system. -/
theorem null_mem_words_iff (command : List String) (dialect : Dialect) {paths : List Path}
    (hpaths : ∀ q ∈ paths, Tree.isSound q) :
    ((Normalizer.words command dialect.name (paths.map String.ofList)).any fun word =>
        word.contains '\x00') = true ↔ ∃ word ∈ command, '\x00' ∈ word.toList := by
  have hdialect : '\x00' ∉ dialect.name.toList := by cases dialect <;> decide
  have hpart (part : String) : '\x00' ∈ replaceFrom Normalizer.dialectMark dialect.name.toList 0
      part.toList ↔ '\x00' ∈ part.toList :=
    mem_replaceFrom (by decide) hdialect (by decide) 0 part.toList
  have hsound (q : Path) (hq : q ∈ paths) : '\x00' ∉ q := by
    simpa [Tree.isSound] using hpaths q hq
  simp only [Normalizer.words, List.any_append, List.any_map, Bool.or_eq_true,
    List.any_eq_true, Function.comp_apply, String.contains_char_eq, decide_eq_true_eq,
    String.toList_ofList, hpart]
  refine or_iff_left ?_
  rintro ⟨q, hq, hnull⟩
  exact hsound q hq hnull

/-- A helper for sources that can be given to the system is broken exactly by a null character
in its command, if there is a place for its output. -/
theorem helperLines_eq_fault_iff {command : List String} {dialect : Dialect}
    {paths : List Path} (hpaths : ∀ q ∈ paths, Tree.isSound q) {fault : Fault} :
    w.helperLines command dialect.name paths = .error (.fault fault) ↔
      w.hasScratch ∧ (∃ word ∈ command, '\x00' ∈ word.toList) ∧ fault = .nullCharacter := by
  have hwords := null_mem_words_iff command dialect hpaths
  by_cases hscratch : w.hasScratch
  · by_cases hnull : ∃ word ∈ command, '\x00' ∈ word.toList
    · have hstop : w.helperLines command dialect.name paths = .error (.fault .nullCharacter) := by
        simp only [helperLines, startHelper, hscratch, hwords.mpr hnull, Bool.not_true,
          Bool.false_eq_true, if_false, if_true]
      simp [hstop, hscratch, hnull, eq_comm]
    · have hgo : w.helperLines command dialect.name paths ≠ .error (.fault fault) := by
        simp only [helperLines, startHelper, hscratch, hwords.not.mpr hnull, Bool.not_true,
          Bool.false_eq_true, if_false]
        split
        · next hfailure => cases hfailure
        · simp
        · split <;> simp
      simp [hgo, hnull]
  · simp [helperLines, startHelper, hscratch]

/-- Source files that can be given to the system do not break a session. -/
theorem fileLines_ne_fault {paths : List Path} (hpaths : ∀ q ∈ paths, Tree.isSound q)
    {fault : Fault} : (w.fileLines paths).2 ≠ some (.fault fault) := by
  induction paths with
  | nil => simp [fileLines]
  | cons path rest ih =>
    have hpath : Tree.isSound path := hpaths path List.mem_cons_self
    have hrest := ih fun q hq => hpaths q (List.mem_cons_of_mem path hq)
    cases hbytes : w.read path with
    | ok content => simpa [fileLines, readSource, hpath, hbytes] using hrest
    | error problem => simp [fileLines, readSource, hpath, hbytes]

/-- The stream of a plan is broken exactly by a null character in its helper command. -/
theorem lines_eq_fault_iff (hw : w.disk.root.Named) {plan : Plan} (hplan : w.Plans r plan)
    {fault : Fault} :
    (w.lines plan.normalizer plan.paths).2 = some (.fault fault) ↔
      ∃ command dialect, plan.normalizer = .external command dialect ∧ w.hasScratch ∧
        (∃ word ∈ command, '\x00' ∈ word.toList) ∧ fault = .nullCharacter := by
  obtain ⟨hpaths, hdialect⟩ := hplan.sound hw
  cases hnormalizer : plan.normalizer with
  | builtin dialect => simp [World.lines, fileLines_ne_fault hpaths]
  | external command dialect =>
    obtain ⟨d, rfl⟩ := hdialect command dialect hnormalizer
    have hhelper : w.helperLines command d.name plan.paths = .error (.fault fault) ↔ _ :=
      helperLines_eq_fault_iff hpaths
    cases hlines : w.helperLines command d.name plan.paths with
    | error failure => simpa [World.lines, hlines] using hhelper
    | ok lines => simpa [World.lines, hlines] using hhelper

/-- A check stops where a run over the whole stream does. If the run reads all of it, the
check fails as the stream does. -/
theorem check_interruption (w : World) (normalizer : Normalizer) (ctx : Context)
    (paths : List Path) :
    (w.check normalizer ctx paths).2 =
      match (ctx.check (w.lines normalizer paths).1).2 with
      | some halt => some (.halt halt)
      | none => (w.lines normalizer paths).2.map .failure := by
  cases normalizer with
  | builtin dialect =>
    simp only [World.check, World.lines]
    induction paths generalizing ctx with
    | nil => rfl
    | cons path rest ih =>
      cases hsource : w.readSource path with
      | error failure => simp [checkFiles, fileLines, hsource, Context.check]
      | ok source =>
        simp only [checkFiles, fileLines, hsource, Prod.map, id, Context.check_append]
        rcases ctx.check source.normalize with ⟨next, _ | halt⟩
        · exact ih next
        · rfl
  | external command dialect =>
    cases hlines : w.helperLines command dialect paths with
    | error failure => simp [World.check, World.lines, hlines, Context.check]
    | ok lines =>
      simp only [World.check, World.lines, hlines]
      rcases ctx.check lines with ⟨next, _ | halt⟩ <;> rfl

/-! ### Reports -/

/-- A report that breaks down is to go to a file. -/
theorem ReportBreaks.target_ne {target : String} {fault : Fault}
    (h : w.ReportBreaks target fault) : target ≠ "" ∧ target ≠ "-" := by
  cases h with
  | path htarget =>
    refine ⟨?_, ?_⟩
    · rintro rfl
      exact htarget rfl
    · rintro rfl
      exact htarget rfl
  | place htarget _ _ => exact htarget

/-- Whether a file can be written does not depend on its content. -/
theorem write_eq_error_iff {p : Path} {content : List UInt8} {problem : FileProblem} :
    w.write p content = .error problem ↔ ∀ other, w.write p other = .error problem := by
  simp only [World.write]
  cases w.unwritable? p with
  | some reason => simp
  | none => exact Disk.write_eq_error_iff

/-- A file that is written is written to the disk. -/
theorem write_eq_ok {p : Path} {content : List UInt8} {disk : Disk}
    (hwrite : w.write p content = .ok disk) : w.disk.write p content = .ok disk := by
  rw [World.write] at hwrite
  split at hwrite
  · cases hwrite
  · exact hwrite

section Finish

variable {conflicts : List Conflict} {errors : Text} {ending : Ending}

/-- A session that no report is asked of ends as it is. -/
theorem finish_of_unasked (hjson : r.json = none ∨ r.json = some "") :
    w.finish r conflicts errors ending = ⟨ending, [], errors, w.disk⟩ := by
  rcases hjson with hjson | hjson <;> simp [finish, hjson, Option.filter]

/-- A dash stands for the standard output. -/
theorem finish_of_dash (hjson : r.json = some "-") {text : Text}
    (htext : Finding.report (conflicts.map Conflict.finding) = .ok text) :
    w.finish r conflicts errors ending = ⟨ending, text, errors, w.disk⟩ := by
  simp [finish, hjson, Option.filter, htext]

/-- Any other target is a file. -/
theorem finish_of_file {target : String} (hjson : r.json = some target)
    (htarget : target ≠ "" ∧ target ≠ "-") {text : Text}
    (htext : Finding.report (conflicts.map Conflict.finding) = .ok text) :
    w.finish r conflicts errors ending =
      if Tree.isSound target.toList then
        match w.write target.toList (utf8 text) with
        | .ok disk => ⟨ending, [], errors, disk⟩
        | .error problem => w.fail [] errors (.fault (.report ⟨problem, target⟩))
      else w.fail [] errors (.fault .nullCharacter) := by
  by_cases hsound : Tree.isSound target.toList
  · cases hwrite : w.write target.toList (utf8 text) <;>
      simp [finish, hjson, Option.filter, htarget, htext, hsound, hwrite]
  · simp [finish, hjson, Option.filter, htarget, htext, hsound]

/-- Writing a report to a file breaks down exactly for one of the two reasons. -/
theorem finish_file_eq_broken_iff {target : String} (hjson : r.json = some target)
    (htarget : target ≠ "" ∧ target ≠ "-") (hprint : ∀ c ∈ conflicts, c.Printable)
    (hending : ∀ fault, ending ≠ .broken fault) {fault : Fault} :
    (w.finish r conflicts errors ending).ending = .broken fault ↔
      w.ReportBreaks target fault := by
  obtain ⟨text, htext⟩ := exists_report hprint
  rw [finish_of_file hjson htarget htext]
  by_cases hsound : Tree.isSound target.toList
  · rw [if_pos hsound]
    cases hwrite : w.write target.toList (utf8 text) with
    | ok disk =>
      refine iff_of_false (hending fault) ?_
      rintro (hnull | ⟨-, -, hplace⟩)
      · exact hnull hsound
      · rw [hplace] at hwrite
        cases hwrite
    | error problem =>
      constructor
      · rintro ⟨⟩
        exact .place htarget hsound (write_eq_error_iff.mp hwrite)
      · rintro (hnull | ⟨-, -, hplace⟩)
        · exact absurd hsound hnull
        · rw [hplace] at hwrite
          cases hwrite
          rfl
  · rw [if_neg hsound]
    constructor
    · rintro ⟨⟩
      exact .path hsound
    · rintro (hnull | ⟨-, h, -⟩)
      · rfl
      · exact absurd h hsound

/-- Finishing a session whose conflicts can be printed breaks down exactly if the report
does. -/
theorem finish_eq_broken_iff (hprint : ∀ c ∈ conflicts, c.Printable)
    (hending : ∀ fault, ending ≠ .broken fault) {fault : Fault} :
    (w.finish r conflicts errors ending).ending = .broken fault ↔
      ∃ target, r.json = some target ∧ w.ReportBreaks target fault := by
  have hplain (htarget : ∀ target, r.json = some target → target = "" ∨ target = "-")
      (hfinish : (w.finish r conflicts errors ending).ending = ending) :
      (w.finish r conflicts errors ending).ending = .broken fault ↔
        ∃ target, r.json = some target ∧ w.ReportBreaks target fault := by
    rw [hfinish]
    refine iff_of_false (hending fault) ?_
    rintro ⟨target, hjson, hreport⟩
    rcases htarget target hjson with rfl | rfl
    · exact hreport.target_ne.1 rfl
    · exact hreport.target_ne.2 rfl
  cases hjson : r.json with
  | none => exact hjson ▸ hplain (by simp [hjson]) (by rw [finish_of_unasked (.inl hjson)])
  | some target =>
    by_cases hempty : target = ""
    · subst hempty
      exact hjson ▸ hplain (by simp [hjson]) (by rw [finish_of_unasked (.inr hjson)])
    by_cases hdash : target = "-"
    · subst hdash
      obtain ⟨text, htext⟩ := exists_report hprint
      exact hjson ▸ hplain (by simp [hjson]) (by rw [finish_of_dash hjson htext])
    rw [finish_file_eq_broken_iff hjson ⟨hempty, hdash⟩ hprint hending]
    simp

end Finish

/-! ### Sessions -/

/-- A file is left exactly if that is the fault of the plan. -/
private theorem leftoverFault?_eq_some_iff {plan : Plan} {fault : Fault} :
    w.leftoverFault? plan = some fault ↔
      ∃ error, w.LeavesFile plan error ∧ fault = .leftover error := by
  unfold leftoverFault? LeavesFile
  cases hnormalizer : plan.normalizer with
  | builtin dialect => simp
  | external command dialect =>
    by_cases hscratch : w.hasScratch
    · simp only [hscratch, if_true, Option.map_eq_some_iff, Option.filter_eq_some_iff,
        decide_eq_true_eq, eq_comm (a := fault)]
      simp
    · simp [hscratch]

/-- Without a file that is left the plan has no such fault. -/
private theorem leftoverFault?_eq_none {plan : Plan} (hclean : ∀ error, ¬w.LeavesFile plan error) :
    w.leftoverFault? plan = none := by
  refine Option.eq_none_iff_forall_ne_some.mpr fun fault hfault => ?_
  obtain ⟨error, hleft, -⟩ := leftoverFault?_eq_some_iff.mp hfault
  exact hclean error hleft

/-- A check reaches a verdict exactly if its run meets a conflict, or reads everything and
the stream is not cut short. -/
private theorem decides_iff {plan : Plan} :
    w.Decides plan ↔ (∃ c, w.halt plan = some (.conflict c)) ∨
      w.halt plan = none ∧ (w.lines plan.normalizer plan.paths).2 = none := by
  constructor
  · rintro ⟨read, rest, hlines, hread, hbad | ⟨rfl, hwhole⟩⟩
    · exact .inl (Context.check_eq_conflict_iff.mpr ⟨read, rest, hlines, hread, hbad⟩)
    · by_cases hgood : Consistent (declared plan read)
      · rw [List.append_nil] at hlines
        exact .inr ⟨Context.check_eq_none_iff.mpr (hlines ▸ ⟨hread, hgood⟩), hwhole⟩
      · exact .inl (Context.check_eq_conflict_iff.mpr ⟨read, [], hlines, hread, hgood⟩)
  · rintro (hconflict | ⟨hnone, hwhole⟩)
    · obtain ⟨read, rest, hlines, hread, hbad⟩ := Context.check_eq_conflict_iff.mp hconflict
      exact ⟨read, rest, hlines, hread, .inl hbad⟩
    · obtain ⟨hread, -⟩ := Context.check_eq_none_iff.mp hnone
      exact ⟨_, [], (List.append_nil _).symm, hread, .inr ⟨rfl, hwhole⟩⟩

/-- Why a check breaks down whose helper leaves no file: a marker with too many digits, its
stream, a conflict that cannot be printed, or its report. -/
inductive CheckBreaks (w : World) (r : Request) (plan : Plan) : Fault → Prop
  | marker {digits : Nat} (hhalt : w.halt plan = some (.longNumber digits)) :
      CheckBreaks w r plan (.longNumber digits)
  | stream {fault : Fault} (hhalt : w.halt plan = none)
      (hlines : (w.lines plan.normalizer plan.paths).2 = some (.fault fault)) :
      CheckBreaks w r plan fault
  | numeral {c : Conflict} (hhalt : w.halt plan = some (.conflict c)) (hlong : ¬c.Printable) :
      CheckBreaks w r plan .longNumeral
  | report {target : String} {fault : Fault} (hverdict : w.Decides plan)
      (hprint : ∀ c, w.halt plan = some (.conflict c) → c.Printable)
      (hjson : r.json = some target) (hreport : (w.after plan).ReportBreaks target fault) :
      CheckBreaks w r plan fault

section CheckBreaks

variable {plan : Plan} {fault : Fault}

/-- A check that a long line number stops breaks down for it. -/
private theorem checkBreaks_iff_of_longNumber {digits : Nat}
    (hhalt : w.halt plan = some (.longNumber digits)) :
    w.CheckBreaks r plan fault ↔ fault = .longNumber digits := by
  constructor
  · rintro (hlong | ⟨hnone, -⟩ | ⟨hconflict, -⟩ | ⟨hverdict, -, -, -⟩)
    · obtain rfl : digits = _ := by simpa [hhalt] using hlong
      rfl
    · simp [hhalt] at hnone
    · simp [hhalt] at hconflict
    · simp [decides_iff, hhalt] at hverdict
  · rintro rfl
    exact .marker hhalt

/-- A check that a conflict stops breaks down if this cannot be printed, or else by its report. -/
private theorem checkBreaks_iff_of_conflict {c : Conflict}
    (hhalt : w.halt plan = some (.conflict c)) :
    w.CheckBreaks r plan fault ↔ ¬c.Printable ∧ fault = .longNumeral ∨
      c.Printable ∧ ∃ target, r.json = some target ∧ (w.after plan).ReportBreaks target fault := by
  constructor
  · rintro (hlong | ⟨hnone, -⟩ | ⟨hconflict, hlong⟩ | ⟨-, hprint, hjson, hreport⟩)
    · simp [hhalt] at hlong
    · simp [hhalt] at hnone
    · obtain rfl : c = _ := by simpa [hhalt] using hconflict
      exact .inl ⟨hlong, rfl⟩
    · exact .inr ⟨hprint c hhalt, _, hjson, hreport⟩
  · rintro (⟨hlong, rfl⟩ | ⟨hprint, target, hjson, hreport⟩)
    · exact .numeral hhalt hlong
    · refine .report (decides_iff.mpr (.inl ⟨c, hhalt⟩)) (fun other hother => ?_) hjson hreport
      obtain rfl : c = other := by simpa [hhalt] using hother
      exact hprint

/-- A check that nothing stops breaks down by its stream, or by the report behind it. -/
private theorem checkBreaks_iff_of_none (hhalt : w.halt plan = none) :
    w.CheckBreaks r plan fault ↔
      (w.lines plan.normalizer plan.paths).2 = some (.fault fault) ∨
        (w.lines plan.normalizer plan.paths).2 = none ∧
          ∃ target, r.json = some target ∧ (w.after plan).ReportBreaks target fault := by
  constructor
  · rintro (hlong | ⟨-, hlines⟩ | ⟨hconflict, -⟩ | ⟨hverdict, -, hjson, hreport⟩)
    · simp [hhalt] at hlong
    · exact .inl hlines
    · simp [hhalt] at hconflict
    · exact .inr ⟨by simpa [decides_iff, hhalt] using hverdict, _, hjson, hreport⟩
  · rintro (hlines | ⟨hlines, target, hjson, hreport⟩)
    · exact .stream hhalt hlines
    · exact .report (decides_iff.mpr (.inr ⟨hhalt, hlines⟩)) (by simp [hhalt]) hjson hreport

/-- A session ended by a failure breaks down exactly if it is a fault. -/
theorem ending_fail_eq_broken_iff {output errors : Text} {failure : Failure} :
    (w.fail output errors failure).ending = .broken fault ↔ failure = .fault fault := by
  cases failure <;> simp [fail]

/-- A check whose helper leaves no file breaks down for one of the four reasons. -/
private theorem runCheck_eq_broken_iff_of_clean {log : Text}
    (hclean : ∀ error, ¬w.LeavesFile plan error) :
    (w.runCheck r log plan).ending = .broken fault ↔ w.CheckBreaks r plan fault := by
  have hstop : (w.check plan.normalizer (Context.initial (plan.keywords.map String.toList))
      plan.paths).2 = match w.halt plan with
        | some halt => some (.halt halt)
        | none => (w.lines plan.normalizer plan.paths).2.map .failure :=
    w.check_interruption plan.normalizer _ plan.paths
  rw [runCheck, leftoverFault?_eq_none hclean]
  simp only
  generalize w.check plan.normalizer _ plan.paths = outcome at hstop ⊢
  obtain ⟨last, interruption⟩ := outcome
  cases hhalt : w.halt plan with
  | none =>
    rw [checkBreaks_iff_of_none hhalt]
    cases hlines : (w.lines plan.normalizer plan.paths).2 with
    | none =>
      obtain rfl : interruption = none := by simpa [hhalt, hlines] using hstop
      simp only [conclude]
      split <;> simp [finish_eq_broken_iff]
    | some failure =>
      obtain rfl : interruption = some (.failure failure) := by
        simpa [hhalt, hlines] using hstop
      simp [conclude, ending_fail_eq_broken_iff]
  | some halt =>
    obtain rfl : interruption = some (.halt halt) := by simpa [hhalt] using hstop
    cases halt with
    | longNumber digits =>
      rw [checkBreaks_iff_of_longNumber hhalt]
      simp [conclude, ending_fail_eq_broken_iff, eq_comm (a := fault)]
    | conflict c =>
      rw [checkBreaks_iff_of_conflict hhalt]
      simp only [conclude]
      cases htext : c.finding.diagnosticText? with
      | none =>
        have hlong : ¬c.Printable := fun hprint => by
          rw [Conflict.diagnosticText?_finding_eq_some_iff.mpr ⟨hprint, rfl⟩] at htext
          cases htext
        simp [ending_fail_eq_broken_iff, hlong, eq_comm (a := fault)]
      | some text =>
        have hprint : c.Printable := (Conflict.diagnosticText?_finding_eq_some_iff.mp htext).1
        simp [finish_eq_broken_iff, hprint]

end CheckBreaks

/-- A check breaks down by the file that its helper leaves, or for one of the four reasons. -/
theorem runCheck_eq_broken_iff {plan : Plan} {log : Text} {fault : Fault} :
    (w.runCheck r log plan).ending = .broken fault ↔
      (∃ error, w.LeavesFile plan error ∧ fault = .leftover error) ∨
        (∀ error, ¬w.LeavesFile plan error) ∧ w.CheckBreaks r plan fault := by
  by_cases hclean : ∀ error, ¬w.LeavesFile plan error
  · rw [runCheck_eq_broken_iff_of_clean hclean]
    simp [hclean]
  · obtain ⟨error, herror⟩ : ∃ error, w.LeavesFile plan error := by simpa using hclean
    have hfile : w.leftoverFault? plan = some (.leftover error) :=
      leftoverFault?_eq_some_iff.mpr ⟨error, herror, rfl⟩
    rw [runCheck, hfile, ← leftoverFault?_eq_some_iff, hfile]
    simp [fail, hclean]

/-- Printing the stream breaks down exactly by the file that a helper leaves, or if the stream
does. -/
theorem runStrip_eq_broken_iff {plan : Plan} {log : Text} {fault : Fault} :
    (w.runStrip log plan).ending = .broken fault ↔
      (∃ error, w.LeavesFile plan error ∧ fault = .leftover error) ∨
        (∀ error, ¬w.LeavesFile plan error) ∧
          (w.lines plan.normalizer plan.paths).2 = some (.fault fault) := by
  by_cases hclean : ∀ error, ¬w.LeavesFile plan error
  · have hfile := leftoverFault?_eq_none hclean
    simp only [runStrip, hfile]
    generalize w.lines plan.normalizer plan.paths = stream
    obtain ⟨lines, _ | failure⟩ := stream
    · simp [hclean]
    · simp [hclean, ending_fail_eq_broken_iff]
  · obtain ⟨error, herror⟩ : ∃ error, w.LeavesFile plan error := by simpa using hclean
    have hfile : w.leftoverFault? plan = some (.leftover error) :=
      leftoverFault?_eq_some_iff.mpr ⟨error, herror, rfl⟩
    simp only [runStrip, hfile]
    rw [← leftoverFault?_eq_some_iff, hfile]
    simp [ending_fail_eq_broken_iff, hclean]

/-- A stream that breaks has no lines before, so the run over it stops nowhere. -/
private theorem halt_eq_none_of_fault (hw : w.disk.root.Named) {plan : Plan}
    (hplan : w.Plans r plan) {fault : Fault}
    (hfault : (w.lines plan.normalizer plan.paths).2 = some (.fault fault)) :
    w.halt plan = none := by
  obtain ⟨command, dialect, hnormalizer, -, -, -⟩ := (lines_eq_fault_iff hw hplan).mp hfault
  rw [hnormalizer] at hfault
  cases hhelper : w.helperLines command dialect plan.paths with
  | error failure => simp [halt, hnormalizer, World.lines, hhelper, Context.check]
  | ok lines => simp [World.lines, hhelper] at hfault

private theorem run_eq_broken_cases {fault : Fault} :
    (w.run r).ending = .broken fault ↔
      (w.config r).2 = .error (.fault fault) ∨
        (∃ config, (w.config r).2 = .ok config ∧ w.plan r config = .error (.fault fault)) ∨
        ∃ plan, w.Plans r plan ∧
          (r.verb = .check ∧ (w.runCheck r (w.config r).1 plan).ending = .broken fault ∨
            r.verb = .strip ∧ (w.runStrip (w.config r).1 plan).ending = .broken fault) := by
  have hfail (log : Text) (failure : Failure) :
      (w.fail [] log failure).ending = .broken fault ↔ failure = .fault fault := by
    cases failure <;> simp [fail]
  simp only [run, Plans]
  generalize w.config r = loaded
  obtain ⟨log, failure | config⟩ := loaded
  · simp [Bind.bind, Except.bind, hfail]
  · cases hplan : w.plan r config with
    | error failure => simp [Bind.bind, Except.bind, hplan, hfail]
    | ok plan => cases hverb : r.verb <;> simp [Bind.bind, Except.bind, hplan]

/-- A request breaks down exactly for the causes listed. -/
theorem run_eq_broken_iff (hw : w.disk.root.Named) {fault : Fault} :
    (w.run r).ending = .broken fault ↔ w.BreaksDown r fault := by
  constructor
  · rw [run_eq_broken_cases]
    rintro (hconfig | ⟨config, hconfig, hplan⟩ |
      ⟨plan, hplan, ⟨hverb, hcheck⟩ | ⟨hverb, hstrip⟩⟩)
    · obtain ⟨hpath, hload⟩ := config_eq_fault_iff.mp hconfig
      exact .config hpath hload
    · rcases plan_eq_fault_iff.mp hplan with hcommand | ⟨command, hcommand, hpaths⟩
      · obtain ⟨text, problem, htext, hsplit, hfault⟩ := command_eq_error_iff.mp hcommand
        obtain rfl : fault = .command problem := by simpa using hfault
        exact .command hconfig htext hsplit
      · obtain ⟨rfl, before, entry, after, hentries, hbefore, hentry⟩ :=
          (paths_eq_fault_iff hw).mp hpaths
        exact .sources hconfig hcommand hentries hbefore hentry
    · rcases runCheck_eq_broken_iff.mp hcheck with ⟨error, hleft, rfl⟩ | ⟨hclean, hbreaks⟩
      · exact .leftover hplan hleft
      cases hbreaks with
      | marker hlong =>
        obtain ⟨above, raw, below, hlines, habove, hgood, hraw⟩ :=
          Context.check_eq_longNumber_iff.mp hlong
        exact .marker hverb hplan hclean hlines habove hgood hraw
      | stream _ hfault =>
        obtain ⟨command, dialect, hnormalizer, hscratch, hword, rfl⟩ :=
          (lines_eq_fault_iff hw hplan).mp hfault
        exact .helper hplan hclean hnormalizer hscratch hword
      | numeral hconflict hlong => exact .numeral hverb hplan hclean hconflict hlong
      | report hverdict hprint hjson hreport =>
        exact .report hverb hplan hclean hverdict hprint hjson hreport
    · rcases runStrip_eq_broken_iff.mp hstrip with ⟨error, hleft, rfl⟩ | ⟨hclean, hfault⟩
      · exact .leftover hplan hleft
      obtain ⟨command, dialect, hnormalizer, hscratch, hword, rfl⟩ :=
        (lines_eq_fault_iff hw hplan).mp hfault
      exact .helper hplan hclean hnormalizer hscratch hword
  · -- The causes behind the plan of a check are the check's own reasons.
    have hcheck {plan : Plan} (hverb : r.verb = .check) (hplan : w.Plans r plan)
        (hclean : ∀ error, ¬w.LeavesFile plan error) (hbreaks : w.CheckBreaks r plan fault) :
        (w.run r).ending = .broken fault :=
      run_eq_broken_cases.mpr (.inr (.inr ⟨plan, hplan,
        .inl ⟨hverb, runCheck_eq_broken_iff.mpr (.inr ⟨hclean, hbreaks⟩)⟩⟩))
    intro h
    cases h with
    | config hpath hload =>
      exact run_eq_broken_cases.mpr (.inl (config_eq_fault_iff.mpr ⟨hpath, hload⟩))
    | command hconfig htext hsplit =>
      exact run_eq_broken_cases.mpr (.inr (.inl ⟨_, hconfig, plan_eq_fault_iff.mpr
        (.inl (command_eq_error_iff.mpr ⟨_, _, htext, hsplit, rfl⟩))⟩))
    | sources hconfig hcommand hentries hbefore hentry =>
      have hpaths := (paths_eq_fault_iff hw).mpr ⟨rfl, _, _, _, hentries, hbefore, hentry⟩
      exact run_eq_broken_cases.mpr
        (.inr (.inl ⟨_, hconfig, plan_eq_fault_iff.mpr (.inr ⟨_, hcommand, hpaths⟩)⟩))
    | leftover hplan hleft =>
      refine run_eq_broken_cases.mpr (.inr (.inr ⟨_, hplan, ?_⟩))
      cases hverb : r.verb with
      | check => exact .inl ⟨rfl, runCheck_eq_broken_iff.mpr (.inl ⟨_, hleft, rfl⟩)⟩
      | strip => exact .inr ⟨rfl, runStrip_eq_broken_iff.mpr (.inl ⟨_, hleft, rfl⟩)⟩
    | helper hplan hclean hnormalizer hscratch hword =>
      have hfault := (lines_eq_fault_iff hw hplan).mpr ⟨_, _, hnormalizer, hscratch, hword, rfl⟩
      cases hverb : r.verb with
      | check =>
        exact hcheck hverb hplan hclean (.stream (halt_eq_none_of_fault hw hplan hfault) hfault)
      | strip =>
        exact run_eq_broken_cases.mpr (.inr (.inr ⟨_, hplan,
          .inr ⟨hverb, runStrip_eq_broken_iff.mpr (.inr ⟨hclean, hfault⟩)⟩⟩))
    | marker hverb hplan hclean hlines habove hgood hraw =>
      have hlong := Context.check_eq_longNumber_iff.mpr ⟨_, _, _, hlines, habove, hgood, hraw⟩
      exact hcheck hverb hplan hclean (.marker hlong)
    | numeral hverb hplan hclean hconflict hlong =>
      exact hcheck hverb hplan hclean (.numeral hconflict hlong)
    | report hverb hplan hclean hverdict hprint hjson hreport =>
      exact hcheck hverb hplan hclean (.report hverdict hprint hjson hreport)

end World

/-! ### Exit codes -/

/-- The exit codes that sessions should end with: those of the verdicts, of tool errors and of
misuse. -/
def exitCodes : List Nat := [0, 1, 2, 3, 4, 5, 10, 64]

/-- A session has one of the exit codes unless it broke down. -/
theorem Ending.exitCode_mem_iff {ending : Ending} :
    (∃ code ∈ exitCodes, ending.exitCode? = some code) ↔ ∀ fault, ending ≠ .broken fault := by
  cases ending with
  | conflict c =>
    have hcode : c.condition.code ∈ exitCodes := by cases c.condition <;> decide
    simp [exitCode?, hcode]
  | _ => simp [exitCode?, exitCodes]

/-- A session on a named tree ends with one of the eight exit codes unless its arguments make a
request that breaks down; then it ends in the fault that the cause gives. -/
theorem session_exits_unless_request_breaks_down {w : World} (hw : w.disk.root.Named)
    (arguments : List String) :
    ((∃ code ∈ exitCodes, (w.session arguments).ending.exitCode? = some code) ↔
        ∀ r fault, CommandLine.read arguments = .ok r → ¬w.BreaksDown r fault) ∧
      ∀ fault, (w.session arguments).ending = .broken fault ↔
        ∃ r, CommandLine.read arguments = .ok r ∧ w.BreaksDown r fault := by
  have hbroken (fault : Fault) : (w.session arguments).ending = .broken fault ↔
      ∃ r, CommandLine.read arguments = .ok r ∧ w.BreaksDown r fault := by
    cases hread : CommandLine.read arguments with
    | ok request => simp [World.session, hread, World.run_eq_broken_iff hw]
    | error stop => cases stop <;> simp [World.session, hread]
  refine ⟨?_, hbroken⟩
  rw [Ending.exitCode_mem_iff]
  simp only [ne_eq, hbroken, not_exists, not_and]
  exact ⟨fun h r fault hr => h fault r hr, fun h fault r hr => h r fault hr⟩

/-- A file that holds a text. -/
def Tree.ofText (text : String) : Tree := .file (utf8 text.toList)

/-- The world of some files in a working directory that is called `work`, without a command in
the environment and without helpers. -/
def World.ofFiles (reader : Config.Reader) (files : List (String × Tree)) : World :=
  let work := Tree.directory (files.map fun file => (file.1.toList, file.2))
  ⟨⟨.directory [("work".toList, work)], ["work".toList]⟩, fun _ => none, fun _ => none, reader,
    none, true, none, fun _ => .unavailable .notFound⟩

/-- A check that finds a repeated prototype in a file given by its way from the root, and prints
a report, exits with the code of the condition, so nothing breaks it down. -/
theorem session_of_repeated_prototype_exits :
    let w := World.ofFiles (fun _ => .ok .null)
      [("a.c", .ofText "int f(int a);\nint f(int a);\n")]
    let arguments := ["check", "--json", "-", "/work/../work/a.c"]
    w.disk.root.Named ∧ (w.session arguments).ending.exitCode? = some 1 ∧
      ∀ r fault, CommandLine.read arguments = .ok r → ¬w.BreaksDown r fault := by
  intro w arguments
  have hw : w.disk.root.Named := ⟨rfl, ⟨rfl, trivial, trivial⟩, trivial⟩
  have hcode : (w.session arguments).ending.exitCode? = some 1 := by decide +kernel
  have hexit := (session_exits_unless_request_breaks_down hw arguments).1
  exact ⟨hw, hcode, hexit.mp ⟨1, by decide, hcode⟩⟩

/-- A command string with an open quote, a configuration file that is not UTF-8, one with a date
that its reader gives up on, unknown keys of two types, and a report that is to replace a
directory each leave a session without any of the exit codes. -/
theorem sessions_without_exit_code :
    let reader : Config.Reader := fun content =>
      if content = [0xff] then .error (.raised "UnicodeDecodeError" none)
      else if content = utf8 "x: !!timestamp foo\n".toList then
        .error (.raised "AttributeError" none)
      else if content = utf8 "1: a\nb: c\n".toList then
        .ok (.map [(.int 1, .str "a"), (.str "b", .str "c")])
      else .ok .null
    let w := World.ofFiles reader [("a.c", .ofText ""), ("latin.yaml", .file [0xff]),
      ("date.yaml", .ofText "x: !!timestamp foo\n"), ("mixed.yaml", .ofText "1: a\nb: c\n"),
      ("out", .empty)]
    ∀ run ∈ [(["check", "--normalizer", "'", "a.c"], Fault.command .openQuote),
        (["check", "--config", "latin.yaml", "a.c"], .document "UnicodeDecodeError" none),
        (["check", "--config", "date.yaml", "a.c"], .document "AttributeError" none),
        (["check", "--config", "mixed.yaml", "a.c"], .unsortable),
        (["check", "--json", "out", "a.c"], .report ⟨.isDirectory, "out"⟩)],
      (w.session run.1).ending = .broken run.2 ∧
        ¬∃ code ∈ exitCodes, (w.session run.1).ending.exitCode? = some code := by
  decide +kernel

end PrototypeGate

import Mathlib.Data.List.Forall2
import PrototypeGate.Proofs.Breakdown
import PrototypeGate.Proofs.Writing

/-!
# The verdict of a session

A check by the built-in normalizer has a verdict that the sources determine: the settings may
fail, or a source may be missing or unreadable before anything else is wrong; or the first
declarations that disagree decide; or there is nothing to complain of. This file says when
each verdict is right without following the session, and shows that the session gives the
verdict that is right, with its exit code, its diagnostics and a report that reads back as the
conflicts it is about.
-/

namespace PrototypeGate

namespace World

open CommandLine (Request)

/-! ### What the sources say -/

/-- The storage-class keywords that are in force for a request. -/
inductive KeywordsInForce (r : Request) (config : Config) : List String → Prop
  /-- The request names some. -/
  | requested (hrequest : r.storageKeywords ≠ []) : KeywordsInForce r config r.storageKeywords
  /-- The request names none, and the configuration has a list, which may be empty. -/
  | configured {keywords : List String} (hrequest : r.storageKeywords = [])
      (hconfig : config.storageKeywords = some keywords) : KeywordsInForce r config keywords
  /-- Neither does, so those of the dialect in force are taken. -/
  | ofDialect (hrequest : r.storageKeywords = []) (hconfig : config.storageKeywords = none) :
      KeywordsInForce r config (r.dialect.getD config.dialect).storageKeywords

/-- The settings of a request are in order and give these keywords and source files. -/
def Settles (w : World) (r : Request) (keywords : List String) (paths : List Path) : Prop :=
  ∃ config, (w.config r).2 = .ok config ∧ KeywordsInForce r config keywords ∧
    w.paths r config = .ok paths

/-- The files at these paths can be read and are these sources. -/
def Reads (w : World) (paths : List Path) (sources : List Source) : Prop :=
  List.Forall₂ (fun path source => w.readSource path = .ok source) paths sources

/-- What checking the streams of sources one after the other halts for. -/
def haltOf (keywords : List String) (sources : List Source) : Option Halt :=
  ((Context.initial (keywords.map String.toList)).check (sources.flatMap Source.normalize)).2

/-- The command in force for a request, if it has one, is empty. -/
def UsesBuiltin (w : World) (r : Request) : Prop :=
  ∀ config command, (w.config r).2 = .ok config → w.command r config = .ok command → command = []

/-- A request to check by the built-in normalizer, which does not break down. -/
structure ChecksByBuiltin (w : World) (r : Request) : Prop where
  /-- The request is to check. -/
  verb : r.verb = .check
  /-- There is no helper command. -/
  builtin : w.UsesBuiltin r
  /-- The session has an exit code. -/
  whole : ∀ fault, (w.run r).ending ≠ .broken fault

/-- A tool error keeps a check from its verdict. -/
inductive CheckFails (w : World) (r : Request) : ToolError → Prop
  /-- The configuration cannot be loaded. -/
  | settings {error : ToolError} (hconfig : (w.config r).2 = .error (.tool error)) :
      CheckFails w r error
  /-- The sources cannot be collected. -/
  | sources {config : Config} {error : ToolError} (hconfig : (w.config r).2 = .ok config)
      (hpaths : w.paths r config = .error (.tool error)) : CheckFails w r error
  /-- A source cannot be read, and nothing is wrong with those before it. -/
  | reading {keywords : List String} {before after : List Path} {path : Path}
      {sources : List Source} {error : ToolError}
      (hsettles : w.Settles r keywords (before ++ path :: after))
      (hbefore : w.Reads before sources) (hclean : haltOf keywords sources = none)
      (hpath : w.readSource path = .error (.tool error)) : CheckFails w r error

/-- The first thing wrong with the sources of a request is a conflict: the first files can be
read, and their streams hold the conflict. -/
def FirstConflict (w : World) (r : Request) (c : Conflict) : Prop :=
  ∃ keywords before after sources, w.Settles r keywords (before ++ after) ∧
    w.Reads before sources ∧ haltOf keywords sources = some (.conflict c)

/-- How a session should end, judged by the sources of its request. -/
inductive Verdict (w : World) (r : Request) : Ending → Prop
  /-- A tool error keeps it from a verdict. -/
  | failed {error : ToolError} (hfails : w.CheckFails r error) : Verdict w r (.failed error)
  /-- A conflict is the first thing wrong. -/
  | conflict {c : Conflict} (hfirst : w.FirstConflict r c) : Verdict w r (.conflict c)
  /-- Nothing is wrong. -/
  | success (hfails : ¬∃ error, w.CheckFails r error) (hfirst : ¬∃ c, w.FirstConflict r c) :
      Verdict w r .success

/-- A session has left the report on some conflicts where the request wants it. -/
structure Reported (w : World) (r : Request) (conflicts : List Conflict) (s : Session) :
    Prop where
  /-- Without a target there is no report. -/
  unasked : r.json = none ∨ r.json = some "" → s.output = [] ∧ s.disk = w.disk
  /-- A dash stands for the standard output. -/
  shown : r.json = some "-" → IsReport conflicts s.output ∧ s.disk = w.disk
  /-- Any other target is a file, which is written and nothing else. -/
  filed : ∀ target, r.json = some target → target ≠ "" → target ≠ "-" →
    s.output = [] ∧ ∃ text, IsReport conflicts text ∧
      w.disk.write target.toList (utf8 text) = .ok s.disk ∧
      s.disk.bytes target.toList = .ok (utf8 text)

variable {w : World} {r : Request}

/-- The keywords in force are those that sessions take. -/
theorem keywordsInForce_iff {config : Config} {keywords : List String} :
    KeywordsInForce r config keywords ↔
      keywordsOf r config (r.dialect.getD config.dialect) = keywords := by
  rw [keywordsOf]
  constructor
  · rintro (hrequest | ⟨hrequest, hconfig⟩ | ⟨hrequest, hconfig⟩)
    · exact if_neg (by simpa using hrequest)
    · rw [hrequest, hconfig]
      rfl
    · rw [hrequest, hconfig]
      rfl
  · intro hkeywords
    by_cases hrequest : r.storageKeywords = []
    · rw [hrequest] at hkeywords
      cases hconfig : config.storageKeywords with
      | none =>
        rw [hconfig] at hkeywords
        exact hkeywords ▸ .ofDialect hrequest hconfig
      | some configured =>
        rw [hconfig] at hkeywords
        exact .configured hrequest (hkeywords ▸ hconfig)
    · rw [if_neg (by simpa using hrequest)] at hkeywords
      exact hkeywords ▸ .requested hrequest

/-! ### Reading the sources -/

/-- The lines of files that can be read come first. -/
theorem fileLines_append {paths : List Path} {sources : List Source}
    (hreads : w.Reads paths sources) (more : List Path) :
    w.fileLines (paths ++ more) =
      (sources.flatMap Source.normalize ++ (w.fileLines more).1, (w.fileLines more).2) := by
  induction hreads with
  | nil => rfl
  | cons hsource _ ih =>
    rw [List.cons_append, fileLines, hsource, ih, List.flatMap_cons, List.append_assoc]
    rfl

/-- Files are read to the end or to the first one that cannot be read. -/
theorem exists_reads (w : World) (paths : List Path) :
    ∃ before after sources, paths = before ++ after ∧ w.Reads before sources ∧
      (after = [] ∨ ∃ path rest failure, after = path :: rest ∧
        w.readSource path = .error failure) := by
  induction paths with
  | nil => exact ⟨[], [], [], rfl, .nil, .inl rfl⟩
  | cons path rest ih =>
    cases hsource : w.readSource path with
    | error failure =>
      exact ⟨[], path :: rest, [], rfl, .nil, .inr ⟨path, rest, failure, rfl, hsource⟩⟩
    | ok source =>
      obtain ⟨before, after, sources, rfl, hreads, hafter⟩ := ih
      exact ⟨path :: before, after, source :: sources, rfl, .cons hsource hreads, hafter⟩

private theorem lines_builtin_append {dialect : String} {paths : List Path}
    {sources : List Source} (hreads : w.Reads paths sources) (more : List Path) :
    w.lines (.builtin dialect) (paths ++ more) =
      (sources.flatMap Source.normalize ++ (w.fileLines more).1, (w.fileLines more).2) :=
  fileLines_append hreads more

/-- A check halts where the streams of the first files do, whatever files come later. -/
theorem check_append_of_halt {dialect : String} {keywords : List String} {paths : List Path}
    {sources : List Source} (hreads : w.Reads paths sources) (more : List Path) {halt : Halt}
    (hhalt : haltOf keywords sources = some halt) :
    (w.check (.builtin dialect) (.initial (keywords.map String.toList)) (paths ++ more)).2 =
      some (.halt halt) := by
  rw [check_interruption, lines_builtin_append hreads, Context.check_append]
  rw [haltOf] at hhalt
  generalize Context.check _ _ = run at hhalt ⊢
  obtain ⟨last, found⟩ := run
  obtain rfl : found = some halt := hhalt
  rfl

/-- A check of files whose streams hold no conflict ends as reading the next file does. -/
theorem check_append_of_clean {dialect : String} {keywords : List String} {paths : List Path}
    {sources : List Source} (hreads : w.Reads paths sources) {more : List Path}
    {failure : Option Failure} (hclean : haltOf keywords sources = none)
    (hmore : w.fileLines more = ([], failure)) :
    (w.check (.builtin dialect) (.initial (keywords.map String.toList)) (paths ++ more)).2 =
      failure.map .failure := by
  rw [haltOf] at hclean
  rw [check_interruption, lines_builtin_append hreads, hmore, List.append_nil, hclean]

/-! ### Running the session -/

/-- A check by the built-in normalizer is concluded by what interrupted it, if anything did. -/
theorem exists_runCheck_eq_conclude {log : Text} {dialect : String} {keywords : List String}
    {paths : List Path} {stop : Option Interruption}
    (hstop : (w.check (.builtin dialect) (.initial (keywords.map String.toList)) paths).2 =
      stop) :
    ∃ last, w.runCheck r log ⟨.builtin dialect, keywords, paths⟩ =
      w.conclude r log (last, stop) :=
  ⟨(w.check (.builtin dialect) (.initial (keywords.map String.toList)) paths).1, hstop ▸ rfl⟩

/-- A request that does not break down and uses the built-in normalizer has a plan exactly if
its sources can be collected. -/
theorem plan_of_checksByBuiltin (hcheck : w.ChecksByBuiltin r) {config : Config}
    (hconfig : (w.config r).2 = .ok config) :
    w.plan r config = (w.paths r config).map fun paths =>
      ⟨.builtin (r.dialect.getD config.dialect).name,
        keywordsOf r config (r.dialect.getD config.dialect), paths⟩ := by
  cases hcommand : w.command r config with
  | error failure =>
    obtain ⟨text, problem, -, -, rfl⟩ := command_eq_error_iff.mp hcommand
    have hplan : w.plan r config = .error (.fault (.command problem)) :=
      plan_eq_fault_iff.mpr (.inl hcommand)
    refine absurd ?_ (hcheck.whole (.command problem))
    simp [run, hconfig, hplan, Bind.bind, Except.bind, fail]
  | ok command =>
    obtain rfl : command = [] := hcheck.builtin config command hconfig hcommand
    rw [World.plan, hcommand]
    cases w.paths r config <;> rfl

/-- A check whose sources cannot be collected ends by this failure. -/
theorem run_of_paths_error (hcheck : w.ChecksByBuiltin r) {config : Config} {failure : Failure}
    (hconfig : (w.config r).2 = .ok config) (hpaths : w.paths r config = .error failure) :
    w.run r = w.fail [] (w.config r).1 failure := by
  have hplan : w.plan r config = .error failure := by
    rw [plan_of_checksByBuiltin hcheck hconfig, hpaths]
    rfl
  simp only [run, hconfig, hplan, Bind.bind, Except.bind]

/-- A check whose settings are in order runs over the files. -/
theorem run_of_settles (hcheck : w.ChecksByBuiltin r) {keywords : List String}
    {paths : List Path} (hsettles : w.Settles r keywords paths) :
    ∃ dialect, w.run r = w.runCheck r (w.config r).1 ⟨.builtin dialect, keywords, paths⟩ := by
  obtain ⟨config, hconfig, hkeywords, hpaths⟩ := hsettles
  have hplan := plan_of_checksByBuiltin hcheck hconfig
  rw [hpaths, keywordsInForce_iff.mp hkeywords] at hplan
  refine ⟨(r.dialect.getD config.dialect).name, ?_⟩
  simp only [run, hconfig, hplan, Bind.bind, Except.bind, Except.map, hcheck.verb]

/-- A check that a tool error keeps from its verdict ends by this error, and nothing is
reported. -/
theorem run_of_checkFails (hcheck : w.ChecksByBuiltin r) {error : ToolError}
    (hfails : w.CheckFails r error) :
    w.run r = w.fail [] (w.config r).1 (.tool error) := by
  cases hfails with
  | settings hconfig => simp only [run, hconfig, Bind.bind, Except.bind]
  | sources hconfig hpaths => exact run_of_paths_error hcheck hconfig hpaths
  | @reading keywords before after path sources _ hsettles hbefore hclean hpath =>
    obtain ⟨dialect, hrun⟩ := run_of_settles hcheck hsettles
    have hmore : w.fileLines (path :: after) = ([], some (.tool error)) := by
      rw [fileLines, hpath]
    obtain ⟨last, hconclude⟩ :=
      exists_runCheck_eq_conclude (check_append_of_clean hbefore hclean hmore)
    rw [hrun, hconclude]
    rfl

/-- A check whose sources hold a conflict first can print it, and reports it. -/
theorem run_of_firstConflict (hcheck : w.ChecksByBuiltin r) {c : Conflict}
    (hfirst : w.FirstConflict r c) :
    c.Printable ∧
      w.run r = w.finish r [c] ((w.config r).1 ++ c.diagnosis) (.conflict c) := by
  obtain ⟨keywords, before, after, sources, hsettles, hbefore, hhalt⟩ := hfirst
  obtain ⟨dialect, hrun⟩ := run_of_settles hcheck hsettles
  obtain ⟨last, hconclude⟩ :=
    exists_runCheck_eq_conclude (check_append_of_halt hbefore after hhalt)
  rw [hconclude, conclude] at hrun
  cases htext : c.finding.diagnosticText? with
  | none =>
    rw [htext] at hrun
    exact absurd (hrun ▸ rfl) (hcheck.whole .longNumeral)
  | some text =>
    obtain ⟨hprint, rfl⟩ := Conflict.diagnosticText?_finding_eq_some_iff.mp htext
    rw [htext] at hrun
    exact ⟨hprint, hrun⟩

/-- A session that is finished without breaking down has left its report. -/
theorem finish_reported {conflicts : List Conflict} {errors : Text} {ending : Ending}
    (hprint : ∀ c ∈ conflicts, c.Printable)
    (hwhole : ∀ fault, (w.finish r conflicts errors ending).ending ≠ .broken fault) :
    (w.finish r conflicts errors ending).ending = ending ∧
      (w.finish r conflicts errors ending).errors = errors ∧
      w.Reported r conflicts (w.finish r conflicts errors ending) := by
  obtain ⟨text, htext⟩ := exists_report hprint
  have hreport := isReport_of_report htext
  cases hjson : r.json with
  | none =>
    rw [finish_of_unasked (.inl hjson)]
    exact ⟨rfl, rfl, ⟨fun _ => ⟨rfl, rfl⟩, by simp [hjson], by simp [hjson]⟩⟩
  | some target =>
    by_cases hempty : target = ""
    · subst hempty
      rw [finish_of_unasked (.inr hjson)]
      exact ⟨rfl, rfl, ⟨fun _ => ⟨rfl, rfl⟩, by simp [hjson], by simp [hjson]⟩⟩
    by_cases hdash : target = "-"
    · subst hdash
      rw [finish_of_dash hjson htext]
      exact ⟨rfl, rfl, ⟨by simp [hjson], fun _ => ⟨hreport, rfl⟩, by simp [hjson]⟩⟩
    rw [finish_of_file hjson ⟨hempty, hdash⟩ htext] at hwhole ⊢
    by_cases hsound : Tree.isSound target.toList
    · rw [if_pos hsound] at hwhole ⊢
      cases hwrite : w.write target.toList (utf8 text) with
      | error problem =>
        rw [hwrite] at hwhole
        exact absurd rfl (hwhole (.report ⟨problem, target⟩))
      | ok disk =>
        have hdisk := write_eq_ok hwrite
        refine ⟨rfl, rfl, ⟨by simp [hjson, hempty], by simp [hjson, hdash], ?_⟩⟩
        intro other hother _ _
        obtain rfl : target = other := by simpa [hjson] using hother
        exact ⟨rfl, text, hreport, hdisk, Disk.bytes_of_write hdisk⟩
    · rw [if_neg hsound] at hwhole
      exact absurd rfl (hwhole .nullCharacter)

/-- A check that nothing interrupts succeeds and reports that there is nothing. -/
theorem conclude_reported {log : Text} {last : Context}
    (hwhole : ∀ fault, (w.conclude r log (last, none)).ending ≠ .broken fault) :
    (w.conclude r log (last, none)).ending = .success ∧
      w.Reported r [] (w.conclude r log (last, none)) := by
  have hfinish : ∀ fault, (w.finish r [] log .success).ending ≠ .broken fault := by
    intro fault hfault
    refine hwhole fault ?_
    rw [conclude, hfault, if_neg (by simp), hfault]
  obtain ⟨hending, -, hunasked, hshown, hfiled⟩ := finish_reported (by simp) hfinish
  rw [conclude]
  split
  · exact ⟨hending, hunasked, hshown, hfiled⟩
  · exact ⟨hending, hunasked, hshown, hfiled⟩

/-- One of the three verdicts is right for settings that are in order. -/
theorem verdict_cases_of_settles (hcheck : w.ChecksByBuiltin r) {keywords : List String}
    {paths : List Path} (hsettles : w.Settles r keywords paths) :
    (∃ error, w.CheckFails r error) ∨ (∃ c, w.FirstConflict r c) ∨
      (w.run r).ending = .success ∧ w.Reported r [] (w.run r) := by
  obtain ⟨dialect, hrun⟩ := run_of_settles hcheck hsettles
  obtain ⟨before, after, sources, rfl, hreads, hafter⟩ := w.exists_reads paths
  have hwhole := hcheck.whole
  rw [hrun] at hwhole ⊢
  cases hhalt : haltOf keywords sources with
  | some halt =>
    cases halt with
    | conflict c =>
      exact .inr (.inl ⟨c, keywords, before, after, sources, hsettles, hreads, hhalt⟩)
    | longNumber digits =>
      obtain ⟨last, hconclude⟩ :=
        exists_runCheck_eq_conclude (check_append_of_halt hreads after hhalt)
      rw [hconclude] at hwhole
      exact absurd rfl (hwhole (.longNumber digits))
  | none =>
    rcases hafter with rfl | ⟨path, rest, failure, rfl, hpath⟩
    · have hmore : w.fileLines [] = ([], none) := rfl
      obtain ⟨last, hconclude⟩ :=
        exists_runCheck_eq_conclude (check_append_of_clean hreads hhalt hmore)
      rw [hconclude] at hwhole ⊢
      exact .inr (.inr (conclude_reported hwhole))
    · have hmore : w.fileLines (path :: rest) = ([], some failure) := by rw [fileLines, hpath]
      cases failure with
      | tool error => exact .inl ⟨error, .reading hsettles hreads hhalt hpath⟩
      | fault fault =>
        obtain ⟨last, hconclude⟩ :=
          exists_runCheck_eq_conclude (check_append_of_clean hreads hhalt hmore)
        rw [hconclude] at hwhole
        exact absurd rfl (hwhole fault)

/-- One of the three verdicts is right. -/
theorem verdict_cases (hcheck : w.ChecksByBuiltin r) :
    (∃ error, w.CheckFails r error) ∨ (∃ c, w.FirstConflict r c) ∨
      (w.run r).ending = .success ∧ w.Reported r [] (w.run r) := by
  have hfault {log : Text} {fault : Fault} : w.run r ≠ w.fail [] log (.fault fault) := by
    intro hrun
    exact hcheck.whole fault (hrun ▸ rfl)
  cases hconfig : (w.config r).2 with
  | error failure =>
    cases failure with
    | tool error => exact .inl ⟨error, .settings hconfig⟩
    | fault fault =>
      have hrun : w.run r = w.fail [] (w.config r).1 (.fault fault) := by
        simp only [run, hconfig, Bind.bind, Except.bind]
      exact absurd hrun hfault
  | ok config =>
    cases hpaths : w.paths r config with
    | error failure =>
      cases failure with
      | tool error => exact .inl ⟨error, .sources hconfig hpaths⟩
      | fault fault =>
        exact absurd (run_of_paths_error hcheck hconfig hpaths) hfault
    | ok paths =>
      have hsettles : w.Settles r (keywordsOf r config (r.dialect.getD config.dialect)) paths :=
        ⟨config, hconfig, keywordsInForce_iff.mpr rfl, hpaths⟩
      exact verdict_cases_of_settles hcheck hsettles

/-- A session that a conflict ends has shown its diagnostics and reported it. -/
theorem run_reported_of_firstConflict (hcheck : w.ChecksByBuiltin r) {c : Conflict}
    (hfirst : w.FirstConflict r c) :
    (w.run r).ending = .conflict c ∧
      (w.run r).errors = (w.config r).1 ++ c.diagnosis ∧ w.Reported r [c] (w.run r) := by
  obtain ⟨hprint, hrun⟩ := run_of_firstConflict hcheck hfirst
  have hwhole := hcheck.whole
  rw [hrun] at hwhole ⊢
  exact finish_reported (by simpa using hprint) hwhole

/-- A session that nothing is wrong for succeeds and reports that there is nothing. -/
theorem run_reported_of_success (hcheck : w.ChecksByBuiltin r)
    (hfails : ¬∃ error, w.CheckFails r error) (hfirst : ¬∃ c, w.FirstConflict r c) :
    (w.run r).ending = .success ∧ w.Reported r [] (w.run r) :=
  ((verdict_cases hcheck).resolve_left hfails).resolve_left hfirst

/-- A session ends as it should, and in no other way. -/
theorem verdict_iff (hcheck : w.ChecksByBuiltin r) {ending : Ending} :
    w.Verdict r ending ↔ (w.run r).ending = ending := by
  constructor
  · rintro (hfails | hfirst | ⟨hfails, hfirst⟩)
    · rw [run_of_checkFails hcheck hfails, fail]
    · exact (run_reported_of_firstConflict hcheck hfirst).1
    · exact (run_reported_of_success hcheck hfails hfirst).1
  · rintro rfl
    by_cases hfails : ∃ error, w.CheckFails r error
    · obtain ⟨error, herror⟩ := hfails
      rw [run_of_checkFails hcheck herror]
      exact .failed herror
    by_cases hfirst : ∃ c, w.FirstConflict r c
    · obtain ⟨c, hc⟩ := hfirst
      rw [(run_reported_of_firstConflict hcheck hc).1]
      exact .conflict hc
    · rw [(run_reported_of_success hcheck hfails hfirst).1]
      exact .success hfails hfirst

end World

/-! ### Exit codes -/

namespace Ending

/-- The code of tool errors is that of no other ending. -/
theorem exitCode?_eq_ten_iff {ending : Ending} :
    ending.exitCode? = some 10 ↔ ∃ error, ending = .failed error := by
  cases ending with
  | conflict c =>
    have hcode : c.condition.code ≠ 10 := by cases c.condition <;> decide
    simp [exitCode?, hcode]
  | _ => simp [exitCode?]

/-- The codes of conditions are those of conflicts. -/
theorem exitCode?_eq_code_iff {ending : Ending} {code : Nat} (hcode : code ∈ [1, 2, 3, 4, 5]) :
    ending.exitCode? = some code ↔ ∃ c, ending = .conflict c ∧ c.condition.code = code := by
  have hother : code ≠ 0 ∧ code ≠ 10 ∧ code ≠ 64 := by
    refine ⟨?_, ?_, ?_⟩ <;> rintro rfl <;> exact absurd hcode (by decide)
  cases ending <;> simp [exitCode?, hother, eq_comm]

/-- A request that succeeds and a text that was asked for have the same code. -/
theorem exitCode?_eq_zero_iff {ending : Ending} :
    ending.exitCode? = some 0 ↔ ending = .success ∨ ending = .shown := by
  cases ending with
  | conflict c =>
    have hcode : c.condition.code ≠ 0 := by cases c.condition <;> decide
    simp [exitCode?, hcode]
  | _ => simp [exitCode?]

end Ending

namespace World

variable {w : World} {r : CommandLine.Request}

/-- A check exits with the code of tool errors exactly if one keeps it from its verdict. -/
theorem exitCode?_run_eq_ten_iff (hcheck : w.ChecksByBuiltin r) :
    (w.run r).ending.exitCode? = some 10 ↔ ∃ error, w.CheckFails r error := by
  rw [Ending.exitCode?_eq_ten_iff]
  constructor
  · rintro ⟨error, hending⟩
    cases (verdict_iff hcheck).mpr hending with
    | failed hfails => exact ⟨error, hfails⟩
  · rintro ⟨error, hfails⟩
    exact ⟨error, (verdict_iff hcheck).mp (.failed hfails)⟩

/-- A check exits with the code of a condition exactly if such a conflict is the first thing
wrong with its sources. -/
theorem exitCode?_run_eq_code_iff (hcheck : w.ChecksByBuiltin r) {code : Nat}
    (hcode : code ∈ [1, 2, 3, 4, 5]) :
    (w.run r).ending.exitCode? = some code ↔
      ∃ c, w.FirstConflict r c ∧ c.condition.code = code := by
  rw [Ending.exitCode?_eq_code_iff hcode]
  constructor
  · rintro ⟨c, hending, hc⟩
    cases (verdict_iff hcheck).mpr hending with
    | conflict hfirst => exact ⟨c, hfirst, hc⟩
  · rintro ⟨c, hfirst, hc⟩
    exact ⟨c, (verdict_iff hcheck).mp (.conflict hfirst), hc⟩

/-- A check exits with success exactly if nothing is wrong. -/
theorem exitCode?_run_eq_zero_iff (hcheck : w.ChecksByBuiltin r) :
    (w.run r).ending.exitCode? = some 0 ↔
      (¬∃ error, w.CheckFails r error) ∧ ¬∃ c, w.FirstConflict r c := by
  rw [Ending.exitCode?_eq_zero_iff]
  constructor
  · rintro (hending | hending)
    · cases (verdict_iff hcheck).mpr hending with
      | success hfails hfirst => exact ⟨hfails, hfirst⟩
    · cases (verdict_iff hcheck).mpr hending
  · rintro ⟨hfails, hfirst⟩
    exact .inl ((verdict_iff hcheck).mp (.success hfails hfirst))

end World

/-- A session that checks by the built-in normalizer and does not break down gives the verdict
of the sources. It exits with the code of tool errors exactly if one keeps it from a verdict,
and then reports nothing; with the code of a condition exactly if such a conflict is the first
thing wrong, and then shows its two diagnostics last and reports it alone; and with success
exactly if neither is so, and then reports that there is nothing. -/
theorem session_gives_verdict_of_sources {w : World} {arguments : List String}
    {r : CommandLine.Request} (hread : CommandLine.read arguments = .ok r)
    (hverb : r.verb = .check) (hbuiltin : w.UsesBuiltin r)
    (hwhole : ∀ fault, (w.session arguments).ending ≠ .broken fault) :
    let s := w.session arguments
    ((s.ending.exitCode? = some 10 ↔ ∃ error, w.CheckFails r error) ∧
      ∀ error, w.CheckFails r error →
        s.output = [] ∧ s.disk = w.disk ∧
          s.errors = (w.config r).1 ++ Config.logLine s!"error: {error.message}") ∧
    ((∀ code ∈ [1, 2, 3, 4, 5], s.ending.exitCode? = some code ↔
        ∃ c, w.FirstConflict r c ∧ c.condition.code = code) ∧
      ∀ c, w.FirstConflict r c →
        s.errors = (w.config r).1 ++ c.diagnosis ∧ w.Reported r [c] s) ∧
    ((s.ending.exitCode? = some 0 ↔
        (¬∃ error, w.CheckFails r error) ∧ ¬∃ c, w.FirstConflict r c) ∧
      (s.ending.exitCode? = some 0 → w.Reported r [] s)) := by
  intro s
  have hs : s = w.run r := by
    change w.session arguments = w.run r
    rw [World.session, hread]
  have hcheck : w.ChecksByBuiltin r := ⟨hverb, hbuiltin, fun fault => hs ▸ hwhole fault⟩
  have hzero := World.exitCode?_run_eq_zero_iff hcheck
  rw [hs]
  refine ⟨⟨World.exitCode?_run_eq_ten_iff hcheck, ?_⟩,
    ⟨fun code hcode => World.exitCode?_run_eq_code_iff hcheck hcode, ?_⟩, hzero, ?_⟩
  · intro error hfails
    rw [World.run_of_checkFails hcheck hfails]
    exact ⟨rfl, rfl, rfl⟩
  · intro c hfirst
    exact (World.run_reported_of_firstConflict hcheck hfirst).2
  · intro hexit
    obtain ⟨hfails, hfirst⟩ := hzero.mp hexit
    exact (World.run_reported_of_success hcheck hfails hfirst).2

/-- A configuration with an empty list of keywords lets a register declaration pass for a
prototype. Its repetition decides, although the next source has a function defined twice; the
two lines are shown, and the report goes to a file given by its way from the root. -/
theorem session_of_repeated_register_gives_verdict :
    let reader : Config.Reader := fun content =>
      if content = utf8 "storage_keywords: []\n".toList then
        .ok (.map [(.str "storage_keywords", .list [])])
      else .ok .null
    let w := World.ofFiles reader [("protocheck.yaml", .ofText "storage_keywords: []\n"),
      ("a.h", .ofText "__sfr __at(0x80) P0;\n__sfr __at(0x80) P0;\n"),
      ("b.c", .ofText "int f(void) { }\nint f(void) { }\n")]
    let arguments := ["check", "--json", "/work/out.json", "a.h", "/work/b.c"]
    let s := w.session arguments
    ∃ r, CommandLine.read arguments = .ok r ∧ r.verb = .check ∧ w.UsesBuiltin r ∧
      (∀ fault, s.ending ≠ .broken fault) ∧ s.ending.exitCode? = some 1 ∧
      ∃ c, w.FirstConflict r c ∧ c.condition.code = 1 ∧
        s.errors = (w.config r).1 ++ c.diagnosis ∧
        ∃ text, IsReport [c] text ∧ s.disk.bytes "/work/out.json".toList = .ok (utf8 text) := by
  intro reader w arguments s
  let r : CommandLine.Request :=
    ⟨.check, none, none, none, [], some "/work/out.json", false, ["a.h", "/work/b.c"]⟩
  have hread : CommandLine.read arguments = .ok r := by decide +kernel
  have hcode : s.ending.exitCode? = some 1 := by decide +kernel
  have hwhole : ∀ fault, s.ending ≠ .broken fault := by
    intro fault hbroken
    rw [hbroken] at hcode
    cases hcode
  have hbuiltin : w.UsesBuiltin r := by
    intro config command hconfig hcommand
    have hempty : (w.config r).2 = .ok ⟨[], .sdcc, none, some [], Path.here⟩ := by decide +kernel
    obtain rfl : _ = config := Except.ok.inj (hempty.symm.trans hconfig)
    exact (Except.ok.inj hcommand).symm
  obtain ⟨-, ⟨hcodes, hconflict⟩, -⟩ := session_gives_verdict_of_sources hread rfl hbuiltin hwhole
  obtain ⟨c, hfirst, hone⟩ := (hcodes 1 (by decide)).mp hcode
  obtain ⟨herrors, hreported⟩ := hconflict c hfirst
  obtain ⟨-, text, htext, -, hbytes⟩ :=
    hreported.filed "/work/out.json" rfl (by decide) (by decide)
  exact ⟨r, hread, rfl, hbuiltin, hwhole, hcode, c, hfirst, hone, herrors, text, htext, hbytes⟩

end PrototypeGate

import PrototypeGate.CommandLine.Options
import PrototypeGate.Check.Context
import PrototypeGate.Files.Sources
import PrototypeGate.Helper.Outcome
import PrototypeGate.Settings.Config
import PrototypeGate.Settings.Normalizer
import PrototypeGate.Stream.Normalize

/-!
# Running the tool

A session runs the tool on a world: the files it sees, the helper command from the
environment, what helpers do, and how documents are read. It ends in one of a few ways, each
with an exit code of its own, and leaves behind what it printed and the files it wrote. Sources
are read one after the other, so the first event, a failure to read or a conflict, decides. What
is printed always arrives, and neither memory nor depth runs out.
-/

namespace PrototypeGate

/-- What a session of the tool sees. -/
structure World where
  /-- The files, and the working directory. -/
  disk : Disk
  /-- Why the system lets no file be read at a path, if there is a reason apart from what
  stands there. -/
  unreadable? : Path → Option FileProblem
  /-- Why the system lets no file be written at a path, if there is such a reason. -/
  unwritable? : Path → Option FileProblem
  /-- The reader of configuration documents. -/
  reader : Config.Reader
  /-- The helper command from the environment. -/
  command? : Option String
  /-- Whether there is a place for a helper's output. -/
  hasScratch : Bool
  /-- Why the file for a helper's output cannot be removed in the end, if it cannot. -/
  leftover? : Option FileError
  /-- What starting a helper leads to. -/
  helper : List String → HelperOutcome

/-- How a session ends. -/
inductive Ending where
  /-- A text that was asked for has been shown. -/
  | shown
  /-- The arguments are not in order. -/
  | misused
  /-- Nothing is wrong. -/
  | success
  /-- Two declarations disagree. -/
  | conflict (conflict : Conflict)
  /-- The tool could not do its work. -/
  | failed (error : ToolError)
  /-- The tool broke down. -/
  | broken (fault : Fault)
  deriving DecidableEq, Repr

/-- The exit code of a session; one that broke down has none of its own. -/
def Ending.exitCode? : Ending → Option Nat
  | shown => some 0
  | misused => some 64
  | success => some 0
  | conflict c => some c.condition.code
  | failed _ => some 10
  | broken _ => none

/-- What a session leaves behind. -/
structure Session where
  /-- How it ended. -/
  ending : Ending
  /-- What it printed. -/
  output : Text
  /-- What it printed as diagnostics. -/
  errors : Text
  /-- The files afterwards. -/
  disk : Disk

/-- The name of the configuration file that is used when none is given. -/
def defaultConfig : String := "protocheck.yaml"

/-! ### Streams -/

/-- Why a stream stops before its end. -/
inductive Interruption where
  /-- The run stopped. -/
  | halt (halt : Halt)
  /-- The stream itself failed. -/
  | failure (failure : Failure)
  deriving DecidableEq, Repr

/-- Open a file and read its content. -/
def World.read (w : World) (path : Path) : Except FileProblem (List UInt8) :=
  match w.unreadable? path with
  | some problem => .error problem
  | none => w.disk.bytes path

/-- Open a file and write its content. -/
def World.write (w : World) (path : Path) (content : List UInt8) : Except FileProblem Disk :=
  match w.unwritable? path with
  | some problem => .error problem
  | none => w.disk.write path content

/-- Read a source file. -/
def World.readSource (w : World) (path : Path) : Except Failure Source :=
  if !Tree.isSound path then .error (.fault .nullCharacter)
  else
    match w.read path with
    | .ok content => .ok ⟨path, Tree.sourceText content⟩
    | .error problem =>
      let name := String.ofList path
      .error (.tool (.sourceUnreadable name ⟨problem, name⟩))

/-- Check source files in order, each read only when its turn comes. -/
def World.checkFiles (w : World) (ctx : Context) : List Path → Context × Option Interruption
  | [] => (ctx, none)
  | path :: rest =>
    match w.readSource path with
    | .error failure => (ctx, some (.failure failure))
    | .ok source =>
      match ctx.check source.normalize with
      | (next, none) => w.checkFiles next rest
      | (next, some halt) => (next, some (.halt halt))

/-- The normalized lines of source files, up to the first that cannot be read. -/
def World.fileLines (w : World) : List Path → List Text × Option Failure
  | [] => ([], none)
  | path :: rest =>
    match w.readSource path with
    | .error failure => ([], some failure)
    | .ok source => (w.fileLines rest).map (source.normalize ++ ·) id

/-- What starting a helper for source files leads to, if it can be tried. -/
def World.startHelper (w : World) (command : List String) (dialect : String)
    (paths : List Path) : Except Failure HelperOutcome :=
  let words := Normalizer.words command dialect (paths.map String.ofList)
  if !w.hasScratch then .error (.tool .outputUnavailable)
  else if words.any fun word => word.contains '\x00' then .error (.fault .nullCharacter)
  else .ok (w.helper words)

/-- The lines that a helper puts out for source files. -/
def World.helperLines (w : World) (command : List String) (dialect : String)
    (paths : List Path) : Except Failure (List Text) :=
  let name := (Normalizer.words command dialect (paths.map String.ofList)).headD ""
  match w.startHelper command dialect paths with
  | .error failure => .error failure
  | .ok (.unavailable problem) => .error (.tool (.helperUnavailable name ⟨problem, name⟩))
  | .ok (.finished result _) =>
    if result.status = 0 then .ok (Text.splitLines (Tree.sourceText result.output))
    else
      let detail := String.ofList (Text.trim (Utf8.decodeLenient result.errors))
      .error (.tool (.helperFailed name result.status detail))

/-- Check sources through a normalizer. -/
def World.check (w : World) (normalizer : Normalizer) (ctx : Context) (paths : List Path) :
    Context × Option Interruption :=
  match normalizer with
  | .builtin _ => w.checkFiles ctx paths
  | .external command dialect =>
    match w.helperLines command dialect paths with
    | .error failure => (ctx, some (.failure failure))
    | .ok lines =>
      let (next, halt) := ctx.check lines
      (next, halt.map .halt)

/-- The lines of sources as a normalizer gives them. -/
def World.lines (w : World) (normalizer : Normalizer) (paths : List Path) :
    List Text × Option Failure :=
  match normalizer with
  | .builtin _ => w.fileLines paths
  | .external command dialect =>
    match w.helperLines command dialect paths with
    | .error failure => ([], some failure)
    | .ok lines => (lines, none)

/-! ### Settings -/

/-- What a session works with. -/
structure Plan where
  /-- How sources are normalized. -/
  normalizer : Normalizer
  /-- Storage-class keywords. -/
  keywords : List String
  /-- The source files. -/
  paths : List Path
  deriving DecidableEq, Repr

open CommandLine (Request Stop)

/-- The configuration for a request, with what is logged on the way. An empty path asks
for no configuration at all. -/
def World.config (w : World) (r : Request) : Text × Except Failure Config :=
  let path := match r.config with
    | some path => path
    | none => if w.disk.isFile defaultConfig.toList then defaultConfig else ""
  if path.isEmpty then ([], .ok .standard) else Config.load w.read w.reader path

/-- Split a command string, if it is not empty. -/
def commandOf? (text : Option String) : Option (Except Failure (List String)) :=
  text.bind fun command =>
    if command.isEmpty then none
    else some ((ShellWords.split command).mapError fun problem => .fault (.command problem))

/-- The helper command in force: the request's, else the environment's, else the
configured one. It is empty for the built-in normalizer. -/
def World.command (w : World) (r : Request) (config : Config) : Except Failure (List String) :=
  match commandOf? r.normalizer with
  | some command => command
  | none =>
    match commandOf? w.command? with
    | some command => command
    | none => .ok (config.normalizer.getD [])

/-- The storage-class keywords in force: the request's, else the configured ones, else
those of the dialect. -/
def keywordsOf (r : Request) (config : Config) (dialect : Dialect) : List String :=
  if r.storageKeywords.isEmpty then config.storageKeywords.getD dialect.storageKeywords
  else r.storageKeywords

/-- The source files in force: the request's, else the configured ones. -/
def World.paths (w : World) (r : Request) (config : Config) : Except Failure (List Path) := do
  let found ←
    if r.sources.isEmpty then
      Sources.collect w.disk (config.sources.map String.toList) config.base
    else Sources.collect w.disk (r.sources.map String.toList) Path.here
  if found.isEmpty then throw (.tool .noSources)
  return found

/-- What a request amounts to, given the configuration. -/
def World.plan (w : World) (r : Request) (config : Config) : Except Failure Plan := do
  let dialect := r.dialect.getD config.dialect
  let command ← w.command r config
  let paths ← w.paths r config
  return ⟨.ofCommand command dialect.name, keywordsOf r config dialect, paths⟩

/-! ### Sessions -/

/-- End a session by a failure. A tool error is logged. -/
def World.fail (w : World) (output errors : Text) : Failure → Session
  | .tool error =>
    ⟨.failed error, output, errors ++ Config.logLine s!"error: {error.message}", w.disk⟩
  | .fault fault => ⟨.broken fault, output, errors, w.disk⟩

/-- Put the report on conflicts where the request wants it, then end the session. Every
condition has a code, so a report that cannot be made has an integer of too many digits. -/
def World.finish (w : World) (r : Request) (conflicts : List Conflict) (errors : Text)
    (ending : Ending) : Session :=
  match r.json.filter (!·.isEmpty) with
  | none => ⟨ending, [], errors, w.disk⟩
  | some target =>
    match Finding.report (conflicts.map Conflict.finding) with
    | .error _ => w.fail [] errors (.fault .longNumeral)
    | .ok text =>
      if target = "-" then ⟨ending, text, errors, w.disk⟩
      else if !Tree.isSound target.toList then w.fail [] errors (.fault .nullCharacter)
      else
        match w.write target.toList (utf8 text) with
        | .ok disk => ⟨ending, [], errors, disk⟩
        | .error problem => w.fail [] errors (.fault (.report ⟨problem, target⟩))

/-- The summary of a check that found nothing. -/
def summary (ctx : Context) : Text :=
  let files := ctx.position.filesSeen.length
  let prototypes := ctx.ledger.prototypes.size
  let definitions := ctx.ledger.definitions.size
  Config.logLine
    s!"{files} file(s), {prototypes} prototype(s), {definitions} definition(s): ok"

/-- The world once the stream of a plan has been made. A helper may have changed the
files. -/
def World.after (w : World) (plan : Plan) : World :=
  match plan.normalizer with
  | .builtin _ => w
  | .external command dialect =>
    match w.startHelper command dialect plan.paths with
    | .ok (.finished _ disk) => { w with disk := disk }
    | _ => w

/-- The fault of a plan with a helper whose output file cannot be removed. A file that is
gone already is not missed. -/
def World.leftoverFault? (w : World) (plan : Plan) : Option Fault :=
  match plan.normalizer with
  | .builtin _ => none
  | .external _ _ =>
    if w.hasScratch then (w.leftover?.filter (·.problem ≠ .notFound)).map .leftover else none

/-- End a check by what interrupted it, or with a report that there is nothing. -/
def World.conclude (w : World) (r : Request) (log : Text) :
    Context × Option Interruption → Session
  | (_, some (.halt (.conflict c))) =>
    match c.finding.diagnosticText? with
    | some text => w.finish r [c] (log ++ text) (.conflict c)
    | none => w.fail [] log (.fault .longNumeral)
  | (_, some (.halt (.longNumber digits))) => w.fail [] log (.fault (.longNumber digits))
  | (_, some (.failure failure)) => w.fail [] log failure
  | (last, none) =>
    let done := w.finish r [] log .success
    if r.verbose ∧ done.ending = .success then { done with errors := done.errors ++ summary last }
    else done

/-- Check the sources of a plan. A file that cannot be removed takes the place of any other
end. -/
def World.runCheck (w : World) (r : Request) (log : Text) (plan : Plan) : Session :=
  let ctx := Context.initial (plan.keywords.map String.toList)
  match w.leftoverFault? plan with
  | some fault => (w.after plan).fail [] log (.fault fault)
  | none => (w.after plan).conclude r log (w.check plan.normalizer ctx plan.paths)

/-- Drop the line feeds at the end of a line. -/
def chompLine (line : Text) : Text :=
  (line.reverse.dropWhile (· == '\n')).reverse

/-- Print the normalized stream of a plan. -/
def World.runStrip (w : World) (log : Text) (plan : Plan) : Session :=
  let (lines, failure) := w.lines plan.normalizer plan.paths
  let printed := lines.flatMap fun line => chompLine line ++ ['\n']
  match (w.leftoverFault? plan).map .fault <|> failure with
  | some failure => (w.after plan).fail printed log failure
  | none => ⟨.success, printed, log, (w.after plan).disk⟩

/-- Run a request. -/
def World.run (w : World) (r : Request) : Session :=
  let (log, config) := w.config r
  match (do w.plan r (← config) : Except Failure Plan) with
  | .error failure => w.fail [] log failure
  | .ok plan =>
    match r.verb with
    | .check => w.runCheck r log plan
    | .strip => w.runStrip log plan

/-- Run the tool with command-line arguments. -/
def World.session (w : World) (arguments : List String) : Session :=
  match CommandLine.read arguments with
  | .ok request => w.run request
  | .error (.shown text) => ⟨.shown, text.toList, [], w.disk⟩
  | .error stop => ⟨.misused, [], stop.complaint.toList, w.disk⟩

end PrototypeGate

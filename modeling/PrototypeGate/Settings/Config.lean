import PrototypeGate.Declaration.Dialect
import PrototypeGate.Failure
import PrototypeGate.Settings.Value

/-!
# Configuration

Settings can be kept in a file: the sources, the dialect, a helper command in place of
the built-in normalizer, and storage-class keywords in place of the dialect's. Unknown
settings are reported and ignored. The file is a document; how its bytes are read as a
value is left to a reader of documents.
-/

namespace PrototypeGate

/-- The settings of a configuration file. -/
structure Config where
  /-- Source entries, relative to the base directory. -/
  sources : List String
  /-- The compiler dialect. -/
  dialect : Dialect
  /-- The helper command, unless the built-in normalizer is used. -/
  normalizer : Option (List String)
  /-- Storage-class keywords in place of the dialect's. -/
  storageKeywords : Option (List String)
  /-- The directory of the configuration file. -/
  base : Path
  deriving DecidableEq, Repr

namespace Config

/-- The settings in force without a configuration file. -/
def standard : Config :=
  ⟨[], .standard, none, none, Path.here⟩

/-- The text of a value, if it is one. -/
def text? : Value → Option String
  | .str s => some s
  | _ => none

/-- A setting that is a text, a list of texts, or absent. -/
def stringList (value : Value) (key origin : String) : Except ToolError (List String) :=
  match value with
  | .null => .ok []
  | .str s => .ok [s]
  | .list items =>
    match items.mapM text? with
    | some texts => .ok texts
    | none => .error (.notStrings origin key)
  | _ => .error (.notStrings origin key)

/-- A list, unless it is empty. -/
def nonempty? (words : List String) : Option (List String) :=
  if words.isEmpty then none else some words

/-- A setting that is a command: one text to be split, a list of words, or absent. -/
def command (value : Value) (key origin : String) : Except Failure (Option (List String)) :=
  match value with
  | .null => .ok none
  | .str s => ((ShellWords.split s).map nonempty?).mapError fun p => .fault (.command p)
  | _ => ((stringList value key origin).map nonempty?).mapError .tool

/-- The names of the settings. -/
def knownKeys : List String :=
  ["sources", "dialect", "normalizer", "storage_keywords"]

/-- Whether a key names a setting. -/
def isKnown (key : Value) : Bool :=
  knownKeys.any fun name => key.sameKey (.str name)

/-- Sort keys, unless some of them cannot be compared. -/
def sortKeys? (keys : List Value) : Option (List Value) :=
  let comparable := keys.all fun a => keys.all fun b => (a.compare? b).isSome
  if comparable || keys.length ≤ 1 then
    some (keys.mergeSort fun a b => a.compare? b != some .gt)
  else none

/-- A line of the log. -/
def logLine (message : String) : Text :=
  s!"[protocheck] {message}\n".toList

/-- The log line about unknown settings, empty if there are none. -/
def unknownKeys (path : String) (entries : List (Value × Value)) : Except Fault Text :=
  let unknown := (entries.map Prod.fst).filter (!isKnown ·)
  match sortKeys? unknown with
  | none => .error .unsortable
  | some [] => .ok []
  | some sorted =>
    if Value.areShowable sorted then
      let shown := bracketed (sorted.map Value.inner)
      .ok (logLine s!"Ignoring unknown config key(s) in {path}: {shown}")
    else .error .longNumeral

/-- The name of the dialect that a setting gives. -/
def dialectName (setting : Option Value) : Except Fault String :=
  match setting with
  | none => .ok Dialect.standard.name
  | some value => if value.isShowable then .ok value.plain else .error .longNumeral

/-- The settings that the entries of a configuration file give. -/
def ofEntries (path : String) (entries : List (Value × Value)) : Except Failure Config := do
  let name ← (dialectName (Value.field? entries "dialect")).mapError .fault
  let dialect ← match Dialect.ofName? name with
    | some dialect => .ok dialect
    | none => .error (.tool (.configDialect path name))
  let field := fun name => (Value.field? entries name).getD .null
  let sources ← (stringList (field "sources") "sources" path).mapError .tool
  let normalizer ← command (field "normalizer") "normalizer" path
  let storageKeywords ← match field "storage_keywords" with
    | .null => .ok none
    | value => ((stringList value "storage_keywords" path).map some).mapError .tool
  let dir := Path.directory path.toList
  return ⟨sources, dialect, normalizer, storageKeywords, if dir = [] then Path.here else dir⟩

/-- A reader of documents: what it makes of the bytes of a file. -/
abbrev Reader := List UInt8 → Except DocumentProblem Value

/-- The entries of a configuration file. An empty document has none. -/
def entriesOf (reader : Reader) (path : String) (content : List UInt8) :
    Except Failure (List (Value × Value)) :=
  match reader content with
  | .ok .null => .ok []
  | .ok (.map entries) => .ok entries
  | .ok _ => .error (.tool (.configNotMapping path))
  | .error .malformed => .error (.tool (.configMalformed path))
  | .error (.raised kind message?) => .error (.fault (.document kind message?))

/-- The content of a configuration file, given how files are opened. -/
def content (opened : Path → Except FileProblem (List UInt8)) (path : String) :
    Except Failure (List UInt8) :=
  if !Tree.isSound path.toList then .error (.fault .nullCharacter)
  else
    match opened path.toList with
    | .ok bytes => .ok bytes
    | .error .notFound => .error (.tool (.configMissing path))
    | .error problem => .error (.tool (.configUnreadable path ⟨problem, path⟩))

/-- Load a configuration file. The first component is what is logged on the way. -/
def load (opened : Path → Except FileProblem (List UInt8)) (reader : Reader) (path : String) :
    Text × Except Failure Config :=
  match (do entriesOf reader path (← content opened path) :
      Except Failure (List (Value × Value))) with
  | .error failure => ([], .error failure)
  | .ok entries =>
    match unknownKeys path entries with
    | .error fault => ([], .error (.fault fault))
    | .ok log => (log, ofEntries path entries)

end Config

end PrototypeGate

import PrototypeGate.Proofs.Results
import PrototypeGate.Settings.Config

/-!
# Configurations that break a run

Most trouble with a configuration file is foreseen and reported. Six kinds are not: a path
with a null character, a document that its reader gives up on, unknown keys that cannot be
sorted or shown, a dialect that cannot be shown, and a helper command that cannot be split.
This file shows that loading a configuration breaks down for these reasons and for no other,
however files are opened and documents are read.
-/

namespace PrototypeGate

namespace Config

/-- A setting is a text, a list of texts, or absent. -/
inductive IsTexts : Value → Prop
  | absent : IsTexts .null
  | one (text : String) : IsTexts (.str text)
  | many (texts : List String) : IsTexts (.list (texts.map .str))

/-- The keys that name no setting. -/
def unknownOf (entries : List (Value × Value)) : List Value :=
  (entries.map Prod.fst).filter (!isKnown ·)

/-- The value of a setting, null if it is absent. -/
def setting (entries : List (Value × Value)) (name : String) : Value :=
  (Value.field? entries name).getD .null

/-- The setting of the dialect is the name of one; an absent one is that of the standard. -/
def NamesDialect (entries : List (Value × Value)) : Prop :=
  ∃ name, dialectName (Value.field? entries "dialect") = .ok name ∧ Dialect.ofName? name ≠ none

/-- Two of several unknown keys cannot be compared. -/
def Unsortable (entries : List (Value × Value)) : Prop :=
  1 < (unknownOf entries).length ∧
    ∃ a ∈ unknownOf entries, ∃ b ∈ unknownOf entries, a.compare? b = none

section Loading

variable (opened : Path → Except FileProblem (List UInt8)) (reader : Reader) (path : String)

/-- A file holds some bytes, and its path can be given to the system. -/
def Holds (bytes : List UInt8) : Prop :=
  Tree.isSound path.toList ∧ opened path.toList = .ok bytes

/-- A file holds a document with the given entries; an empty document has none. -/
def Documents (entries : List (Value × Value)) : Prop :=
  ∃ bytes, Holds opened path bytes ∧
    (reader bytes = .ok (.map entries) ∨ reader bytes = .ok .null ∧ entries = [])

/-- Why loading a configuration file breaks down. -/
inductive Breaks : Fault → Prop
  /-- The path holds a null character. -/
  | path (hpath : '\x00' ∈ path.toList) : Breaks .nullCharacter
  /-- The reader gives up on the document. -/
  | document {bytes : List UInt8} {kind : String} {message? : Option String}
      (hbytes : Holds opened path bytes) (hread : reader bytes = .error (.raised kind message?)) :
      Breaks (.document kind message?)
  /-- The unknown keys cannot be sorted. -/
  | keys {entries : List (Value × Value)} (hentries : Documents opened reader path entries)
      (hkeys : Unsortable entries) : Breaks .unsortable
  /-- The unknown keys can be sorted, but one of them cannot be shown. -/
  | key {entries : List (Value × Value)} {key : Value}
      (hentries : Documents opened reader path entries) (hkeys : ¬Unsortable entries)
      (hkey : key ∈ unknownOf entries) (hlong : ¬key.isShowable) : Breaks .longNumeral
  /-- The unknown keys can be sorted and shown, but the dialect cannot be shown. -/
  | dialect {entries : List (Value × Value)} {value : Value}
      (hentries : Documents opened reader path entries) (hkeys : ¬Unsortable entries)
      (hshown : ∀ key ∈ unknownOf entries, key.isShowable)
      (hvalue : Value.field? entries "dialect" = some value) (hlong : ¬value.isShowable) :
      Breaks .longNumeral
  /-- The helper command cannot be split, and the settings read before it are in order. -/
  | command {entries : List (Value × Value)} {command : String} {problem : ShellWords.Problem}
      (hentries : Documents opened reader path entries) (hkeys : ¬Unsortable entries)
      (hshown : ∀ key ∈ unknownOf entries, key.isShowable) (hdialect : NamesDialect entries)
      (hsources : IsTexts (setting entries "sources"))
      (hcommand : setting entries "normalizer" = .str command)
      (hsplit : ShellWords.split command = .error problem) : Breaks (.command problem)

end Loading

/-! ### Single steps -/

private theorem mapM_text?_eq_some {items : List Value} {texts : List String} :
    items.mapM text? = some texts ↔ items = texts.map .str := by
  induction items generalizing texts with
  | nil => cases texts <;> simp
  | cons item rest ih =>
    cases item with
    | str s =>
      cases texts with
      | nil => simp [List.mapM_cons, text?, Option.bind_eq_some_iff]
      | cons t ts =>
        simp only [List.mapM_cons, text?, List.map_cons, List.cons.injEq, Value.str.injEq, ← ih]
        cases rest.mapM text? <;> simp
    | _ => cases texts <;> simp [List.mapM_cons, text?]

/-- A setting is accepted exactly if it is a text, a list of texts, or absent. -/
theorem stringList_eq_ok {value : Value} (key origin : String) :
    (∃ texts, stringList value key origin = .ok texts) ↔ IsTexts value := by
  constructor
  · rintro ⟨texts, h⟩
    cases value with
    | null => exact .absent
    | str s => exact .one s
    | list items =>
      cases hitems : items.mapM text? with
      | none => simp [stringList, hitems] at h
      | some found =>
        rw [mapM_text?_eq_some.mp hitems]
        exact .many found
    | _ => simp [stringList] at h
  · rintro (_ | s | texts)
    · exact ⟨[], rfl⟩
    · exact ⟨[s], rfl⟩
    · exact ⟨texts, by simp [stringList, mapM_text?_eq_some.mpr rfl]⟩

/-- Splitting a command that is a setting breaks down exactly if it is one text that
cannot be split. -/
theorem command_eq_fault_iff {value : Value} (key origin : String) {fault : Fault} :
    command value key origin = .error (.fault fault) ↔
      ∃ text problem, value = .str text ∧ ShellWords.split text = .error problem ∧
        fault = .command problem := by
  cases value with
  | str text =>
    cases hsplit : ShellWords.split text with
    | error problem => simp [command, hsplit, Except.map, mapError_error, eq_comm]
    | ok words => simp [command, hsplit, Except.map, mapError_ok]
  | null => simp [command]
  | list items =>
    cases htexts : stringList (.list items) key origin <;>
      simp [command, htexts, Except.map, mapError_error, mapError_ok]
  | _ => simp [command, stringList, Except.map, mapError_error]

/-- Reading the content of a configuration file breaks down exactly at a path with a null
character. -/
theorem content_eq_fault_iff {opened : Path → Except FileProblem (List UInt8)} {path : String}
    {fault : Fault} :
    content opened path = .error (.fault fault) ↔
      ¬Tree.isSound path.toList ∧ fault = .nullCharacter := by
  by_cases hpath : Tree.isSound path.toList
  · simp only [content, hpath, Bool.not_true, Bool.false_eq_true, if_false, not_true_eq_false,
      false_and, iff_false]
    cases opened path.toList with
    | ok bytes => simp
    | error problem => cases problem <;> simp
  · simp [content, hpath, eq_comm]

/-- The content of a configuration file is that of the file at a sound path. -/
theorem content_eq_ok_iff {opened : Path → Except FileProblem (List UInt8)} {path : String}
    {bytes : List UInt8} : content opened path = .ok bytes ↔ Holds opened path bytes := by
  by_cases hpath : Tree.isSound path.toList
  · simp only [content, Holds, hpath, Bool.not_true, Bool.false_eq_true, if_false, true_and]
    cases opened path.toList with
    | ok found => simp
    | error problem => cases problem <;> simp
  · simp [content, Holds, hpath]

/-- Reading the entries breaks down exactly if the reader gives up. -/
theorem entriesOf_eq_fault_iff {reader : Reader} {path : String} {bytes : List UInt8}
    {fault : Fault} :
    entriesOf reader path bytes = .error (.fault fault) ↔
      ∃ kind message?, reader bytes = .error (.raised kind message?) ∧
        fault = .document kind message? := by
  cases hread : reader bytes with
  | ok value => cases value <;> simp [entriesOf, hread]
  | error problem => cases problem <;> simp [entriesOf, hread, eq_comm]

/-- The entries that are read are those of the document in the content. -/
theorem entriesOf_eq_ok_iff {reader : Reader} {path : String} {bytes : List UInt8}
    {entries : List (Value × Value)} :
    entriesOf reader path bytes = .ok entries ↔
      reader bytes = .ok (.map entries) ∨ reader bytes = .ok .null ∧ entries = [] := by
  cases hread : reader bytes with
  | ok value => cases value <;> simp [entriesOf, hread, eq_comm]
  | error problem => cases problem <;> simp [entriesOf, hread]

private theorem areShowable_iff {items : List Value} :
    Value.areShowable items ↔ ∀ item ∈ items, item.isShowable := by
  induction items with
  | nil => simp [Value.areShowable]
  | cons item rest ih => simp [Value.areShowable, ih]

private theorem mem_of_sortKeys?_eq_some {keys sorted : List Value}
    (hsorted : sortKeys? keys = some sorted) {key : Value} : key ∈ sorted ↔ key ∈ keys := by
  have hsome := (Option.ite_none_right_eq_some.mp hsorted).2
  obtain rfl := Option.some.inj hsome
  exact List.mem_mergeSort

/-- Logging the unknown keys breaks down exactly if two of them cannot be compared, or else
one of them cannot be shown. -/
theorem unknownKeys_eq_error_iff {path : String} {entries : List (Value × Value)}
    {fault : Fault} :
    unknownKeys path entries = .error fault ↔
      Unsortable entries ∧ fault = .unsortable ∨
        ¬Unsortable entries ∧ (∃ key ∈ unknownOf entries, ¬key.isShowable) ∧
          fault = .longNumeral := by
  have hsort : sortKeys? (unknownOf entries) = none ↔ Unsortable entries := by
    simp [sortKeys?, Unsortable, and_comm]
  cases hsorted : sortKeys? (unknownOf entries) with
  | none =>
    have hstop : unknownKeys path entries = .error .unsortable := by
      simp only [unknownKeys, ← unknownOf.eq_1, hsorted]
    simp [hstop, hsort.mp hsorted, eq_comm (a := fault)]
  | some sorted =>
    have hsortable : ¬Unsortable entries := fun h => by simp [hsort.mpr h] at hsorted
    have hkeys : (∃ key ∈ unknownOf entries, ¬key.isShowable) ↔ ¬Value.areShowable sorted := by
      simp [areShowable_iff, mem_of_sortKeys?_eq_some hsorted]
    rw [hkeys]
    cases sorted with
    | nil => simp [unknownKeys, ← unknownOf.eq_1, hsorted, hsortable, Value.areShowable]
    | cons key rest =>
      by_cases hshown : Value.areShowable (key :: rest) <;>
        simp [unknownKeys, ← unknownOf.eq_1, hsorted, hsortable, hshown, eq_comm (a := fault)]

/-- Reading the settings breaks down exactly if the dialect cannot be shown, or the helper
command is one text that cannot be split, and the dialect and the sources, which are read
before it, are in order. -/
theorem ofEntries_eq_fault_iff (path : String) {entries : List (Value × Value)}
    {fault : Fault} :
    ofEntries path entries = .error (.fault fault) ↔
      (∃ value, Value.field? entries "dialect" = some value ∧ ¬value.isShowable ∧
          fault = .longNumeral) ∨
        NamesDialect entries ∧ IsTexts (setting entries "sources") ∧
          ∃ text problem, setting entries "normalizer" = .str text ∧
            ShellWords.split text = .error problem ∧ fault = .command problem := by
  rw [← command_eq_fault_iff "normalizer" path, ← stringList_eq_ok "sources" path]
  have hlong : (∃ value, Value.field? entries "dialect" = some value ∧ ¬value.isShowable ∧
      fault = .longNumeral) ↔
      dialectName (Value.field? entries "dialect") = .error fault := by
    cases Value.field? entries "dialect" with
    | none => simp [dialectName]
    | some value =>
      by_cases hvalue : value.isShowable <;>
        simp [dialectName, hvalue, eq_comm (a := fault)]
  rw [hlong, NamesDialect]
  cases hname : dialectName (Value.field? entries "dialect") with
  | error e =>
    have hstop : ofEntries path entries = .error (.fault e) := by
      simp only [ofEntries, hname]
      rfl
    simp [hstop]
  | ok name =>
    cases hdialect : Dialect.ofName? name with
    | none =>
      have hstop : ofEntries path entries = .error (.tool (.configDialect path name)) := by
        simp only [ofEntries, hname, mapError_ok, Bind.bind, Except.bind, hdialect]
      simp [hstop, hdialect]
    | some dialect =>
      cases hsources : stringList (setting entries "sources") "sources" path with
      | error e =>
        have hstop : ofEntries path entries = .error (.tool e) := by
          simp only [ofEntries, ← setting.eq_1, hname, mapError_ok, Except.bind, Bind.bind,
            hdialect, hsources]
          rfl
        simp [hstop]
      | ok sources =>
        cases hcommand : command (setting entries "normalizer") "normalizer" path with
        | error e =>
          have hstop : ofEntries path entries = .error e := by
            simp only [ofEntries, ← setting.eq_1, hname, mapError_ok, Bind.bind, Except.bind,
              hdialect, hsources, hcommand]
          simp [hstop, hdialect]
        | ok words =>
          have hlast : ofEntries path entries ≠ .error (.fault fault) := by
            simp only [ofEntries, ← setting.eq_1, hname, mapError_ok, hsources, hcommand]
            generalize setting entries "storage_keywords" = value
            cases hkeywords : stringList value "storage_keywords" path <;> cases value <;>
              simp [Bind.bind, Except.bind, Pure.pure, Except.pure, Except.map, mapError_error,
                mapError_ok, hdialect, hkeywords]
          simp [hlast]

/-! ### Loading -/

section Loading

variable {opened : Path → Except FileProblem (List UInt8)} {reader : Reader} {path : String}

/-- The entries of a configuration file are those of the document that it holds. -/
theorem read_eq_ok_iff {entries : List (Value × Value)} :
    content opened path >>= entriesOf reader path = .ok entries ↔
      Documents opened reader path entries := by
  constructor
  · intro h
    obtain ⟨bytes, hcontent, hentries⟩ := exists_of_bind_eq_ok h
    exact ⟨bytes, content_eq_ok_iff.mp hcontent, entriesOf_eq_ok_iff.mp hentries⟩
  · rintro ⟨bytes, hbytes, hentries⟩
    rw [content_eq_ok_iff.mpr hbytes]
    exact entriesOf_eq_ok_iff.mpr hentries

/-- Reading the entries of a configuration file breaks down exactly at a path with a null
character, or if the reader gives up on the document. -/
theorem read_eq_fault_iff {fault : Fault} :
    content opened path >>= entriesOf reader path = .error (.fault fault) ↔
      ¬Tree.isSound path.toList ∧ fault = .nullCharacter ∨
        ∃ bytes kind message?, Holds opened path bytes ∧
          reader bytes = .error (.raised kind message?) ∧ fault = .document kind message? := by
  rw [bind_eq_error_iff, content_eq_fault_iff]
  simp only [content_eq_ok_iff, entriesOf_eq_fault_iff]
  constructor
  · rintro (hnull | ⟨bytes, hbytes, kind, message?, hread, rfl⟩)
    · exact .inl hnull
    · exact .inr ⟨bytes, kind, message?, hbytes, hread, rfl⟩
  · rintro (hnull | ⟨bytes, kind, message?, hbytes, hread, rfl⟩)
    · exact .inl hnull
    · exact .inr ⟨bytes, hbytes, kind, message?, hread, rfl⟩

private theorem load_of_read_error {failure : Failure}
    (hread : content opened path >>= entriesOf reader path = .error failure) :
    (load opened reader path).2 = .error failure := by
  simp only [load, hread]

private theorem load_of_unknownKeys_error {entries : List (Value × Value)} {fault : Fault}
    (hread : content opened path >>= entriesOf reader path = .ok entries)
    (hkeys : unknownKeys path entries = .error fault) :
    (load opened reader path).2 = .error (.fault fault) := by
  simp only [load, hread, hkeys]

private theorem load_of_unknownKeys {entries : List (Value × Value)} {log : Text}
    (hread : content opened path >>= entriesOf reader path = .ok entries)
    (hkeys : unknownKeys path entries = .ok log) :
    (load opened reader path).2 = ofEntries path entries := by
  simp only [load, hread, hkeys]

/-- With unknown keys that can be sorted and shown, the settings are read. -/
private theorem load_of_shown {entries : List (Value × Value)}
    (hentries : Documents opened reader path entries) (hkeys : ¬Unsortable entries)
    (hshown : ∀ key ∈ unknownOf entries, key.isShowable) :
    (load opened reader path).2 = ofEntries path entries := by
  cases hlog : unknownKeys path entries with
  | error fault =>
    rcases unknownKeys_eq_error_iff.mp hlog with ⟨h, -⟩ | ⟨-, ⟨key, hkey, hlong⟩, -⟩
    · exact absurd h hkeys
    · exact absurd (hshown key hkey) hlong
  | ok log => exact load_of_unknownKeys (read_eq_ok_iff.mpr hentries) hlog

/-- Loading a configuration file breaks down exactly for one of the six reasons. -/
theorem load_eq_fault_iff {fault : Fault} :
    (load opened reader path).2 = .error (.fault fault) ↔ Breaks opened reader path fault := by
  constructor
  · intro h
    cases hread : content opened path >>= entriesOf reader path with
    | error failure =>
      obtain rfl : failure = .fault fault := by simpa [load_of_read_error hread] using h
      rcases read_eq_fault_iff.mp hread with
        ⟨hpath, rfl⟩ | ⟨bytes, kind, message?, hbytes, hdocument, rfl⟩
      · exact .path (by simpa [Tree.isSound] using hpath)
      · exact .document hbytes hdocument
    | ok entries =>
      have hentries := read_eq_ok_iff.mp hread
      cases hlog : unknownKeys path entries with
      | error fault' =>
        obtain rfl : fault' = fault := by
          simpa [load_of_unknownKeys_error hread hlog] using h
        rcases unknownKeys_eq_error_iff.mp hlog with
          ⟨hunsortable, rfl⟩ | ⟨hkeys, ⟨key, hkey, hlong⟩, rfl⟩
        · exact .keys hentries hunsortable
        · exact .key hentries hkeys hkey hlong
      | ok log =>
        have hfine (e : Fault) : unknownKeys path entries ≠ .error e := by simp [hlog]
        have hkeys : ¬Unsortable entries := fun hunsortable =>
          hfine _ (unknownKeys_eq_error_iff.mpr (.inl ⟨hunsortable, rfl⟩))
        have hshown : ∀ key ∈ unknownOf entries, key.isShowable := fun key hkey =>
          by_contra fun hlong =>
            hfine _ (unknownKeys_eq_error_iff.mpr (.inr ⟨hkeys, ⟨key, hkey, hlong⟩, rfl⟩))
        rw [load_of_unknownKeys hread hlog] at h
        rcases (ofEntries_eq_fault_iff path).mp h with ⟨value, hvalue, hlong, rfl⟩ |
          ⟨hdialect, hsources, command, problem, hcommand, hsplit, rfl⟩
        · exact .dialect hentries hkeys hshown hvalue hlong
        · exact .command hentries hkeys hshown hdialect hsources hcommand hsplit
  · intro h
    cases h with
    | path hpath =>
      have hunsound : ¬Tree.isSound path.toList := by simpa [Tree.isSound] using hpath
      exact load_of_read_error (read_eq_fault_iff.mpr (.inl ⟨hunsound, rfl⟩))
    | document hbytes hread =>
      exact load_of_read_error (read_eq_fault_iff.mpr (.inr ⟨_, _, _, hbytes, hread, rfl⟩))
    | keys hentries hkeys =>
      exact load_of_unknownKeys_error (read_eq_ok_iff.mpr hentries)
        (unknownKeys_eq_error_iff.mpr (.inl ⟨hkeys, rfl⟩))
    | key hentries hkeys hkey hlong =>
      exact load_of_unknownKeys_error (read_eq_ok_iff.mpr hentries)
        (unknownKeys_eq_error_iff.mpr (.inr ⟨hkeys, ⟨_, hkey, hlong⟩, rfl⟩))
    | dialect hentries hkeys hshown hvalue hlong =>
      rw [load_of_shown hentries hkeys hshown]
      exact (ofEntries_eq_fault_iff path).mpr (.inl ⟨_, hvalue, hlong, rfl⟩)
    | command hentries hkeys hshown hdialect hsources hcommand hsplit =>
      rw [load_of_shown hentries hkeys hshown]
      exact (ofEntries_eq_fault_iff path).mpr
        (.inr ⟨hdialect, hsources, _, _, hcommand, hsplit, rfl⟩)

end Loading

end Config

end PrototypeGate

import PrototypeGate.Files.Sources
import PrototypeGate.Proofs.Expansion

/-!
# Collecting sources

A source entry that names nothing is reported. The one entry that breaks a run is a
pattern that spells out a null character, and only if every entry before it stands for
files. Every source that is collected can be given to the system.
-/

namespace PrototypeGate.Sources

open PrototypeGate.Tree (isSound)

/-- An entry is a pattern that spells out a null character. -/
def Breaks (base entry : Path) : Prop :=
  hasMagic entry ∧ Glob.SpellsNull (resolve base entry)

/-- An entry is a pattern, or it names a directory or a file. -/
def Stands (disk : Disk) (base entry : Path) : Prop :=
  hasMagic entry ∨ disk.isDirectory (resolve base entry) ∨ disk.isFile (resolve base entry)

private theorem not_spellsNull_of_isSound {p : Path} (hp : isSound p) : ¬Glob.SpellsNull p := by
  rintro ⟨before, after, rfl, hnull, -, -⟩
  have hbefore := (Tree.isSound_append.mp hp).1
  simp [isSound, hnull] at hbefore

/-- An entry that can be given to the system breaks nothing in a base directory that can be. -/
theorem not_breaks_of_isSound {base entry : Path} (hbase : isSound base) (hentry : isSound entry) :
    ¬Breaks base entry := by
  rintro ⟨-, hnull⟩
  refine not_spellsNull_of_isSound ?_ hnull
  unfold resolve
  split_ifs
  · exact hentry
  · exact Tree.isSound_join hbase hentry

/-- The files below a directory of a named tree can be collected, and they can be given to
the system. -/
theorem withEnding_of_isSound {disk : Disk} (hdisk : disk.root.Named) {dir : Path} (ending : Text)
    (hdir : isSound dir) (hending : isSound ending) :
    ∃ found, withEnding disk dir ending = .ok found ∧ ∀ q ∈ found, isSound q := by
  have hname : isSound ('*' :: ending) := Tree.isSound_append (p := ['*']).mpr ⟨rfl, hending⟩
  have hpattern : isSound (Path.join (Path.join dir Glob.anyDepth) ('*' :: ending)) :=
    Tree.isSound_join (Tree.isSound_join hdir rfl) hname
  cases hexpand : Glob.expand disk (Path.join (Path.join dir Glob.anyDepth) ('*' :: ending)) with
  | error fault =>
    exact absurd ((Glob.expand_eq_error_iff hdisk).mp hexpand).1
      (not_spellsNull_of_isSound hpattern)
  | ok found =>
    refine ⟨sort found, by rw [withEnding, hexpand]; rfl, fun q hq => ?_⟩
    exact Glob.isSound_of_mem_expand hdisk hexpand q (List.mem_mergeSort.mp hq)

/-- On a named tree an entry stands for files that can be given to the system, or it names
nothing, or it is a pattern that spells out a null character. -/
theorem expandEntry_spec {disk : Disk} (hdisk : disk.root.Named) (base entry : Path) :
    (Breaks base entry → expandEntry disk base entry = .error (.fault .nullCharacter)) ∧
      (¬Stands disk base entry → ∃ error, expandEntry disk base entry = .error (.tool error)) ∧
      (Stands disk base entry → ¬Breaks base entry →
        ∃ found, expandEntry disk base entry = .ok found ∧ ∀ q ∈ found, isSound q) := by
  by_cases hmagic : hasMagic entry
  · have hstands : Stands disk base entry := .inl hmagic
    have hentry : expandEntry disk base entry = ((Glob.expand disk (resolve base entry)).map
        fun found => (sort found).filter disk.isFile).mapError .fault := by
      simp only [expandEntry, hmagic, if_true]
    cases hexpand : Glob.expand disk (resolve base entry) with
    | error fault =>
      obtain ⟨hnull, rfl⟩ := (Glob.expand_eq_error_iff hdisk).mp hexpand
      rw [hexpand] at hentry
      exact ⟨fun _ => hentry, fun h => absurd hstands h, fun _ h => absurd ⟨hmagic, hnull⟩ h⟩
    | ok found =>
      have hplain : ¬Breaks base entry := fun h => by
        rw [(Glob.expand_eq_error_iff hdisk).mpr ⟨h.2, rfl⟩] at hexpand
        cases hexpand
      rw [hexpand] at hentry
      refine ⟨fun h => absurd h hplain, fun h => absurd hstands h, fun _ _ => ?_⟩
      refine ⟨_, hentry, fun q hq => ?_⟩
      exact (Bool.and_eq_true_iff.mp (List.mem_filter.mp hq).2).1
  · have hplain : ¬Breaks base entry := fun h => hmagic h.1
    refine ⟨fun h => absurd h hplain, fun h => ?_, fun h _ => ?_⟩
    · have hdir : ¬disk.isDirectory (resolve base entry) := fun hdir => h (.inr (.inl hdir))
      have hfile : ¬disk.isFile (resolve base entry) := fun hfile => h (.inr (.inr hfile))
      exact ⟨.sourceMissing (String.ofList (resolve base entry)), by
        simp only [expandEntry, hmagic, hdir, hfile, Bool.false_eq_true, if_false]⟩
    · by_cases hdir : disk.isDirectory (resolve base entry)
      · have hsound : isSound (resolve base entry) := (Bool.and_eq_true_iff.mp hdir).1
        obtain ⟨headers, hheaders, hh⟩ :=
          withEnding_of_isSound hdisk ".h".toList hsound (by decide)
        obtain ⟨sources, hsources, hc⟩ :=
          withEnding_of_isSound hdisk ".c".toList hsound (by decide)
        refine ⟨headers ++ sources, ?_, fun q hq => ?_⟩
        · simp only [expandEntry, hmagic, hdir, if_true, hheaders, hsources]
          rfl
        · exact (List.mem_append.mp hq).elim (hh q) (hc q)
      · have hfile : disk.isFile (resolve base entry) := (h.resolve_left hmagic).resolve_left hdir
        refine ⟨[resolve base entry], ?_, fun q hq => ?_⟩
        · simp only [expandEntry, hmagic, hdir, hfile, Bool.false_eq_true, if_true, if_false]
        · obtain rfl := List.mem_singleton.mp hq
          exact (Bool.and_eq_true_iff.mp hfile).1

/-- On a named tree an entry can be expanded exactly if it stands for files and is no pattern
that spells out a null character. -/
theorem expandEntry_eq_ok_iff {disk : Disk} (hdisk : disk.root.Named) {base entry : Path} :
    (∃ found, expandEntry disk base entry = .ok found) ↔
      Stands disk base entry ∧ ¬Breaks base entry := by
  obtain ⟨hbreaks, hmissing, hfinds⟩ := expandEntry_spec hdisk base entry
  constructor
  · rintro ⟨found, hfound⟩
    refine ⟨by_contra fun h => ?_, fun h => ?_⟩
    · obtain ⟨error, herror⟩ := hmissing h
      rw [herror] at hfound
      cases hfound
    · rw [hbreaks h] at hfound
      cases hfound
  · rintro ⟨hstands, hplain⟩
    obtain ⟨found, hfound, -⟩ := hfinds hstands hplain
    exact ⟨found, hfound⟩

/-- On a named tree expanding an entry breaks down exactly if it is a pattern that spells
out a null character. -/
theorem expandEntry_eq_fault_iff {disk : Disk} (hdisk : disk.root.Named) {base entry : Path}
    {fault : Fault} :
    expandEntry disk base entry = .error (.fault fault) ↔
      Breaks base entry ∧ fault = .nullCharacter := by
  obtain ⟨hbreaks, hmissing, hfinds⟩ := expandEntry_spec hdisk base entry
  constructor
  · intro h
    by_cases hstands : Stands disk base entry
    · by_cases hplain : Breaks base entry
      · rw [hbreaks hplain] at h
        cases h
        exact ⟨hplain, rfl⟩
      · obtain ⟨found, hfound, -⟩ := hfinds hstands hplain
        rw [hfound] at h
        cases h
    · obtain ⟨error, herror⟩ := hmissing hstands
      rw [herror] at h
      cases h
  · rintro ⟨h, rfl⟩
    exact hbreaks h

/-- An entry is reported exactly if it names nothing. -/
theorem expandEntry_eq_tool_iff {disk : Disk} {base entry : Path} {error : ToolError} :
    expandEntry disk base entry = .error (.tool error) ↔ ¬Stands disk base entry ∧
      error = .sourceMissing (String.ofList (resolve base entry)) := by
  have hnone {found : Except Fault (List Path)} :
      found.mapError Failure.fault ≠ .error (.tool error) := by
    cases found <;> simp [Except.mapError]
  by_cases hmagic : hasMagic entry
  · simp only [expandEntry, Stands, hmagic, if_true, true_or, not_true, false_and, iff_false]
    exact hnone
  by_cases hdir : disk.isDirectory (resolve base entry)
  · simp only [expandEntry, Stands, hmagic, hdir, Bool.false_eq_true, if_true, if_false, true_or,
      or_true, not_true, false_and, iff_false]
    exact hnone
  by_cases hfile : disk.isFile (resolve base entry)
  · simp [expandEntry, Stands, hmagic, hdir, hfile]
  · simp [expandEntry, Stands, hmagic, hdir, hfile, eq_comm]

/-- Entries fail to be collected exactly at the first of them that fails to be expanded. -/
theorem collect_eq_error_iff {disk : Disk} (hdisk : disk.root.Named) {entries : List Path}
    {base : Path} {failure : Failure} :
    collect disk entries base = .error failure ↔
      ∃ before entry after, entries = before ++ entry :: after ∧
        (∀ e ∈ before, Stands disk base e ∧ ¬Breaks base e) ∧
        (¬Stands disk base entry ∧
            failure = .tool (.sourceMissing (String.ofList (resolve base entry))) ∨
          Breaks base entry ∧ failure = .fault .nullCharacter) := by
  have hcollect : collect disk entries base = .error failure ↔
      entries.mapM (expandEntry disk base) = .error failure := by
    cases h : entries.mapM (expandEntry disk base) <;> simp [collect, h, Except.map]
  have hentry (entry : Path) : expandEntry disk base entry = .error failure ↔
      ¬Stands disk base entry ∧
          failure = .tool (.sourceMissing (String.ofList (resolve base entry))) ∨
        Breaks base entry ∧ failure = .fault .nullCharacter := by
    cases failure with
    | tool error => simp [expandEntry_eq_tool_iff]
    | fault fault => simp [expandEntry_eq_fault_iff hdisk]
  simp only [hcollect, mapM_eq_error_iff, expandEntry_eq_ok_iff hdisk, hentry]

/-- On a named tree collecting sources breaks down exactly if some entry is a pattern that
spells out a null character and every entry before it stands for files. -/
theorem collect_eq_fault_iff {disk : Disk} (hdisk : disk.root.Named) {entries : List Path}
    {base : Path} {fault : Fault} :
    collect disk entries base = .error (.fault fault) ↔
      fault = .nullCharacter ∧ ∃ before entry after, entries = before ++ entry :: after ∧
        (∀ e ∈ before, Stands disk base e ∧ ¬Breaks base e) ∧ Breaks base entry := by
  rw [collect_eq_error_iff hdisk]
  constructor
  · rintro ⟨before, entry, after, hsplit, hbefore, ⟨-, hfailure⟩ | ⟨hentry, hfailure⟩⟩
    · cases hfailure
    · exact ⟨Failure.fault.inj hfailure, before, entry, after, hsplit, hbefore, hentry⟩
  · rintro ⟨rfl, before, entry, after, hsplit, hbefore, hentry⟩
    exact ⟨before, entry, after, hsplit, hbefore, .inr ⟨hentry, rfl⟩⟩

/-- Dropping repeats only leaves paths out. -/
theorem dropRepeats_sublist (disk : Disk) (seen : List (Bool × List Text)) (paths : List Path) :
    (dropRepeats disk seen paths).Sublist paths := by
  induction paths generalizing seen with
  | nil => exact List.Sublist.refl _
  | cons p rest ih =>
    rw [dropRepeats]
    split_ifs
    · exact (ih seen).cons p
    · exact (ih _).cons_cons p

/-- Every source that is collected from a named tree can be given to the system. -/
theorem isSound_of_mem_collect {disk : Disk} (hdisk : disk.root.Named) {entries : List Path}
    {base : Path} {paths : List Path} (hpaths : collect disk entries base = .ok paths) :
    ∀ q ∈ paths, isSound q := by
  intro q hq
  cases hfound : entries.mapM (expandEntry disk base) with
  | error failure => simp [collect, hfound, Except.map] at hpaths
  | ok found =>
    obtain rfl : dropRepeats disk [] found.flatten = paths := by
      simpa [collect, hfound, Except.map] using hpaths
    obtain ⟨files, hfiles, hq⟩ := List.mem_flatten.mp ((dropRepeats_sublist _ _ _).subset hq)
    obtain ⟨entry, -, hentry⟩ := exists_of_mem_mapM_eq_ok hfound hfiles
    obtain ⟨hstands, hplain⟩ := (expandEntry_eq_ok_iff hdisk).mp ⟨files, hentry⟩
    obtain ⟨sound, hsound, hall⟩ := (expandEntry_spec hdisk base entry).2.2 hstands hplain
    obtain rfl : sound = files := by simpa [hsound] using hentry
    exact hall q hq

end PrototypeGate.Sources

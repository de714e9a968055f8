import PrototypeGate.Proofs.Collection
import PrototypeGate.Proofs.Contributions

/-!
# The order of the collection

Entries may overlap, and one file may be spelled in several ways. This file states what is
collected without regard to how: what the entries stand for, one entry after the other, and of
several paths to one place the first. The first entry that names nothing is reported instead.
-/

namespace PrototypeGate

namespace Path

/-! ### The order of paths -/

/-- Paths are compared at the first character at which they differ. -/
theorem le_cons_iff {c d : Char} {p q : Path} :
    le (c :: p) (d :: q) ↔ c.toNat < d.toNat ∨ c = d ∧ le p q := by
  by_cases h : c = d
  · simp [le, h]
  · simp [le, h]

/-- Of two paths one comes no later than the other. -/
theorem le_total (p q : Path) : le p q ∨ le q p := by
  induction p generalizing q with
  | nil => exact .inl rfl
  | cons c p ih =>
    cases q with
    | nil => exact .inr rfl
    | cons d q =>
      rw [le_cons_iff, le_cons_iff]
      rcases Nat.lt_trichotomy c.toNat d.toNat with hlt | heq | hgt
      · exact .inl (.inl hlt)
      · have heq : c = d := Char.toNat_inj.mp heq
        exact (ih q).imp (fun h => .inr ⟨heq, h⟩) fun h => .inr ⟨heq.symm, h⟩
      · exact .inr (.inl hgt)

/-- A path that comes no later than a second one comes no later than those behind it. -/
theorem le_trans {p q r : Path} (hpq : le p q) (hqr : le q r) : le p r := by
  induction p generalizing q r with
  | nil => rfl
  | cons c p ih =>
    rcases q with _ | ⟨d, q⟩
    · cases hpq
    rcases r with _ | ⟨e, r⟩
    · cases hqr
    rw [le_cons_iff] at hpq hqr ⊢
    rcases hpq with hcd | ⟨rfl, hpq⟩
    · left
      rcases hqr with hde | ⟨rfl, -⟩
      · exact Nat.lt_trans hcd hde
      · exact hcd
    · exact hqr.imp id fun ⟨hce, hqr⟩ => ⟨hce, ih hpq hqr⟩

/-- Two paths of which neither comes later are the same. -/
theorem le_antisymm {p q : Path} (hpq : le p q) (hqp : le q p) : p = q := by
  induction p generalizing q with
  | nil =>
    cases q with
    | nil => rfl
    | cons d q => cases hqp
  | cons c p ih =>
    rcases q with _ | ⟨d, q⟩
    · cases hpq
    rw [le_cons_iff] at hpq hqp
    rcases hpq with hcd | ⟨rfl, hpq⟩
    · rcases hqp with hdc | ⟨rfl, -⟩ <;> omega
    · rw [ih hpq (hqp.resolve_left (Nat.lt_irrefl _)).2]

end Path

namespace Sources

/-- The files are the paths that were found, in the order of their characters. -/
structure InOrder (found files : List Path) : Prop where
  /-- Nothing is added or left out. -/
  perm : files.Perm found
  /-- Every path comes no later than those behind it. -/
  sorted : files.Pairwise fun p q => Path.le p q

/-- Sorting brings paths into order. -/
theorem inOrder_sort (found : List Path) : InOrder found (sort found) := by
  refine ⟨List.mergeSort_perm found Path.le, List.pairwise_mergeSort ?_ ?_ found⟩
  · exact fun p q r => Path.le_trans
  · exact fun p q => Bool.or_eq_true_iff.mpr (Path.le_total p q)

/-- Paths can be brought into order in one way. -/
theorem InOrder.unique {found files files' : List Path} (h : InOrder found files)
    (h' : InOrder found files') : files = files' :=
  List.Perm.eq_of_pairwise (fun _ _ _ _ => Path.le_antisymm) h.sorted h'.sorted
    (h.perm.trans h'.perm.symm)

/-- Some of the paths stay in order without the others. -/
theorem InOrder.filter {found files : List Path} (h : InOrder found files) (keep : Path → Bool) :
    InOrder (found.filter keep) (files.filter keep) :=
  ⟨h.perm.filter keep, h.sorted.filter keep⟩

/-! ### What an entry stands for -/

/-- The paths that an entry stands for, in their order. -/
inductive StandsFor (disk : Disk) (base entry : Path) : List Path → Prop
  /-- A pattern stands for the files that it finds. -/
  | pattern {found files : List Path} (special : hasMagic entry)
      (finds : Glob.expand disk (resolve base entry) = .ok found)
      (order : InOrder (found.filter disk.isFile) files) : StandsFor disk base entry files
  /-- A directory stands for the headers and then the other sources below it. -/
  | directory {found found' headers sources : List Path} (plain : ¬hasMagic entry)
      (names : disk.isDirectory (resolve base entry))
      (finds : Glob.expand disk (endingPattern (resolve base entry) ".h".toList) = .ok found)
      (finds' : Glob.expand disk (endingPattern (resolve base entry) ".c".toList) = .ok found')
      (order : InOrder found headers) (order' : InOrder found' sources) :
      StandsFor disk base entry (headers ++ sources)
  /-- A file stands for itself. -/
  | file (plain : ¬hasMagic entry) (names : disk.isFile (resolve base entry)) :
      StandsFor disk base entry [resolve base entry]

variable {disk : Disk} {base entry : Path}

/-- An entry can be expanded exactly to the paths that it stands for. -/
theorem expandEntry_eq_ok_iff_standsFor {files : List Path} :
    expandEntry disk base entry = .ok files ↔ StandsFor disk base entry files := by
  constructor
  · intro h
    by_cases hmagic : hasMagic entry
    · simp only [expandEntry, hmagic, if_true] at h
      obtain ⟨found, hfound, rfl⟩ := exists_of_map_eq_ok (eq_ok_of_mapError_eq_ok h)
      exact .pattern hmagic hfound ((inOrder_sort found).filter disk.isFile)
    · by_cases hdir : disk.isDirectory (resolve base entry)
      · simp only [expandEntry, hmagic, hdir, Bool.false_eq_true, if_true, if_false] at h
        obtain ⟨headers, hheaders, hrest⟩ := exists_of_bind_eq_ok (eq_ok_of_mapError_eq_ok h)
        obtain ⟨sources, hsources, hboth⟩ := exists_of_bind_eq_ok hrest
        obtain rfl : headers ++ sources = files := Except.ok.inj hboth
        obtain ⟨found, hfound, rfl⟩ := exists_of_map_eq_ok hheaders
        obtain ⟨found', hfound', rfl⟩ := exists_of_map_eq_ok hsources
        exact .directory hmagic hdir hfound hfound' (inOrder_sort found) (inOrder_sort found')
      · by_cases hfile : disk.isFile (resolve base entry)
        · simp only [expandEntry, hmagic, hdir, hfile, Bool.false_eq_true, if_true, if_false] at h
          exact Except.ok.inj h ▸ .file hmagic hfile
        · simp [expandEntry, hmagic, hdir, hfile] at h
  · rintro (⟨hmagic, hfound, horder⟩ | ⟨hmagic, hdir, hfound, hfound', horder, horder'⟩ |
      ⟨hmagic, hfile⟩)
    · have hfiles := horder.unique ((inOrder_sort _).filter disk.isFile)
      simp only [expandEntry, hmagic, if_true, hfound, hfiles]
      rfl
    · rw [horder.unique (inOrder_sort _), horder'.unique (inOrder_sort _)]
      rw [endingPattern] at hfound hfound'
      simp only [expandEntry, hmagic, hdir, Bool.false_eq_true, if_true, if_false, withEnding,
        hfound, hfound']
      rfl
    · have hdir := Disk.not_isDirectory_of_isFile hfile
      simp only [expandEntry, hmagic, hdir, hfile, Bool.false_eq_true, if_true, if_false]

/-! ### First occurrences -/

/-- Of several paths to one place the first, in the order of these. -/
def firstOfEach (disk : Disk) (all : List Path) : List Path :=
  (all.map disk.place).eraseDups.filterMap fun place => all.find? fun p => disk.place p = place

/-- Dropping repeats leaves the first path to every place that has not been seen before. -/
theorem dropRepeats_eq (seen : List (Bool × List Text)) (all : List Path) :
    dropRepeats disk seen all =
      ((all.map disk.place).filter (· ∉ seen)).eraseDups.filterMap fun place =>
        all.find? fun p => disk.place p = place := by
  induction all generalizing seen with
  | nil => rfl
  | cons p rest ih =>
    -- The first path is no longer looked up once its place counts as seen.
    have hskip (places : List (Bool × List Text)) (h : disk.place p ∉ places) :
        places.filterMap (fun place => (p :: rest).find? fun q => disk.place q = place) =
          places.filterMap fun place => rest.find? fun q => disk.place q = place := by
      refine List.filterMap_congr fun place hplace => ?_
      have hne : disk.place p ≠ place := fun heq => h (heq ▸ hplace)
      simp [hne]
    by_cases hseen : disk.place p ∈ seen
    · rw [dropRepeats, if_pos hseen, ih seen, List.map_cons, List.filter_cons_of_neg (by simpa),
        hskip]
      simp [List.mem_eraseDups, hseen]
    · rw [dropRepeats, if_neg hseen, ih, List.map_cons, List.filter_cons_of_pos (by simpa),
        List.eraseDups_cons, List.filter_filter, List.filterMap_cons_some (b := p) (by simp), hskip]
      · refine congrArg _ (congrArg _ (congrArg _ (List.filter_congr fun place _ => ?_)))
        rw [Bool.eq_iff_iff]
        simp
      · simp [List.mem_eraseDups]

/-- Without anything seen before, the first path to every place is left. -/
theorem dropRepeats_nil (all : List Path) : dropRepeats disk [] all = firstOfEach disk all := by
  simp [dropRepeats_eq, firstOfEach]

/-- Paths to places that occur already add nothing. -/
theorem firstOfEach_append {all more : List Path}
    (hmore : ∀ p ∈ more, disk.place p ∈ all.map disk.place) :
    firstOfEach disk (all ++ more) = firstOfEach disk all := by
  have hnone : (more.map disk.place).removeAll (all.map disk.place) = [] := by
    simpa [List.removeAll, List.filter_eq_nil_iff] using hmore
  rw [firstOfEach, firstOfEach, List.map_append, List.eraseDups_append, hnone, List.eraseDups_nil,
    List.append_nil]
  refine List.filterMap_congr fun place hplace => ?_
  obtain ⟨p, hp, rfl⟩ := List.mem_map.mp (List.mem_eraseDups.mp hplace)
  obtain ⟨q, hq⟩ := Option.isSome_iff_exists.mp
    (List.find?_isSome.mpr ⟨p, hp, decide_eq_true rfl⟩ :
      (all.find? fun q => disk.place q = disk.place p).isSome)
  rw [List.find?_append, hq, Option.some_or]

/-- Nothing is left that leads to a place seen before. -/
theorem place_not_mem_of_mem_dropRepeats (seen : List (Bool × List Text)) (all : List Path) :
    ∀ q ∈ dropRepeats disk seen all, disk.place q ∉ seen := by
  induction all generalizing seen with
  | nil => exact fun q hq => absurd hq List.not_mem_nil
  | cons p rest ih =>
    intro q hq
    rw [dropRepeats] at hq
    split_ifs at hq with hseen
    · exact ih seen q hq
    · rcases List.mem_cons.mp hq with rfl | hq
      · exact hseen
      · exact List.not_mem_of_not_mem_cons (ih _ q hq)

/-- What is left leads to different places. -/
theorem nodup_place_dropRepeats (seen : List (Bool × List Text)) (all : List Path) :
    ((dropRepeats disk seen all).map disk.place).Nodup := by
  induction all generalizing seen with
  | nil => exact List.nodup_nil
  | cons p rest ih =>
    rw [dropRepeats]
    split_ifs with hseen
    · exact ih seen
    · refine List.nodup_cons.mpr ⟨fun hmem => ?_, ih _⟩
      obtain ⟨q, hq, hplace⟩ := List.mem_map.mp hmem
      exact place_not_mem_of_mem_dropRepeats _ rest q hq (hplace ▸ List.mem_cons_self)

/-! ### All entries -/

/-- Entries are collected exactly as the first occurrences among all that they stand for. -/
theorem collect_eq_ok_iff {entries : List Path} {paths : List Path} :
    collect disk entries base = .ok paths ↔
      ∃ each, List.Forall₂ (StandsFor disk base) entries each ∧
        paths = firstOfEach disk each.flatten := by
  have hentry : (fun entry files => expandEntry disk base entry = .ok files) =
      StandsFor disk base := by
    funext entry files
    exact propext expandEntry_eq_ok_iff_standsFor
  rw [← hentry]
  simp only [← mapM_eq_ok_iff_forall₂, ← dropRepeats_nil]
  constructor
  · intro h
    obtain ⟨each, heach, rfl⟩ := exists_of_map_eq_ok h
    exact ⟨each, heach, rfl⟩
  · rintro ⟨each, heach, rfl⟩
    rw [collect, heach]
    rfl

/-- Repeating an entry changes nothing. -/
theorem collect_concat {entries : List Path} (hentry : entry ∈ entries) :
    collect disk (entries ++ [entry]) base = collect disk entries base := by
  simp only [collect, List.mapM_append]
  cases heach : entries.mapM (expandEntry disk base) with
  | error failure => rfl
  | ok each =>
    obtain ⟨files, hfiles, hexpand⟩ := exists_mem_of_mapM_eq_ok heach hentry
    have hnone : firstOfEach disk (each ++ [files]).flatten = firstOfEach disk each.flatten := by
      rw [List.flatten_concat]
      exact firstOfEach_append fun p hp => List.mem_map_of_mem (List.mem_flatten_of_mem hfiles hp)
    have hlast : [entry].mapM (expandEntry disk base) = .ok [files] := by
      simp [hexpand, Pure.pure, Except.pure, Bind.bind, Except.bind]
    rw [hlast]
    simp only [dropRepeats_nil]
    exact congrArg Except.ok hnone

/-- Repeating entries changes nothing. -/
theorem collect_append {entries again : List Path} (hagain : again ⊆ entries) :
    collect disk (entries ++ again) base = collect disk entries base := by
  -- One entry is repeated after the other, each behind all that stood there before.
  induction again generalizing entries with
  | nil => rw [List.append_nil]
  | cons entry again ih =>
    obtain ⟨hentry, hrest⟩ := List.cons_subset.mp hagain
    calc collect disk (entries ++ entry :: again) base
        = collect disk ((entries ++ [entry]) ++ again) base := by rw [List.append_cons]
      _ = collect disk (entries ++ [entry]) base :=
        ih fun e he => List.mem_append_left [entry] (hrest he)
      _ = collect disk entries base := collect_concat hentry

/-- A directory alone contributes headers and then other sources. -/
theorem collect_singleton_directory (hdisk : disk.root.Named) (hplain : ¬hasMagic entry)
    (hdir : disk.isDirectory (resolve base entry)) :
    ∃ headers sources, collect disk [entry] base = .ok (headers ++ sources) ∧
      (∀ q ∈ headers, ".h".toList <:+ q) ∧ ∀ q ∈ sources, ".c".toList <:+ q := by
  have hne : resolve base entry ≠ [] := Disk.ne_nil_of_exists? (Disk.exists?_of_isDirectory hdir)
  obtain ⟨files, hfiles⟩ := (expandEntry_eq_ok_iff hdisk).mpr
    ⟨.inr (.inl hdir), fun hbreaks => hplain hbreaks.1⟩
  have hcollect : collect disk [entry] base = .ok (dropRepeats disk [] files) := by
    simp [collect, hfiles, Pure.pure, Except.pure, Bind.bind, Except.bind, Except.map]
  obtain ⟨hmagic, -, -⟩ | ⟨-, -, hfound, hfound', horder, horder'⟩ | ⟨-, hfile⟩ :=
    expandEntry_eq_ok_iff_standsFor.mp hfiles
  · exact absurd hmagic hplain
  · obtain ⟨headers, sources, hsplit, hheaders, hsources⟩ :=
      List.sublist_append_iff.mp (dropRepeats_sublist disk [] _)
    refine ⟨headers, sources, hsplit ▸ hcollect, fun q hq => ?_, fun q hq => ?_⟩
    · exact suffix_of_mem_expand hne (by decide) (by decide) hfound
        (horder.perm.subset (hheaders.subset hq))
    · exact suffix_of_mem_expand hne (by decide) (by decide) hfound'
        (horder'.perm.subset (hsources.subset hq))
  · exact absurd hdir (Disk.not_isDirectory_of_isFile hfile)

/-- The collection keeps the order of the entries and drops repeats. It fails exactly if an entry
fails, and then the first one is decisive: one that is no pattern and names neither a directory nor
a file is reported, and a pattern that spells out a null character breaks the run, which takes such
a character in the entry or in the base directory. Otherwise the first occurrences are collected
among all that the entries stand for. So no two paths lead to one place, entries that are repeated
change nothing, and of a single directory the headers come first. -/
theorem collect_first_occurrences (hdisk : disk.root.Named) (base : Path) (entries : List Path) :
    (∀ failure, collect disk entries base = .error failure ↔
      ∃ before entry after, entries = before ++ entry :: after ∧
        (∀ e ∈ before, Stands disk base e ∧ ¬Breaks base e) ∧
        (¬Stands disk base entry ∧
            failure = .tool (.sourceMissing (String.ofList (resolve base entry))) ∨
          Breaks base entry ∧ failure = .fault .nullCharacter)) ∧
      (∀ entry, Breaks base entry → Tree.isSound entry → ¬Tree.isSound base) ∧
      (∀ paths, collect disk entries base = .ok paths ↔
        ∃ each, List.Forall₂ (StandsFor disk base) entries each ∧
          paths = firstOfEach disk each.flatten) ∧
      (∀ paths, collect disk entries base = .ok paths → (paths.map disk.place).Nodup) ∧
      (∀ again, again ⊆ entries →
        collect disk (entries ++ again) base = collect disk entries base) ∧
      ∀ entry, ¬hasMagic entry → disk.isDirectory (resolve base entry) →
        ∃ headers sources, collect disk [entry] base = .ok (headers ++ sources) ∧
          (∀ q ∈ headers, ".h".toList <:+ q) ∧ ∀ q ∈ sources, ".c".toList <:+ q := by
  refine ⟨fun failure => collect_eq_error_iff hdisk, fun entry hbreaks hentry hbase => ?_,
    fun paths => collect_eq_ok_iff, fun paths hpaths => ?_, fun again hagain => ?_,
    fun entry hplain hdir => collect_singleton_directory hdisk hplain hdir⟩
  · exact not_breaks_of_isSound hbase hentry hbreaks
  · obtain ⟨each, -, rfl⟩ := collect_eq_ok_iff.mp hpaths
    rw [← dropRepeats_nil]
    exact nodup_place_dropRepeats [] _
  · exact collect_append hagain

/-- A file, the same by its way from the root, a directory, the file by a way up and down again,
and a pattern for what is in the directory: each file is collected where it first occurs, and the
directory's header before its source. So it is with entries that are relative to the directory: a
file, the same by its way from the root, and the directory itself. -/
theorem collect_first_occurrences_of_overlapping_entries :
    let disk : Disk := ⟨.directory [("w".toList, .directory [("a.c".toList, .file []),
      ("x".toList, .directory [("a.c".toList, .file []), ("b.h".toList, .file [])])])],
      ["w".toList]⟩
    let entries := ["./a.c".toList, "/w/a.c".toList, "x".toList, "../w/x/../a.c".toList,
      "x/*".toList]
    let paths := ["./a.c".toList, "x/b.h".toList, "x/a.c".toList]
    let entriesBelow := ["b.h".toList, "/w/x/b.h".toList, "../x".toList]
    let pathsBelow := ["x/b.h".toList, "x/../x/a.c".toList]
    disk.root.Named ∧
      (collect disk entries Path.here = .ok paths ∧
        (∃ each, List.Forall₂ (StandsFor disk Path.here) entries each ∧
          paths = firstOfEach disk each.flatten) ∧
        (paths.map disk.place).Nodup ∧
        collect disk (entries ++ ["x".toList, "/w/a.c".toList]) Path.here = .ok paths) ∧
      (collect disk entriesBelow "x".toList = .ok pathsBelow ∧
        (∃ each, List.Forall₂ (StandsFor disk "x".toList) entriesBelow each ∧
          pathsBelow = firstOfEach disk each.flatten) ∧
        (pathsBelow.map disk.place).Nodup) ∧
      collect disk ["x".toList, "/w/y".toList, "z".toList] Path.here =
        .error (.tool (.sourceMissing "/w/y")) := by
  intro disk entries paths entriesBelow pathsBelow
  have hdisk : disk.root.Named :=
    ⟨rfl, ⟨rfl, trivial, rfl, ⟨rfl, trivial, rfl, trivial, trivial⟩, trivial⟩, trivial⟩
  have hpaths : collect disk entries Path.here = .ok paths := by cbv
  have hbelow : collect disk entriesBelow "x".toList = .ok pathsBelow := by cbv
  obtain ⟨-, -, hfinds, hnodup, hagain, -⟩ := collect_first_occurrences hdisk Path.here entries
  obtain ⟨-, -, hfinds', hnodup', -, -⟩ :=
    collect_first_occurrences hdisk "x".toList entriesBelow
  have hfails := (collect_first_occurrences hdisk Path.here
    ["x".toList, "/w/y".toList, "z".toList]).1
  refine ⟨hdisk, ⟨hpaths, (hfinds paths).mp hpaths, hnodup paths hpaths, ?_⟩,
    ⟨hbelow, (hfinds' pathsBelow).mp hbelow, hnodup' pathsBelow hbelow⟩, ?_⟩
  · rw [hagain _ (by decide), hpaths]
  · refine (hfails _).mpr ⟨["x".toList], "/w/y".toList, ["z".toList], rfl, ?_, .inl ⟨?_, rfl⟩⟩
    · rintro e he
      obtain rfl := List.mem_singleton.mp he
      exact ⟨.inr (.inl (by decide +kernel)), fun hbreaks => absurd hbreaks.1 (by decide)⟩
    · rintro (hmagic | hdir | hfile)
      · exact absurd hmagic (by decide)
      · exact absurd hdir (by decide +kernel)
      · exact absurd hfile (by decide +kernel)

end Sources

end PrototypeGate

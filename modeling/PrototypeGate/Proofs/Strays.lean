import PrototypeGate.Proofs.Occurrences

/-!
# Directories among the sources

What a pattern finds is collected only if it is a file, but a directory contributes whatever is
found below it. So a directory is collected as well, if its name ends as that of a header or a
source, and reading the sources fails at it. This file shows that nothing else is collected that
is not a file, and from which trees such a directory is collected.
-/

namespace PrototypeGate

namespace Tree

/-! ### Names -/

/-- A name that something in a directory can have. -/
structure IsName (name : Text) : Prop where
  /-- The name can be given to the system. -/
  isSound : Tree.isSound name
  /-- There is a name. -/
  ne_nil : name ≠ []
  /-- The name is one. -/
  slash_not_mem : '/' ∉ name
  /-- The name is not that of the directory itself. -/
  ne_here : name ≠ Path.here
  /-- The name is not that of the directory above. -/
  ne_above : name ≠ Path.above

instance (name : Text) : Decidable (IsName name) :=
  decidable_of_iff (Tree.isSound name ∧ name ≠ [] ∧ '/' ∉ name ∧ name ≠ Path.here ∧
      name ≠ Path.above)
    ⟨fun ⟨hsound, hempty, hslash, hhere, habove⟩ => ⟨hsound, hempty, hslash, hhere, habove⟩,
      fun ⟨hsound, hempty, hslash, hhere, habove⟩ => ⟨hsound, hempty, hslash, hhere, habove⟩⟩

/-- What stands in a tree: the tree itself, and what its directories list. -/
inductive Within (root : Tree) : Tree → Prop
  /-- A tree stands in itself. -/
  | root : Within root root
  /-- What a directory in the tree lists stands in the tree. -/
  | listed {entries : List (Text × Tree)} {name : Text} {t : Tree}
      (dir : Within root (.directory entries)) (mem : (name, t) ∈ entries) : Within root t

/-- Whatever is listed in the tree has a name that it can have. -/
def WellNamed (root : Tree) : Prop :=
  ∀ entries, root.Within (.directory entries) → ∀ entry ∈ entries, IsName entry.1

/-- A file lists nothing. -/
theorem wellNamed_file (content : List UInt8) : (file content).WellNamed := by
  suffices honly : ∀ t, (file content).Within t → t = file content by
    intro entries hwithin
    cases honly _ hwithin
  intro t hwithin
  induction hwithin with
  | root => rfl
  | listed dir mem ih => cases ih

/-- What stands in something that stands in a tree stands in the tree. -/
theorem Within.trans {root t u : Tree} (ht : root.Within t) (hu : t.Within u) : root.Within u := by
  induction hu with
  | root => exact ht
  | listed dir mem ih => exact .listed ih mem

/-- What stands in a well named tree is well named. -/
theorem WellNamed.of_within {root t : Tree} (hroot : root.WellNamed) (ht : root.Within t) :
    t.WellNamed := fun entries hentries => hroot entries (ht.trans hentries)

/-- A directory is well named exactly if it lists good names and everything in it is well named. -/
theorem wellNamed_directory_iff {entries : List (Text × Tree)} :
    (directory entries).WellNamed ↔ ∀ entry ∈ entries, IsName entry.1 ∧ entry.2.WellNamed := by
  constructor
  · intro h entry hentry
    exact ⟨h entries .root entry hentry, h.of_within (.listed .root hentry)⟩
  · intro h
    -- What stands in the directory is the directory itself or stands in one of its entries.
    have hwithin (t : Tree) (ht : (directory entries).Within t) :
        t = directory entries ∨ ∃ entry ∈ entries, entry.2.Within t := by
      induction ht with
      | root => exact .inl rfl
      | listed dir mem ih =>
        rcases ih with hown | ⟨entry, hentry, hbelow⟩
        · cases hown
          exact .inr ⟨_, mem, .root⟩
        · exact .inr ⟨entry, hentry, .listed hbelow mem⟩
    intro own hown entry hentry
    rcases hwithin _ hown with heq | ⟨outer, houter, hbelow⟩
    · cases heq
      exact (h entry hentry).1
    · exact (h outer houter).2 own hbelow entry hentry

variable {root : Tree}

/-- What is reached by descending stands in the tree. -/
theorem Within.descend {t found : Tree} (ht : root.Within t) {names : List Text}
    (hfound : t.descend? names = some found) : root.Within found := by
  induction names generalizing t with
  | nil =>
    obtain rfl : t = found := Option.some.inj hfound
    exact ht
  | cons name rest ih =>
    obtain ⟨child, hchild, hrest⟩ := Option.bind_eq_some_iff.mp hfound
    cases t with
    | file content => cases hchild
    | directory entries =>
      have hmem : (name, child) ∈ entries := by
        obtain ⟨before, after, rfl, -⟩ := List.lookup_eq_some_iff.mp hchild
        simp
      exact ih (ht.listed hmem) hrest

/-- A name does not begin at the root. -/
theorem IsName.not_isAbsolute {name : Text} (hname : IsName name) : ¬Path.isAbsolute name :=
  Path.not_isAbsolute_of_not_mem hname.slash_not_mem

/-- A path continued by a name does not end in a slash. -/
theorem IsName.not_hasTrailingSlash_join {name : Text} (hname : IsName name) (d : Path) :
    ¬Path.hasTrailingSlash (Path.join d name) := by
  intro hslash
  have hlast : name.getLast? = some '/' := by
    by_cases hd : d = []
    · rw [hd, Path.join_nil_left hname.not_isAbsolute] at hslash
      exact beq_iff_eq.mp hslash
    · rw [Path.hasTrailingSlash_join hd hname.not_isAbsolute, Path.hasTrailingSlash,
        List.getLast?_cons_of_ne_nil hname.ne_nil] at hslash
      exact beq_iff_eq.mp hslash
  exact hname.slash_not_mem (List.mem_of_getLast? hlast)

/-- The last part of a path continued by a name is the name. -/
theorem IsName.getLast?_parts_join {name : Text} (hname : IsName name) (d : Path) :
    (Path.parts (Path.join d name)).getLast? = some name := by
  rw [Path.getLast?_parts_join d hname.not_isAbsolute, Path.parts_name hname.slash_not_mem]
  rfl

/-- A name that is no step up can be followed from a directory that has something under it. -/
theorem follow_singleton {name : Text} (hname : name ≠ Path.above) {trail : List Text}
    {entries : List (Text × Tree)} {found : Tree}
    (hdir : root.descend? trail.reverse = some (.directory entries))
    (hfound : entries.lookup name = some found) :
    root.follow trail [name] = .ok (name :: trail, found) := by
  unfold follow
  simp only [hdir, if_neg hname, hfound, Option.isSome_some, if_true]
  exact follow_nil_eq_ok_iff.mpr ⟨rfl, by rw [List.reverse_cons, descend?_concat hdir, hfound]⟩

end Tree

namespace Disk

open PrototypeGate.Tree (isSound)

variable {disk : Disk}

/-! ### What a directory lists -/

/-- A path at which something is listed leads to the directory that lists it. -/
theorem exists_follow_of_mem_listing {d : Path} {entry : Text × Tree}
    (h : entry ∈ disk.listing d) :
    ∃ trail, disk.root.follow (d.start disk.work) (Path.components d) =
      .ok (trail, .directory (disk.listing d)) := by
  have hsame : Path.start disk.work (if d = [] then Path.here else d) = d.start disk.work ∧
      Path.components (if d = [] then Path.here else d) = Path.components d := by
    by_cases hd : d = []
    · rw [hd]
      exact ⟨rfl, rfl⟩
    · rw [if_neg hd]
      exact ⟨rfl, rfl⟩
  unfold listing at h ⊢
  split at h
  · next entries hlocate =>
    obtain ⟨-, hfollow⟩ := locate_eq_directory_iff.mp hlocate
    rwa [hsame.1, hsame.2] at hfollow
  · cases h

/-- What is listed in a well named tree has a good name and is well named. -/
theorem wellNamed_of_mem_listing (hdisk : disk.root.WellNamed) {d : Path} :
    ∀ entry ∈ disk.listing d, Tree.IsName entry.1 ∧ entry.2.WellNamed := by
  intro entry hentry
  obtain ⟨trail, hfollow⟩ := exists_follow_of_mem_listing hentry
  have hwithin := Tree.Within.root.descend (Tree.descend?_of_follow hfollow)
  exact Tree.wellNamed_directory_iff.mp (hdisk.of_within hwithin) entry hentry

/-- There is something at the name of what a directory lists. -/
theorem exists?_join_of_mem_listing {d : Path} {name : Text} {t : Tree} (hname : Tree.IsName name)
    (hd : isSound d) (h : (name, t) ∈ disk.listing d) : disk.exists? (Path.join d name) := by
  have hrelative := hname.not_isAbsolute
  obtain ⟨trail, hfollow⟩ := exists_follow_of_mem_listing h
  have hne : Path.join d name ≠ [] := by
    by_cases hempty : d = []
    · rw [hempty, Path.join_nil_left hrelative]
      exact hname.ne_nil
    · exact Path.join_ne_nil hempty name
  -- Of several entries of one name the first one is found.
  obtain ⟨found, hfound⟩ := Option.isSome_iff_exists.mp
    (List.lookup_isSome_iff.mpr ⟨_, h, beq_self_eq_true name⟩)
  have hend : disk.root.follow (Path.start disk.work (Path.join d name))
      (Path.components (Path.join d name)) = .ok (name :: trail, found) := by
    rw [Path.start_join _ d hrelative, Path.components_join d hrelative,
      Path.components_name hname.slash_not_mem, if_neg (not_or.mpr ⟨hname.ne_nil, hname.ne_here⟩),
      Tree.follow_append hfollow]
    exact Tree.follow_singleton hname.ne_above (Tree.descend?_of_follow hfollow) hfound
  refine exists?_iff.mpr ⟨Tree.isSound_join hd hname.isSound, found, ?_⟩
  cases found with
  | file content =>
    refine locate_eq_file_iff.mpr ⟨hne, ⟨_, hend⟩, hname.not_hasTrailingSlash_join d, ?_⟩
    rw [hname.getLast?_parts_join d]
    exact fun hhere => hname.ne_here (Option.some.inj hhere)
  | directory entries => exact locate_eq_directory_iff.mpr ⟨hne, _, hend⟩

/-- What exists is a file or a directory. -/
theorem isFile_or_isDirectory_of_exists? {p : Path} (h : disk.exists? p) :
    disk.isFile p ∨ disk.isDirectory p := by
  obtain ⟨hsound, found, hlocate⟩ := exists?_iff.mp h
  cases found with
  | file content => exact .inl (isFile_iff.mpr ⟨hsound, content, hlocate⟩)
  | directory entries => exact .inr (isDirectory_iff.mpr ⟨hsound, entries, hlocate⟩)

/-- Paths to one place lead to the same, if they lead anywhere. -/
theorem locate_eq_of_place_eq {p q : Path} (hplace : disk.place p = disk.place q) {t u : Tree}
    (hp : disk.locate p = .ok t) (hq : disk.locate q = .ok u) : t = u := by
  obtain ⟨-, hcancel⟩ := Prod.mk.inj hplace
  obtain ⟨trail, hfollow⟩ := follow_of_locate hp
  obtain ⟨trail', hfollow'⟩ := follow_of_locate hq
  have hsame : trail.reverse = trail'.reverse := by
    rw [← List.append_nil (Path.components p), ← List.append_nil (Path.components q),
      Tree.cancel_append_of_follow hfollow, Tree.cancel_append_of_follow hfollow'] at hcancel
    exact hcancel
  have hboth := Tree.descend?_of_follow hfollow
  rw [hsame, Tree.descend?_of_follow hfollow'] at hboth
  exact (Option.some.inj hboth).symm

/-- Of two paths to one place, one names no directory if the other names a file. -/
theorem not_isDirectory_of_place_eq {p q : Path} (hplace : disk.place p = disk.place q)
    (hp : disk.isFile p) : ¬disk.isDirectory q := by
  intro hq
  obtain ⟨-, content, hfile⟩ := isFile_iff.mp hp
  obtain ⟨-, entries, hdir⟩ := isDirectory_iff.mp hq
  cases locate_eq_of_place_eq hplace hfile hdir

/-- What exists can be read as a file exactly if it is no directory. -/
theorem bytes_eq_isDirectory_iff {p : Path} (h : disk.exists? p) :
    disk.bytes p = .error .isDirectory ↔ ¬disk.isFile p := by
  obtain ⟨hsound, found, hlocate⟩ := exists?_iff.mp h
  cases found <;> simp [bytes, isFile, hsound, hlocate]

end Disk

namespace Path

/-- A continued path ends in a name that it was continued by. -/
theorem name_join (d : Path) {name : Text} (hname : '/' ∉ name) :
    (split (join d name)).2 = name := by
  by_cases hd : d = []
  · have hsplit := split_append (by simp : ∀ c ∈ ([] : Path).getLast?, c = '/') hname
    rw [hd, join_nil_left (not_isAbsolute_of_not_mem hname)]
    exact congrArg Prod.snd hsplit
  · exact (split_join hd hname).2

/-- A path may be continued in two steps or in one. -/
theorem sameWay_join_join {d p e q : Path} (hd : d ≠ []) (hway : d.SameWay p)
    (he : ¬isAbsolute e) (hq : ¬isAbsolute q) (heq : ¬isAbsolute (join e q)) :
    (join (join d e) q).SameWay (join p (join e q)) := by
  have hde : join d e ≠ [] := join_ne_nil hd e
  have hp : p ≠ [] := fun h => hd (hway.eq_nil_iff.mpr h)
  refine ⟨iff_of_false (join_ne_nil hde q) (join_ne_nil hp _), ?_, ?_, ?_, ?_⟩
  · rw [isAbsolute_join _ hq, isAbsolute_join _ he, isAbsolute_join _ heq, hway.isAbsolute_eq]
  · rw [hasDoubleRoot_join _ hq, hasDoubleRoot_join _ he, hasDoubleRoot_join _ heq,
      hway.hasDoubleRoot_eq]
  · rw [components_join _ hq, components_join _ he, components_join _ heq, components_join _ hq,
      hway.components_eq, List.append_assoc]
  · rw [isSound_join_iff _ hq, isSound_join_iff _ he, isSound_join_iff _ heq, isSound_join_iff _ hq,
      hway.isSound_eq, Bool.and_assoc]

end Path

namespace Glob

/-! ### Everything below a directory -/

/-- A path of visible names. -/
def Descends (p : Path) : Prop :=
  ∀ part ∈ Path.parts p, IsVisible part

/-- A name that is not hidden is visible. -/
theorem isVisible_of_isName {name : Text} (hname : Tree.IsName name) (hvisible : ¬isHidden name) :
    IsVisible name :=
  ⟨hvisible, hname.ne_nil, hname.slash_not_mem⟩

/-- A visible name descends. -/
theorem IsVisible.descends {name : Text} (hname : IsVisible name) : Descends name := by
  intro part hpart
  rw [Path.parts_name hname.slash_not_mem] at hpart
  exact List.mem_singleton.mp hpart ▸ hname

namespace Descends

variable {d q : Path}

theorem nil_not_mem_parts (h : Descends d) : [] ∉ Path.parts d := fun hmem =>
  (h [] hmem).ne_nil rfl

theorem ne_nil (h : Descends d) : d ≠ [] := by
  rintro rfl
  exact h.nil_not_mem_parts (by decide)

/-- A path that descends begins where it is. -/
theorem not_isAbsolute (h : Descends d) : ¬Path.isAbsolute d := by
  intro habsolute
  obtain ⟨rest, rfl⟩ : ∃ rest, d = '/' :: rest := by
    cases d with
    | nil => cases habsolute
    | cons c rest => exact ⟨rest, by simpa [Path.isAbsolute] using habsolute⟩
  have hparts := Path.parts_append_slash [] rest
  rw [List.nil_append] at hparts
  exact h.nil_not_mem_parts (hparts ▸ List.mem_append_left _ (by decide))

/-- Paths that descend one after the other descend. -/
theorem join (hd : Descends d) (hq : Descends q) : Descends (Path.join d q) := by
  obtain ⟨front, hjoin, ⟨rfl, -⟩ | rfl⟩ := Path.exists_join_eq hd.ne_nil hq.not_isAbsolute
  · intro part hpart
    rw [hjoin, Path.parts_append_slash, List.mem_append] at hpart
    exact hpart.elim (hd part) (hq part)
  · refine absurd ?_ hd.nil_not_mem_parts
    rw [Path.parts_append_slash]
    exact List.mem_append_right _ (by decide)

end Descends

mutual

/-- What is below an entry is reached by descending. -/
theorem descends_of_mem_below (dirsOnly : Bool) {name : Text} (hname : Tree.IsName name) :
    (t : Tree) → t.WellNamed → ∀ q ∈ below dirsOnly name t, Descends q
  | .file content, _, q, hq => by
    obtain ⟨⟨-, hvisible⟩, rfl⟩ : (_ ∧ isHidden name = false) ∧ q = name := by
      simpa [below] using hq
    exact (isVisible_of_isName hname (by simp [hvisible])).descends
  | .directory entries, ht, q, hq => by
    obtain ⟨hvisible, hq⟩ :
        isHidden name = false ∧ (q = name ∨ q ∈ belowEach dirsOnly name entries) := by
      simpa [below] using hq
    have hdir : Descends name := (isVisible_of_isName hname (by simp [hvisible])).descends
    rcases hq with rfl | hq
    · exact hdir
    · obtain ⟨inner, hinner, rfl⟩ :=
        descends_of_mem_belowEach dirsOnly name entries (Tree.wellNamed_directory_iff.mp ht) q hq
      rw [joinNonempty, if_neg hdir.ne_nil, if_neg hinner.ne_nil]
      exact hdir.join hinner

/-- What is below the entries of a directory is reached from it by descending. -/
theorem descends_of_mem_belowEach (dirsOnly : Bool) (dir : Path) :
    (entries : List (Text × Tree)) →
      (∀ entry ∈ entries, Tree.IsName entry.1 ∧ entry.2.WellNamed) →
      ∀ q ∈ belowEach dirsOnly dir entries, ∃ inner, Descends inner ∧ joinNonempty dir inner = q
  | [], _, q, hq => by simp [belowEach] at hq
  | (name, t) :: rest, hentries, q, hq => by
    obtain ⟨⟨hname, ht⟩, hrest⟩ := List.forall_mem_cons.mp hentries
    rcases List.mem_append.mp hq with hq | hq
    · obtain ⟨inner, hinner, rfl⟩ := List.mem_map.mp hq
      exact ⟨inner, descends_of_mem_below dirsOnly hname t ht inner hinner, rfl⟩
    · exact descends_of_mem_belowEach dirsOnly dir rest hrest q hq

end

/-- A text without special characters has no bracket. -/
theorem bracket_not_mem_of_not_hasMagic {t : Text} (ht : ¬hasMagic t) : '[' ∉ t :=
  fun hmem => ht (List.any_eq_true.mpr ⟨'[', hmem, rfl⟩)

variable {disk : Disk}

/-- Nothing special gets into the directory part of a path by continuing it by two stars. -/
theorem not_hasMagic_directory_join_anyDepth {p : Path} (hp : p ≠ []) (hplain : ¬hasMagic p) :
    ¬hasMagic (Path.split (Path.join p anyDepth)).1 := by
  obtain ⟨gap, hsplit, -, -, -⟩ := Path.split_spec (Path.join p anyDepth)
  obtain ⟨front, hjoin, hfront⟩ := Path.exists_join_eq hp (by decide : ¬Path.isAbsolute anyDepth)
  rw [Path.name_join p (by decide)] at hsplit
  have hsame : front ++ ['/'] = (Path.split (Path.join p anyDepth)).1 ++ gap := by
    refine List.append_cancel_right (Eq.trans ?_ hsplit)
    rw [hjoin, List.append_assoc, List.singleton_append]
  have hslash : ¬hasMagic (front ++ ['/']) := by
    rw [hasMagic_append]
    rintro (hmagic | hmagic)
    · rcases hfront with ⟨rfl, -⟩ | rfl
      · exact hplain hmagic
      · exact hplain (hasMagic_append.mpr (.inl hmagic))
    · exact absurd hmagic (by decide)
  rw [hsame, hasMagic_append] at hslash
  exact fun hmagic => hslash (.inl hmagic)

/-- Two stars behind a path without special characters find what is reached from it by
descending, and the directory itself. -/
theorem exists_descends_of_mem_expandWithin_anyDepth (hdisk : disk.root.WellNamed) {p d : Path}
    (hp : p ≠ []) (hplain : ¬hasMagic p) {fuel : Nat} {dirs : List Path}
    (hdirs : expandWithin disk (fuel + 1) true (Path.join p anyDepth) = .ok dirs) (hd : d ∈ dirs) :
    ∃ start e : Path, start.SameWay p ∧ (e = [] ∨ Descends e) ∧ Path.join start e = d := by
  obtain ⟨hway, hname⟩ := Path.split_join hp (by decide : '/' ∉ anyDepth)
  have hdir : (Path.split (Path.join p anyDepth)).1 ≠ [] := fun h => hp (hway.eq_nil_iff.mp h)
  have hmagic := not_hasMagic_directory_join_anyDepth hp hplain
  rw [expandWithin_of_directory_ne_nil disk fuel true
    (hasMagic_join_of_hasMagic (by decide : hasMagic anyDepth) p) hdir,
    if_neg fun h => hmagic h.2, hname] at hdirs
  obtain ⟨start, hstart, names, hnames, e, he, hjoin⟩ := exists_of_mem_lastInEach hdirs hd
  obtain rfl := List.mem_singleton.mp hstart
  refine ⟨_, e, hway, ?_, hjoin⟩
  rw [lastIn, if_pos rfl, anyDepthIn] at hnames
  split at hnames
  · cases hnames
  · obtain rfl := Except.ok.inj hnames
    rcases List.mem_append.mp he with hself | hbelow
    · split_ifs at hself
      · exact .inl (List.mem_singleton.mp hself)
      · cases hself
    · obtain ⟨inner, hinner, rfl⟩ :=
        descends_of_mem_belowEach true [] _ (Disk.wellNamed_of_mem_listing hdisk) e hbelow
      exact .inr hinner

end Glob

namespace Sources

variable {disk : Disk} {base entry : Path}

/-! ### What is found that is not a file -/

/-- A directory that is found for an entry, as a header or a source below the directory that the
entry names. -/
structure Stray (disk : Disk) (base entry q : Path) : Prop where
  /-- The entry is no pattern. -/
  plain : ¬hasMagic entry
  /-- The entry names a directory. -/
  names : disk.isDirectory (resolve base entry)
  /-- The path is found below it. -/
  finds : ∃ ending ∈ [".h".toList, ".c".toList], ∃ found,
    Glob.expand disk (endingPattern (resolve base entry) ending) = .ok found ∧ q ∈ found
  /-- The path names a directory as well. -/
  isDirectory : disk.isDirectory q

/-- An entry has no special characters if the path that it points to has none. -/
theorem not_hasMagic_of_resolve (hplain : ¬hasMagic (resolve base entry)) : ¬hasMagic entry := by
  unfold resolve at hplain
  split_ifs at hplain
  · exact hplain
  · exact fun hmagic => hplain (hasMagic_join_of_hasMagic hmagic base)

/-- What the pattern for an ending finds is a file or a directory. -/
theorem isFile_or_isDirectory_of_mem_expand (hdisk : disk.root.WellNamed) {p q : Path}
    {ending : Text} {found : List Path} (hp : p ≠ []) (hplain : ¬hasMagic ending) (hslash : '/' ∉ ending)
    (hfound : Glob.expand disk (endingPattern p ending) = .ok found) (hq : q ∈ found) :
    disk.isFile q ∨ disk.isDirectory q := by
  obtain ⟨-, -, d, name, -, -, -, hlists, rfl⟩ :=
    exists_lists_of_mem_expand hp hplain hslash hfound hq
  obtain ⟨t, ht⟩ := hlists.listed
  have hname := (Disk.wellNamed_of_mem_listing hdisk _ ht).1
  exact Disk.isFile_or_isDirectory_of_exists?
    (Disk.exists?_join_of_mem_listing hname hlists.isSound ht)

/-- What an entry stands for is a file, or it was found as a directory. -/
theorem isFile_or_stray_of_standsFor (hdisk : disk.root.WellNamed) {files : List Path}
    (hfiles : StandsFor disk base entry files) {q : Path} (hq : q ∈ files) :
    disk.isFile q ∨ Stray disk base entry q := by
  obtain ⟨-, -, horder⟩ | ⟨hentry, hdir, hfound, hfound', horder, horder'⟩ | ⟨-, hfile⟩ := hfiles
  · exact .inl (List.mem_filter.mp (horder.perm.subset hq)).2
  · have hne := Disk.ne_nil_of_exists? (Disk.exists?_of_isDirectory hdir)
    rcases List.mem_append.mp hq with hq | hq
    · have hmem := horder.perm.subset hq
      refine (isFile_or_isDirectory_of_mem_expand hdisk hne (by decide) (by decide) hfound
        hmem).imp_right fun h => ?_
      exact ⟨hentry, hdir, ⟨".h".toList, List.mem_cons_self, _, hfound, hmem⟩, h⟩
    · have hmem := horder'.perm.subset hq
      refine (isFile_or_isDirectory_of_mem_expand hdisk hne (by decide) (by decide) hfound'
        hmem).imp_right fun h => ?_
      exact ⟨hentry, hdir, ⟨".c".toList, List.mem_cons_of_mem _ List.mem_cons_self, _, hfound',
        hmem⟩, h⟩
  · exact .inl (List.mem_singleton.mp hq ▸ hfile)

/-- A directory that is found for an entry is among what the entry stands for. -/
theorem Stray.mem_of_standsFor {q : Path} (hq : Stray disk base entry q) {files : List Path}
    (hfiles : StandsFor disk base entry files) : q ∈ files := by
  obtain ⟨hmagic, -, -⟩ | ⟨-, -, hheaders, hsources, horder, horder'⟩ | ⟨-, hfile⟩ := hfiles
  · exact absurd hmagic hq.plain
  · obtain ⟨ending, hending, found, hfound, hmem⟩ := hq.finds
    rcases List.mem_pair.mp hending with rfl | rfl
    · obtain rfl := Except.ok.inj (hheaders.symm.trans hfound)
      exact List.mem_append_left _ (horder.perm.symm.subset hmem)
    · obtain rfl := Except.ok.inj (hsources.symm.trans hfound)
      exact List.mem_append_right _ (horder'.perm.symm.subset hmem)
  · exact absurd hq.names (Disk.not_isDirectory_of_isFile hfile)

/-- A directory that is found for an entry without special characters in its path is below the
directory that the entry names: no name on the way is hidden, and the last one has an ending. -/
theorem Stray.exists_below (hdisk : disk.root.WellNamed) (hplain : ¬hasMagic (resolve base entry))
    {q : Path} (hq : Stray disk base entry q) :
    ∃ rel, ¬Path.isAbsolute rel ∧ disk.isDirectory (Path.join (resolve base entry) rel) ∧
      (∀ part ∈ Path.parts rel, ¬Glob.isHidden part) ∧
      ∃ ending ∈ [".h".toList, ".c".toList], ending <:+ (Path.split rel).2 := by
  have hne := Disk.ne_nil_of_exists? (Disk.exists?_of_isDirectory hq.names)
  obtain ⟨ending, hending, found, hfound, hmem⟩ := hq.finds
  have hproper : ¬hasMagic ending ∧ '/' ∉ ending := by
    rcases List.mem_pair.mp hending with rfl | rfl <;> decide
  obtain ⟨fuel, dirs, d, name, -, hdirs, hd, hlists, rfl⟩ :=
    exists_lists_of_mem_expand hne hproper.1 hproper.2 hfound hmem
  obtain ⟨start, e, hway, he, rfl⟩ :=
    Glob.exists_descends_of_mem_expandWithin_anyDepth hdisk hne hplain hdirs hd
  obtain ⟨t, ht⟩ := hlists.listed
  have hvisible := Glob.isVisible_of_isName (Disk.wellNamed_of_mem_listing hdisk _ ht).1
    hlists.not_isHidden
  have hname := hvisible.descends
  have hrel : Glob.Descends (Path.join e name) := by
    rcases he with rfl | he
    · rwa [Path.join_nil_left hname.not_isAbsolute]
    · exact he.join hname
  have hrelative : ¬Path.isAbsolute e := by
    rcases he with rfl | he
    · decide
    · exact he.not_isAbsolute
  -- The path that was found only spells the directory in another way.
  have hsame := Path.sameWay_join_join (fun h => hne (hway.eq_nil_iff.mp h)) hway hrelative
    hname.not_isAbsolute hrel.not_isAbsolute
  refine ⟨Path.join e name, hrel.not_isAbsolute,
    Disk.isDirectory_of_sameWay hsame.symm hq.isDirectory, fun part hpart => ?_, ending, hending,
    ?_⟩
  · exact (hrel part hpart).not_isHidden
  · rw [Path.name_join e hvisible.slash_not_mem]
    exact hlists.suffix

/-- If a directory with an ending is below one that an entry names, and no name on the way is
hidden, a directory is found for the entry. -/
theorem exists_stray_of_below (hdisk : disk.root.WellNamed) (hentry : ¬hasMagic entry)
    (hdir : disk.isDirectory (resolve base entry)) (hself : (resolve base entry).MatchesItself)
    {files : List Path} (hfiles : StandsFor disk base entry files) {rel : Path}
    (hrelative : ¬Path.isAbsolute rel)
    (hbelow : disk.isDirectory (Path.join (resolve base entry) rel))
    (hvisible : ∀ part ∈ Path.parts rel, ¬Glob.isHidden part)
    (hending : ∃ ending ∈ [".h".toList, ".c".toList], ending <:+ (Path.split rel).2) :
    ∃ q, Stray disk base entry q := by
  have hne := Disk.ne_nil_of_exists? (Disk.exists?_of_isDirectory hdir)
  obtain ⟨ending, hmem, hending⟩ := hending
  obtain ⟨hproper, hplain, hslash⟩ :
      (ending ≠ [] ∧ ending ≠ ['*']) ∧ ¬hasMagic ending ∧ '/' ∉ ending := by
    rcases List.mem_pair.mp hmem with rfl | rfl <;> decide
  obtain ⟨found, hfound⟩ : ∃ found,
      Glob.expand disk (endingPattern (resolve base entry) ending) = .ok found := by
    obtain ⟨hmagic, -, -⟩ | ⟨-, -, hheaders, hsources, -, -⟩ | ⟨-, hfile⟩ := hfiles
    · exact absurd hmagic hentry
    · rcases List.mem_pair.mp hmem with rfl | rfl
      · exact ⟨_, hheaders⟩
      · exact ⟨_, hsources⟩
    · exact absurd hdir (Disk.not_isDirectory_of_isFile hfile)
  have hwith : withEnding disk (resolve base entry) ending = .ok (sort found) := by
    rw [withEnding, ← endingPattern, hfound]
    rfl
  obtain ⟨q, hq, hplace⟩ := exists_mem_withEnding hself hdir hrelative
    (Disk.exists?_of_isDirectory hbelow) hvisible hending
    ⟨Glob.bracket_not_mem_of_not_hasMagic hplain, hslash⟩ hproper hwith
  have hq : q ∈ found := List.mem_mergeSort.mp hq
  have hkind := isFile_or_isDirectory_of_mem_expand hdisk hne hplain hslash hfound hq
  exact ⟨q, hentry, hdir, ⟨ending, hmem, found, hfound, hq⟩, hkind.resolve_left fun hfile =>
    Disk.not_isDirectory_of_place_eq hplace hfile hbelow⟩

/-- Every path that is collected from a well named tree names a file, or else a directory that
was found below one that an entry names. So all of them name files exactly if no directory is found
in this way, and reading fails at the others because they are directories. For an entry without
special characters in its path, a directory is found exactly if one stands below the directory that
the entry names, with the ending of a header or a source and with no hidden name on the way. -/
theorem collect_files_up_to_strays (hdisk : disk.root.WellNamed) {entries : List Path} {base : Path}
    {paths : List Path} (hpaths : collect disk entries base = .ok paths) :
    (∀ q ∈ paths, disk.isFile q ∨ ∃ entry ∈ entries, Stray disk base entry q) ∧
      ((∀ q ∈ paths, disk.isFile q) ↔ ∀ entry ∈ entries, ∀ q, ¬Stray disk base entry q) ∧
      (∀ q ∈ paths, disk.bytes q = .error .isDirectory ↔ ¬disk.isFile q) ∧
      ∀ entry ∈ entries, ¬hasMagic (resolve base entry) →
        disk.isDirectory (resolve base entry) →
          ((∃ q, Stray disk base entry q) ↔ ∃ rel, ¬Path.isAbsolute rel ∧
            disk.isDirectory (Path.join (resolve base entry) rel) ∧
            (∀ part ∈ Path.parts rel, ¬Glob.isHidden part) ∧
            ∃ ending ∈ [".h".toList, ".c".toList], ending <:+ (Path.split rel).2) := by
  have hkind : ∀ q ∈ paths, disk.isFile q ∨ ∃ entry ∈ entries, Stray disk base entry q := by
    intro q hq
    obtain ⟨found, hfound, rfl⟩ := exists_of_map_eq_ok hpaths
    obtain ⟨files, hfiles, hq⟩ := List.mem_flatten.mp ((dropRepeats_sublist disk [] _).subset hq)
    obtain ⟨entry, hentry, hexpand⟩ := exists_of_mem_mapM_eq_ok hfound hfiles
    exact (isFile_or_stray_of_standsFor hdisk (expandEntry_eq_ok_iff_standsFor.mp hexpand)
      hq).imp_right fun hstray => ⟨entry, hentry, hstray⟩
  refine ⟨hkind, ⟨fun hall entry hentry q hstray => ?_, fun hnone q hq => ?_⟩, fun q hq => ?_,
    fun entry hentry hplain hdir => ⟨fun ⟨q, hstray⟩ => ?_, ?_⟩⟩
  · -- Another path to the place of the directory may have been collected.
    obtain ⟨files, hexpand, hkept⟩ := exists_mem_collect hpaths hentry
    obtain ⟨kept, hkept, hplace⟩ :=
      hkept q (hstray.mem_of_standsFor (expandEntry_eq_ok_iff_standsFor.mp hexpand))
    exact Disk.not_isDirectory_of_place_eq hplace (hall kept hkept) hstray.isDirectory
  · exact (hkind q hq).resolve_right fun ⟨entry, hentry, hstray⟩ => hnone entry hentry q hstray
  · refine Disk.bytes_eq_isDirectory_iff ?_
    rcases hkind q hq with hfile | ⟨entry, -, hstray⟩
    · exact Disk.exists?_of_isFile hfile
    · exact Disk.exists?_of_isDirectory hstray.isDirectory
  · exact hstray.exists_below hdisk hplain
  · rintro ⟨rel, hrelative, hbelow, hvisible, hending⟩
    have hself := Path.matchesItself_of_not_mem (Glob.bracket_not_mem_of_not_hasMagic hplain)
    obtain ⟨files, hexpand, -⟩ := exists_mem_collect hpaths hentry
    exact exists_stray_of_below hdisk (not_hasMagic_of_resolve hplain) hdir hself
      (expandEntry_eq_ok_iff_standsFor.mp hexpand) hrelative hbelow hvisible hending

/-- A directory in which one directory is named like a source, in a base directory that is given by
a way up and down: it is collected along with the file in it and the header beside it. -/
theorem collect_files_up_to_strays_of_directory_named_as_source :
    let disk : Disk := ⟨.directory [("w".toList, .directory [("d".toList, .directory [
      ("b.h".toList, .file []), ("x.c".toList, .directory [("a.c".toList, .file [])])])])],
      ["w".toList]⟩
    let base := "../w".toList
    let paths := ["../w/d/b.h".toList, "../w/d/x.c".toList, "../w/d/x.c/a.c".toList]
    disk.root.WellNamed ∧ collect disk ["d".toList] base = .ok paths ∧
      (∃ q, Stray disk base "d".toList q) ∧ (¬∀ q ∈ paths, disk.isFile q) ∧
      (disk.bytes "../w/d/b.h".toList ≠ .error .isDirectory ∧ disk.isFile "../w/d/b.h".toList) ∧
      disk.bytes "../w/d/x.c".toList = .error .isDirectory := by
  intro disk base paths
  have hdisk : disk.root.WellNamed := by
    simp only [disk, Tree.wellNamed_directory_iff, Tree.wellNamed_file, List.forall_mem_cons,
      List.not_mem_nil, false_implies, implies_true, and_true]
    decide
  have hpaths : collect disk ["d".toList] base = .ok paths := by cbv
  obtain ⟨-, hall, hbytes, hbelow⟩ := collect_files_up_to_strays hdisk hpaths
  have hstray : ∃ q, Stray disk base "d".toList q := by
    refine (hbelow "d".toList (by simp) (by decide) (by decide +kernel)).mpr
      ⟨"x.c".toList, by decide, by decide +kernel, by decide +kernel, ".c".toList, by simp,
        by decide +kernel⟩
  have hheader : disk.isFile "../w/d/b.h".toList := by decide +kernel
  have hdir : ¬disk.isFile "../w/d/x.c".toList := by decide +kernel
  refine ⟨hdisk, hpaths, hstray, fun hfiles => ?_, ⟨?_, hheader⟩, ?_⟩
  · obtain ⟨q, hq⟩ := hstray
    exact hall.mp hfiles "d".toList (by simp) q hq
  · exact fun h => (hbytes _ (by decide)).mp h hheader
  · exact (hbytes _ (by decide)).mpr hdir

/-- A directory that is named like a source is collected if the directory around it is given, and
reading it fails, however the directory is spelled. If a pattern is given for what is in the
directory around it, it is not. -/
theorem directory_collected_as_source :
    let disk : Disk := ⟨.directory [("w".toList, .directory [
      ("d".toList, .directory [("x.c".toList, .directory [])])])], ["w".toList]⟩
    (collect disk ["d".toList] Path.here = .ok ["d/x.c".toList] ∧
      ¬disk.isFile "d/x.c".toList ∧ disk.bytes "d/x.c".toList = .error .isDirectory) ∧
    (collect disk ["/w/d".toList] Path.here = .ok ["/w/d/x.c".toList] ∧
      ¬disk.isFile "/w/d/x.c".toList ∧ disk.bytes "/w/d/x.c".toList = .error .isDirectory) ∧
    collect disk ["d/*".toList] Path.here = .ok [] := by
  intro disk
  exact ⟨⟨by cbv, by decide +kernel, by cbv⟩, ⟨by cbv, by decide +kernel, by cbv⟩, by cbv⟩

end Sources

end PrototypeGate

import PrototypeGate.Files.Glob
import PrototypeGate.Proofs.Results

/-!
# Expanding patterns

No name in a file tree holds a null character, so a path that an expansion comes by holds
none either, unless it was there in the pattern. This file shows when the expansion of a
pattern breaks down on such a tree: when a null character stands in a directory that the
pattern spells out before its first special character. Everything that an expansion
finds can be given to the system.
-/

namespace PrototypeGate

/-! ### Trees -/

mutual

/-- No name in the tree holds a null character. -/
def Tree.Named : Tree → Prop
  | .file _ => True
  | .directory entries => Tree.NamedEach entries

/-- No name of the entries, and none below them, holds a null character. -/
def Tree.NamedEach : List (Text × Tree) → Prop
  | [] => True
  | (name, t) :: rest => Tree.isSound name ∧ t.Named ∧ Tree.NamedEach rest

end

namespace Tree

/-- Entries are named if each of them is. -/
theorem namedEach_iff {entries : List (Text × Tree)} :
    NamedEach entries ↔ ∀ entry ∈ entries, isSound entry.1 ∧ entry.2.Named := by
  induction entries with
  | nil => simp [NamedEach]
  | cons entry rest ih =>
    simp only [NamedEach, ih, List.forall_mem_cons, and_assoc]

/-- What stands under a name of a directory is named as the directory is. -/
theorem Named.child {t found : Tree} (ht : t.Named) {name : Text}
    (hfound : t.child? name = some found) : found.Named := by
  cases t with
  | file bytes => simp [child?] at hfound
  | directory entries =>
    obtain ⟨before, after, rfl, -⟩ := List.lookup_eq_some_iff.mp hfound
    exact (namedEach_iff.mp ht (name, found) (by simp)).2

/-- What is reached by descending is named as the tree is. -/
theorem Named.descend {t found : Tree} (ht : t.Named) {names : List Text}
    (hfound : t.descend? names = some found) : found.Named := by
  induction names generalizing t with
  | nil =>
    obtain rfl : t = found := by simpa [descend?] using hfound
    exact ht
  | cons name rest ih =>
    obtain ⟨below, hbelow, hrest⟩ := Option.bind_eq_some_iff.mp hfound
    exact ih (ht.child hbelow) hrest

/-- What is reached by following components is named as the tree is. -/
theorem Named.follow {root found : Tree} (hroot : root.Named) {trail names trail' : List Text}
    (hfound : root.follow trail names = .ok (trail', found)) : found.Named := by
  induction names generalizing trail with
  | nil =>
    unfold Tree.follow at hfound
    split at hfound
    · next t ht =>
      obtain ⟨-, rfl⟩ : trail = trail' ∧ t = found := by simpa using hfound
      exact hroot.descend ht
    · simp at hfound
  | cons name rest ih =>
    unfold Tree.follow at hfound
    split at hfound
    · split at hfound
      · exact ih hfound
      · split at hfound
        · exact ih hfound
        · simp at hfound
    · simp at hfound
    · simp at hfound

end Tree

namespace Disk

/-- What is at a path is named as the whole tree is. -/
theorem named_of_locate {disk : Disk} (hdisk : disk.root.Named) {p : Path} {found : Tree}
    (hfound : disk.locate p = .ok found) : found.Named := by
  unfold locate at hfound
  split at hfound
  · simp at hfound
  · cases hfollow : disk.root.follow (p.start disk.work) (Path.components p) with
    | error problem => simp [hfollow] at hfound
    | ok reached =>
      obtain ⟨trail, t⟩ := reached
      have ht : t.Named := hdisk.follow hfollow
      cases t with
      | file bytes =>
        simp only [hfollow] at hfound
        split at hfound
        · simp at hfound
        · obtain rfl : Tree.file bytes = found := by simpa using hfound
          exact ht
      | directory entries =>
        obtain rfl : Tree.directory entries = found := by simpa [hfollow] using hfound
        exact ht

/-- The names in a directory of the disk hold no null character. -/
theorem namedEach_listing {disk : Disk} (hdisk : disk.root.Named) (p : Path) :
    Tree.NamedEach (disk.listing p) := by
  unfold listing
  split
  · next entries hfound => exact named_of_locate hdisk hfound
  · exact trivial

end Disk

/-! ### Splitting a path -/

private theorem mem_takeWhile_holds {f : Char → Bool} {c : Char} {t : Text}
    (hc : c ∈ (t.takeWhile f)) : f c = true :=
  List.all_eq_true.mp List.all_takeWhile c hc

/-- A path is a directory, a gap of slashes and a name without one. The gap is empty exactly
after a directory that consists of slashes. -/
theorem Path.split_spec (p : Path) :
    ∃ gap, p = (split p).1 ++ gap ++ (split p).2 ∧ (∀ c ∈ gap, c = '/') ∧
      '/' ∉ (split p).2 ∧ (gap = [] ↔ ∀ c ∈ (split p).1, c = '/') := by
  set name := (p.reverse.takeWhile (· ≠ '/')).reverse with hname
  set head := (p.reverse.dropWhile (· ≠ '/')).reverse with hhead
  have hp : p = head ++ name := by
    rw [hname, hhead, ← List.reverse_append, List.takeWhile_append_dropWhile, List.reverse_reverse]
  have hslash : '/' ∉ name := fun h => by
    simpa using mem_takeWhile_holds (List.mem_reverse.mp h)
  have hsplit : split p = if head.all (· == '/') then (head, name)
      else (dropTrailingSlashes head, name) := by
    have htake : p.take (p.length - name.length) = head := by
      conv_lhs => rw [hp]
      simp
    simp only [split, ← hname, htake]
  by_cases hall : head.all (· == '/')
  · rw [if_pos hall] at hsplit
    rw [hsplit]
    exact ⟨[], by simpa using hp, by simp, hslash, by simpa using hall⟩
  · rw [if_neg hall] at hsplit
    rw [hsplit]
    have hcut : dropTrailingSlashes head ++ (head.reverse.takeWhile (· == '/')).reverse = head := by
      rw [dropTrailingSlashes, ← List.reverse_append, List.takeWhile_append_dropWhile,
        List.reverse_reverse]
    have hgap : ∀ c ∈ (head.reverse.takeWhile (· == '/')).reverse, c = '/' := fun c hc => by
      simpa using mem_takeWhile_holds (List.mem_reverse.mp hc)
    refine ⟨_, by rw [hcut]; exact hp, hgap, hslash,
      iff_of_false (fun hnone => ?_) fun hslashes => ?_⟩
    · -- the part before the name is empty or ends in a slash
      have hlast := List.head?_dropWhile_not (· ≠ '/') p.reverse
      rw [hhead, List.reverse_reverse] at hnone
      cases hdrop : p.reverse.dropWhile (· ≠ '/') with
      | nil =>
        rw [hhead, hdrop] at hall
        exact absurd rfl hall
      | cons c rest =>
        rw [hdrop] at hlast hnone
        obtain rfl : c = '/' := by simpa using hlast
        simp at hnone
    · refine hall (List.all_eq_true.mpr fun c hc => beq_iff_eq.mpr ?_)
      rw [← hcut] at hc
      exact (List.mem_append.mp hc).elim (hslashes c) (hgap c)

/-- A null character stands in a directory that the path spells out before its first
special character. -/
def Glob.SpellsNull (p : Path) : Prop :=
  ∃ before after, p = before ++ '/' :: after ∧ '\x00' ∈ before ∧ ¬hasMagic before ∧
    hasMagic after

/-- A text has a special character if one of its parts does. -/
@[simp]
theorem hasMagic_append {p q : Path} : hasMagic (p ++ q) ↔ hasMagic p ∨ hasMagic q := by
  simp [hasMagic]

private theorem hasMagic_slash_cons {p : Path} : hasMagic ('/' :: p) ↔ hasMagic p := by
  simp [hasMagic]

private theorem split_before_name {before after dir name : Path} (hname : '/' ∉ name)
    (h : before ++ '/' :: after = dir ++ name) :
    ∃ rest, dir = before ++ '/' :: rest ∧ after = rest ++ name := by
  rcases List.append_eq_append_iff.mp h with ⟨rest, hdir, hrest⟩ | ⟨rest, hbefore, hrest⟩
  · cases rest with
    | nil =>
      rw [List.nil_append] at hrest
      exact absurd (hrest ▸ List.mem_cons_self) hname
    | cons c rest =>
      obtain ⟨rfl, hafter⟩ := List.cons.inj hrest
      exact ⟨rest, hdir, hafter⟩
  · exact absurd (by simp [hrest]) hname

/-- A special character in the directory part leaves it to the directory part alone whether
the path spells out a null character. -/
theorem Glob.spellsNull_of_hasMagic_directory {p : Path} (hdir : hasMagic (Path.split p).1) :
    SpellsNull p ↔ SpellsNull (Path.split p).1 := by
  obtain ⟨gap, hp, hgap, hname, -⟩ := Path.split_spec p
  constructor
  · rintro ⟨before, after, hcut, hnull, hplain, hafter⟩
    obtain ⟨rest, hrest, -⟩ := split_before_name hname (hcut.symm.trans hp)
    rcases List.append_eq_append_iff.mp hrest with ⟨inner, hbefore, -⟩ | ⟨inner, hsplit, hinner⟩
    · rw [hbefore, hasMagic_append] at hplain
      exact absurd (.inl hdir) hplain
    · cases inner with
      | nil =>
        rw [List.append_nil] at hsplit
        exact absurd (hsplit ▸ hdir) hplain
      | cons c inner =>
        obtain ⟨rfl, -⟩ := List.cons.inj hinner
        refine ⟨before, inner, hsplit, hnull, hplain, ?_⟩
        rw [hsplit, hasMagic_append, hasMagic_slash_cons] at hdir
        exact hdir.resolve_left hplain
  · rintro ⟨before, after, hcut, hnull, hplain, hafter⟩
    refine ⟨before, after ++ gap ++ (Path.split p).2, ?_, hnull, hplain, by simp [hafter]⟩
    calc p = (Path.split p).1 ++ gap ++ (Path.split p).2 := hp
      _ = before ++ '/' :: (after ++ gap ++ (Path.split p).2) := by rw [hcut]; simp

/-- A path whose directory part has no special character spells out a null character
exactly if the directory part holds one. -/
theorem Glob.spellsNull_of_not_hasMagic_directory {p : Path} (hmagic : hasMagic p)
    (hdir : ¬hasMagic (Path.split p).1) : SpellsNull p ↔ '\x00' ∈ (Path.split p).1 := by
  obtain ⟨gap, hp, hgap, hname, hempty⟩ := Path.split_spec p
  constructor
  · rintro ⟨before, after, hcut, hnull, -, -⟩
    obtain ⟨rest, hrest, -⟩ := split_before_name hname (hcut.symm.trans hp)
    have hmem : '\x00' ∈ (Path.split p).1 ++ gap := hrest ▸ List.mem_append_left _ hnull
    rcases List.mem_append.mp hmem with hmem | hmem
    · exact hmem
    · exact absurd (hgap _ hmem) (by decide)
  · intro hnull
    cases gap with
    | nil => exact absurd (hempty.mp rfl _ hnull) (by decide)
    | cons c gap =>
      obtain rfl := hgap c List.mem_cons_self
      refine ⟨(Path.split p).1, gap ++ (Path.split p).2, by simpa using hp, hnull, hdir, ?_⟩
      rw [hp, List.append_assoc, hasMagic_append, List.cons_append, hasMagic_slash_cons] at hmagic
      exact hmagic.resolve_left hdir

/-- A directory part with a special character is shorter than the path. -/
theorem length_directory_lt_of_hasMagic {p : Path} (hdir : hasMagic (Path.split p).1) :
    (Path.split p).1.length < p.length := by
  obtain ⟨gap, hp, -, -, hempty⟩ := Path.split_spec p
  have hlength := congrArg List.length hp
  simp only [List.length_append] at hlength
  cases gap with
  | nil =>
    obtain ⟨c, hc, hspecial⟩ := List.any_eq_true.mp hdir
    rw [hempty.mp rfl c hc] at hspecial
    exact absurd hspecial (by decide)
  | cons c gap =>
    simp only [List.length_cons] at hlength
    omega

/-- A special character that is not in the directory part is in the name. -/
theorem hasMagic_name_of_not_hasMagic_directory {p : Path} (hmagic : hasMagic p)
    (hdir : ¬hasMagic (Path.split p).1) : hasMagic (Path.split p).2 := by
  obtain ⟨gap, hp, hgap, -, -⟩ := Path.split_spec p
  have hplain : ¬hasMagic gap := fun h => by
    obtain ⟨c, hc, hspecial⟩ := List.any_eq_true.mp h
    rw [hgap c hc] at hspecial
    exact absurd hspecial (by decide)
  rw [hp, hasMagic_append, hasMagic_append] at hmagic
  exact hmagic.resolve_left (not_or.mpr ⟨hdir, hplain⟩)

/-- A continued path ends with the continuation. -/
theorem Path.suffix_join (d q : Path) : q <:+ Path.join d q := by
  unfold Path.join
  split_ifs
  · exact List.suffix_rfl
  · exact List.suffix_append d q
  · exact (List.suffix_cons '/' q).trans (List.suffix_append d _)

/-! ### Sound paths -/

/-- A text is sound if both of its parts are. -/
@[simp]
theorem Tree.isSound_append {p q : Path} :
    Tree.isSound (p ++ q) ↔ Tree.isSound p ∧ Tree.isSound q := by
  simp [Tree.isSound]

/-- Joining sound paths gives a sound path. -/
theorem Tree.isSound_join {p q : Path} (hp : Tree.isSound p) (hq : Tree.isSound q) :
    Tree.isSound (Path.join p q) := by
  have hslash : Tree.isSound ('/' :: q) := Tree.isSound_append (p := ['/']).mpr ⟨rfl, hq⟩
  unfold Path.join
  split
  · exact hq
  · split
    · exact Tree.isSound_append.mpr ⟨hp, hq⟩
    · exact Tree.isSound_append.mpr ⟨hp, hslash⟩

namespace Glob

open PrototypeGate.Tree (isSound)

private theorem isSound_of_directory {p : Path} (hname : (Path.split p).2 = [])
    (hdir : isSound (Path.split p).1) : isSound p := by
  obtain ⟨gap, hp, hgap, -, -⟩ := Path.split_spec p
  have hsound : isSound gap := by
    have hnull : '\x00' ∉ gap := fun h => absurd (hgap _ h) (by decide)
    simpa [isSound] using hnull
  rw [hname, List.append_nil] at hp
  rw [hp]
  exact Tree.isSound_append.mpr ⟨hdir, hsound⟩

private theorem isSound_joinNonempty {p q : Path} (hp : isSound p) (hq : isSound q) :
    isSound (joinNonempty p q) := by
  unfold joinNonempty
  split
  · exact hq
  · split
    · exact hp
    · exact Tree.isSound_join hp hq

private theorem isSound_of_joinNonempty {p q : Path} (h : isSound (joinNonempty p q)) :
    isSound q := by
  have hsuffix : q <:+ joinNonempty p q := by
    unfold joinNonempty
    split_ifs with _ hq
    · exact List.suffix_rfl
    · exact hq ▸ List.nil_suffix
    · exact Path.suffix_join p q
  obtain ⟨before, hbefore⟩ := hsuffix
  rw [← hbefore] at h
  exact (Tree.isSound_append.mp h).2

mutual

private theorem isSound_of_mem_below (dirsOnly : Bool) {name : Text} (hname : isSound name) :
    (t : Tree) → t.Named → ∀ q ∈ below dirsOnly name t, isSound q
  | .file bytes, _, q, hq => by
    obtain ⟨-, rfl⟩ : _ ∧ q = name := by simpa [below] using hq
    exact hname
  | .directory entries, ht, q, hq => by
    obtain ⟨-, rfl | hq⟩ : _ ∧ (q = name ∨ q ∈ belowEach dirsOnly name entries) := by
      simpa [below] using hq
    · exact hname
    · exact isSound_of_mem_belowEach dirsOnly hname entries ht q hq

private theorem isSound_of_mem_belowEach (dirsOnly : Bool) {dir : Path} (hdir : isSound dir) :
    (entries : List (Text × Tree)) → Tree.NamedEach entries →
      ∀ q ∈ belowEach dirsOnly dir entries, isSound q
  | [], _, q, hq => by simp [belowEach] at hq
  | (name, t) :: rest, ⟨hname, ht, hrest⟩, q, hq => by
    rcases List.mem_append.mp hq with hq | hq
    · obtain ⟨inner, hinner, rfl⟩ := List.mem_map.mp hq
      exact isSound_joinNonempty hdir (isSound_of_mem_below dirsOnly hname t ht inner hinner)
    · exact isSound_of_mem_belowEach dirsOnly hdir rest hrest q hq

end

/-- In a directory that can be given to the system, the last component of a pattern stands
for paths that can be given to the system. -/
theorem lastIn_of_isSound {disk : Disk} (hdisk : disk.root.Named) (dirsOnly : Bool) (name : Text)
    {dir : Path} (hdir : isSound dir) :
    ∃ found, lastIn disk dirsOnly name dir = .ok found ∧ ∀ q ∈ found, isSound q := by
  have hlisting : Tree.NamedEach (disk.listing dir) := Disk.namedEach_listing hdisk dir
  unfold lastIn
  split
  · simp only [anyDepthIn, hdir, Bool.not_true, Bool.false_eq_true, if_false]
    refine ⟨_, rfl, fun q hq => ?_⟩
    rcases List.mem_append.mp hq with hq | hq
    · obtain rfl : q = [] := by
        split at hq
        · simpa using hq
        · simp at hq
      rfl
    · exact isSound_of_mem_belowEach dirsOnly rfl _ hlisting q hq
  · split
    · simp only [matchingNames, names, hdir, if_true, Except.map]
      refine ⟨_, rfl, fun q hq => ?_⟩
      obtain ⟨entry, hentry, rfl⟩ := List.mem_map.mp (List.mem_of_mem_filter hq)
      exact (Tree.namedEach_iff.mp hlisting entry (List.mem_of_mem_filter hentry)).1
    · refine ⟨_, rfl, fun q hq => ?_⟩
      unfold literalIn at hq
      split at hq
      · next hname =>
        split at hq
        · obtain rfl : q = name := by simpa using hq
          rw [hname]
          rfl
        · simp at hq
      · split at hq
        · next hexists =>
          obtain rfl : q = name := by simpa using hq
          exact isSound_of_joinNonempty (Bool.and_eq_true_iff.mp hexists).1
        · simp at hq

/-- A directory that cannot be given to the system breaks a special last component. -/
theorem lastIn_of_not_isSound (disk : Disk) (dirsOnly : Bool) {name : Text}
    (hname : hasMagic name) {dir : Path} (hdir : ¬isSound dir) :
    lastIn disk dirsOnly name dir = .error .nullCharacter := by
  unfold lastIn
  split
  · simp [anyDepthIn, hdir]
  · simp [matchingNames, names, hdir, Except.map]

/-! ### Whole patterns -/

private theorem mapM_sound {f : Path → Except Fault (List Path)} {dirs : List Path}
    (hdirs : ∀ dir ∈ dirs, ∃ found, f dir = .ok found ∧ ∀ q ∈ found, isSound q) :
    ∃ founds, dirs.mapM f = .ok founds ∧ ∀ q ∈ founds.flatten, isSound q := by
  induction dirs with
  | nil => exact ⟨[], rfl, by simp⟩
  | cons dir rest ih =>
    obtain ⟨found, hfound, hsound⟩ := hdirs dir List.mem_cons_self
    obtain ⟨founds, hrest, hsounds⟩ := ih fun d hd => hdirs d (List.mem_cons_of_mem _ hd)
    refine ⟨found :: founds, ?_, fun q hq => ?_⟩
    · rw [List.mapM_cons, hfound, hrest]
      rfl
    · rcases List.mem_append.mp hq with hq | hq
      · exact hsound q hq
      · exact hsounds q hq

/-- The paths that a last component stands for in each of several directories. -/
def lastInEach (disk : Disk) (dirsOnly : Bool) (name : Text) (dirs : List Path) :
    Except Fault (List Path) := do
  let found ← dirs.mapM fun d => (lastIn disk dirsOnly name d).map fun names =>
    names.map (Path.join d)
  return found.flatten

private theorem lastInEach_of_isSound {disk : Disk} (hdisk : disk.root.Named) (dirsOnly : Bool)
    (name : Text) {dirs : List Path} (hdirs : ∀ dir ∈ dirs, isSound dir) :
    ∃ found, lastInEach disk dirsOnly name dirs = .ok found ∧ ∀ q ∈ found, isSound q := by
  have heach : ∀ dir ∈ dirs, ∃ found,
      ((lastIn disk dirsOnly name dir).map fun names => names.map (Path.join dir)) = .ok found ∧
        ∀ q ∈ found, isSound q := fun dir hdir => by
    obtain ⟨names, hnames, hsound⟩ := lastIn_of_isSound hdisk dirsOnly name (hdirs dir hdir)
    refine ⟨names.map (Path.join dir), by rw [hnames]; rfl, fun q hq => ?_⟩
    obtain ⟨inner, hinner, rfl⟩ := List.mem_map.mp hq
    exact Tree.isSound_join (hdirs dir hdir) (hsound inner hinner)
  obtain ⟨founds, hfounds, hsound⟩ := mapM_sound heach
  exact ⟨founds.flatten, by rw [lastInEach, hfounds]; rfl, hsound⟩

/-- A pattern without a directory part stands for what its name stands for in the working
directory. -/
theorem expandWithin_of_directory_eq_nil (disk : Disk) (fuel : Nat) (dirsOnly : Bool) {p : Path}
    (hmagic : hasMagic p) (hdir : (Path.split p).1 = []) :
    expandWithin disk (fuel + 1) dirsOnly p = lastIn disk dirsOnly (Path.split p).2 [] := by
  simp [expandWithin, hmagic, hdir]

/-- A pattern with a directory part stands for what its name stands for in each directory that
the directory part stands for. -/
theorem expandWithin_of_directory_ne_nil (disk : Disk) (fuel : Nat) (dirsOnly : Bool) {p : Path}
    (hmagic : hasMagic p) (hdir : (Path.split p).1 ≠ []) :
    expandWithin disk (fuel + 1) dirsOnly p =
      (if (Path.split p).1 ≠ p ∧ hasMagic (Path.split p).1 then
          expandWithin disk fuel true (Path.split p).1
        else .ok [(Path.split p).1]) >>=
        lastInEach disk dirsOnly (Path.split p).2 := by
  simp only [expandWithin, hmagic, Bool.not_true, Bool.false_eq_true, if_false, hdir]
  split <;> rfl

/-- On a named tree the expansion of a pattern breaks down exactly if the pattern spells out
a null character; otherwise everything that it finds can be given to the system. -/
theorem expandWithin_spec {disk : Disk} (hdisk : disk.root.Named) {fuel : Nat} (dirsOnly : Bool)
    {p : Path} (hfuel : p.length < fuel) :
    (SpellsNull p → expandWithin disk fuel dirsOnly p = .error .nullCharacter) ∧
      (¬SpellsNull p → ∃ found, expandWithin disk fuel dirsOnly p = .ok found ∧
        ∀ q ∈ found, isSound q) := by
  -- the directory part is shorter, so what it stands for is known by induction
  induction fuel generalizing dirsOnly p with
  | zero => omega
  | succ fuel ih =>
    by_cases hmagic : hasMagic p
    · by_cases hdir : (Path.split p).1 = []
      · have hlast := expandWithin_of_directory_eq_nil disk fuel dirsOnly hmagic hdir
        have hplain : ¬SpellsNull p := by
          rw [spellsNull_of_not_hasMagic_directory hmagic (by simp [hdir, hasMagic]), hdir]
          exact List.not_mem_nil
        exact ⟨fun h => absurd h hplain, fun _ => hlast ▸ lastIn_of_isSound hdisk _ _ rfl⟩
      · have hboth := expandWithin_of_directory_ne_nil disk fuel dirsOnly hmagic hdir
        by_cases hmagicDir : hasMagic (Path.split p).1
        · have hshorter : (Path.split p).1.length < p.length :=
            length_directory_lt_of_hasMagic hmagicDir
          have hne : (Path.split p).1 ≠ p := fun h => by rw [h] at hshorter; omega
          rw [if_pos ⟨hne, hmagicDir⟩] at hboth
          rw [spellsNull_of_hasMagic_directory hmagicDir, hboth]
          obtain ⟨hbreaks, hfinds⟩ := ih true (p := (Path.split p).1) (by omega)
          refine ⟨fun h => by rw [hbreaks h]; rfl, fun h => ?_⟩
          obtain ⟨dirs, hdirs, hsound⟩ := hfinds h
          rw [hdirs]
          exact lastInEach_of_isSound hdisk _ _ hsound
        · rw [if_neg fun h => hmagicDir h.2] at hboth
          rw [spellsNull_of_not_hasMagic_directory hmagic hmagicDir, hboth]
          refine ⟨fun h => ?_, fun h => ?_⟩
          · have hunsound : ¬isSound (Path.split p).1 := by simpa [isSound] using h
            have hname := hasMagic_name_of_not_hasMagic_directory hmagic hmagicDir
            show lastInEach disk dirsOnly (Path.split p).2 [(Path.split p).1] = _
            rw [lastInEach, List.mapM_cons, lastIn_of_not_isSound disk dirsOnly hname hunsound]
            rfl
          · have hsound : isSound (Path.split p).1 := by simpa [isSound] using h
            exact lastInEach_of_isSound hdisk _ _ (by simpa using hsound)
    · refine ⟨fun ⟨before, after, hcut, _, _, hafter⟩ => ?_, fun _ => ?_⟩
      · rw [hcut, hasMagic_append, hasMagic_slash_cons] at hmagic
        exact absurd (.inr hafter) hmagic
      · have hone : ∀ b : Bool, (b → isSound p) → ∃ found : List Path,
            (pure (if b then [p] else []) : Except Fault (List Path)) = .ok found ∧
              ∀ q ∈ found, isSound q := fun b hb => by
          refine ⟨_, rfl, fun q hq => ?_⟩
          cases b with
          | false => simp at hq
          | true =>
            obtain rfl : q = p := by simpa using hq
            exact hb rfl
        simp only [expandWithin, hmagic, Bool.not_false, if_true]
        split
        · next hname =>
          exact hone _ fun h => isSound_of_directory hname (Bool.and_eq_true_iff.mp h).1
        · exact hone _ fun h => (Bool.and_eq_true_iff.mp h).1

/-- Nothing is added to what was found. -/
theorem expand_of_expandWithin {disk : Disk} {p : Path} {found : List Path}
    (hfound : expandWithin disk (p.length + 1) false p = .ok found) :
    ∃ kept, expand disk p = .ok kept ∧ ∀ q ∈ kept, q ∈ found := by
  rw [expand, hfound]
  rcases found with _ | ⟨_ | ⟨c, first⟩, rest⟩
  · exact ⟨[], rfl, by simp⟩
  · refine ⟨_, rfl, fun q hq => ?_⟩
    split at hq
    · exact List.mem_cons_of_mem _ hq
    · exact hq
  · exact ⟨_, rfl, fun q hq => hq⟩

/-- On a named tree the expansion of a pattern breaks down exactly if the pattern spells out
a null character in a directory before its first special character. -/
theorem expand_eq_error_iff {disk : Disk} (hdisk : disk.root.Named) {p : Path} {fault : Fault} :
    expand disk p = .error fault ↔ SpellsNull p ∧ fault = .nullCharacter := by
  obtain ⟨hbreaks, hfinds⟩ :=
    expandWithin_spec hdisk false (Nat.lt_succ_self p.length)
  by_cases h : SpellsNull p
  · have hexpand : expand disk p = .error .nullCharacter := by
      rw [expand, hbreaks h]
      rfl
    simp [hexpand, h, eq_comm]
  · obtain ⟨found, hfound, -⟩ := hfinds h
    obtain ⟨kept, hkept, -⟩ := expand_of_expandWithin hfound
    simp [hkept, h]

/-- What the expansion of a pattern finds in a named tree can be given to the system. -/
theorem isSound_of_mem_expand {disk : Disk} (hdisk : disk.root.Named) {p : Path}
    {found : List Path} (hexpand : expand disk p = .ok found) : ∀ q ∈ found, isSound q := by
  obtain ⟨hbreaks, hfinds⟩ :=
    expandWithin_spec hdisk false (Nat.lt_succ_self p.length)
  have h : ¬SpellsNull p := fun h => by
    have hstop := (expand_eq_error_iff hdisk (p := p)).mpr ⟨h, rfl⟩
    rw [hstop] at hexpand
    cases hexpand
  obtain ⟨all, hall, hsound⟩ := hfinds h
  obtain ⟨kept, hkept, hmem⟩ := expand_of_expandWithin hall
  obtain rfl : kept = found := by simpa [hkept] using hexpand
  exact fun q hq => hsound q (hmem q hq)

end Glob

end PrototypeGate

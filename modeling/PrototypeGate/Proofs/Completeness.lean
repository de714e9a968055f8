import Mathlib
import PrototypeGate.Files.Sources
import PrototypeGate.Proofs.Patterns

/-!
# Completeness of the collection

A source that is not collected is never checked, and nothing is said about it. This file shows
what is always collected. A file that an entry names is, unless the entry is a pattern that does
not match the file. A directory contributes every file below it with the ending of a header or a
source, whatever characters the names below it have, unless a name on the way is hidden; what the
path of the directory itself may look like is the condition that it matches itself.
-/

namespace PrototypeGate

namespace Glob

/-! ### Visible names -/

/-- A name that can stand in a directory and that a pattern need not spell out. -/
structure IsVisible (name : Text) : Prop where
  /-- The name does not begin with a dot. -/
  not_isHidden : ¬isHidden name
  /-- There is a name. -/
  ne_nil : name ≠ []
  /-- The name is one. -/
  slash_not_mem : '/' ∉ name

namespace IsVisible

variable {name : Text}

theorem ne_here (h : IsVisible name) : name ≠ Path.here := by
  rintro rfl
  exact h.not_isHidden rfl

theorem ne_above (h : IsVisible name) : name ≠ Path.above := by
  rintro rfl
  exact h.not_isHidden rfl

theorem not_isAbsolute (h : IsVisible name) : ¬Path.isAbsolute name :=
  Path.not_isAbsolute_of_not_mem h.slash_not_mem

/-- A visible name is its only component. -/
theorem components_eq (h : IsVisible name) : Path.components name = [name] := by
  rw [Path.components_name h.slash_not_mem, if_neg (not_or.mpr ⟨h.ne_nil, h.ne_here⟩)]

end IsVisible

/-- If no part of a path is hidden, its components are visible. -/
theorem isVisible_of_mem_components {p : Path} (hvisible : ∀ part ∈ Path.parts p, ¬isHidden part)
    {part : Text} (hpart : part ∈ Path.components p) : IsVisible part := by
  rw [Path.components, List.mem_filter, Bool.and_eq_true_iff, decide_eq_true_eq] at hpart
  obtain ⟨hmem, hempty, -⟩ := hpart
  exact ⟨hvisible part hmem, hempty, fun h =>
    (Path.ne_slash_and_mem_of_mem_parts hmem '/' h).1 rfl⟩

/-- The path through directories of these names. -/
def spell (names : List Text) : Path :=
  names.foldr joinNonempty []

/-- A path that is spelled by visible names has them as its components. -/
theorem components_spell {names : List Text} (hnames : ∀ name ∈ names, IsVisible name) :
    ¬Path.isAbsolute (spell names) ∧ Path.components (spell names) = names := by
  induction names with
  | nil => exact ⟨by decide, rfl⟩
  | cons name rest ih =>
    obtain ⟨hname, hrest⟩ := List.forall_mem_cons.mp hnames
    obtain ⟨hrelative, hcomponents⟩ := ih hrest
    change ¬Path.isAbsolute (joinNonempty name (spell rest)) ∧
      Path.components (joinNonempty name (spell rest)) = name :: rest
    rw [joinNonempty, if_neg hname.ne_nil]
    split_ifs with hend
    · rw [hend] at hcomponents
      exact ⟨hname.not_isAbsolute, by rw [hname.components_eq, ← hcomponents]; rfl⟩
    · rw [Path.isAbsolute_join name hrelative, Path.components_join name hrelative,
        hname.components_eq, hcomponents]
      exact ⟨hname.not_isAbsolute, rfl⟩

/-! ### Below a directory -/

/-- A directory is below another one if visible names lead down to it. -/
theorem spell_mem_below {t : Tree} {name : Text} {names : List Text} {entries : List (Text × Tree)}
    (hvisible : ∀ n ∈ name :: names, IsVisible n)
    (hdown : t.descend? names = some (.directory entries)) :
    spell (name :: names) ∈ below true name t := by
  induction names generalizing name t with
  | nil =>
    obtain rfl : t = .directory entries := Option.some.inj hdown
    have hname : IsVisible name := hvisible name List.mem_cons_self
    have hspell : spell [name] = name := by simp [spell, joinNonempty, hname.ne_nil]
    rw [hspell]
    exact name_mem_below hname.not_isHidden fun _ => rfl
  | cons next rest ih =>
    obtain ⟨hname, hrest⟩ := List.forall_mem_cons.mp hvisible
    obtain ⟨u, hu, hbelow⟩ := Option.bind_eq_some_iff.mp hdown
    cases t with
    | file content => cases hu
    | directory own =>
      rw [below, if_neg hname.not_isHidden]
      exact List.mem_cons_of_mem _ (mem_belowEach hu (ih hrest hbelow))

variable {disk : Disk}

/-- Two stars find every directory to which visible names lead down, and the directory itself. -/
theorem spell_mem_anyDepthIn {d : Path} {names : List Text} {found : List Path}
    {entries : List (Text × Tree)} (hd : disk.isDirectory d)
    (hvisible : ∀ name ∈ names, IsVisible name)
    (hdown : (Tree.directory (disk.listing d)).descend? names = some (.directory entries))
    (hfound : lastIn disk true anyDepth d = .ok found) : spell names ∈ found := by
  have hsound : Tree.isSound d := (Disk.isDirectory_iff.mp hd).1
  rw [lastIn, if_pos rfl, anyDepthIn, if_neg (by simp [hsound])] at hfound
  rw [← Except.ok.inj hfound]
  cases names with
  | nil => exact List.mem_append_left _ (by simp [hd, spell])
  | cons name rest =>
    obtain ⟨u, hu, hbelow⟩ := Option.bind_eq_some_iff.mp hdown
    have hmem : joinNonempty [] (spell (name :: rest)) ∈ belowEach true [] (disk.listing d) :=
      mem_belowEach hu (spell_mem_below hvisible hbelow)
    exact List.mem_append_right _ hmem

/-- A star and an ending find what has the ending and is not hidden. -/
theorem mem_lastIn_star_append {d : Path} {name ending : Text} {t : Tree} {found : List Path}
    (hlookup : (disk.listing d).lookup name = some t) (hvisible : IsVisible name)
    (hending : ending <:+ name) (hplain : '[' ∉ ending) (hone : ending ≠ ['*'])
    (hfound : lastIn disk false ('*' :: ending) d = .ok found) : name ∈ found := by
  obtain ⟨front, rfl⟩ := hending
  have hany : '*' :: ending ≠ anyDepth := fun h => hone (List.cons.inj h).2
  have hmagic : hasMagic ('*' :: ending) := by simp [hasMagic]
  rw [lastIn, if_neg hany, if_pos hmagic] at hfound
  exact mem_matchingNames hlookup (fun h => absurd h Bool.false_ne_true)
    (.inr hvisible.not_isHidden) (Pattern.accepts_star_append hplain front) hfound

end Glob

/-- What stands at a name behind components without a step up stands in a directory that is
reached downwards. -/
theorem Tree.exists_descend?_of_follow {root found : Tree} {start base names trail : List Text}
    {name : Text} (habove : Path.above ∉ names) (hname : name ≠ Path.above)
    (h : root.follow start (base ++ (names ++ [name])) = .ok (trail, found)) :
    ∃ outer own inside inner, root.follow start base = .ok (outer, .directory own) ∧
      (Tree.directory own).descend? names = some (.directory inner) ∧
      root.follow start (base ++ names) = .ok (inside, .directory inner) ∧
      inner.lookup name = some found := by
  obtain ⟨outer, top, houter, hbehind, htop⟩ := exists_follow_of_append h
  obtain ⟨own, rfl⟩ := htop (by simp)
  obtain ⟨inside, dir, hinside, hlast, -⟩ := exists_follow_of_append hbehind
  obtain ⟨inner, hinner, hfound⟩ := follow_singleton_eq_ok hname hlast
  obtain rfl : dir = .directory inner :=
    Option.some.inj ((descend?_of_follow hinside).symm.trans hinner)
  obtain ⟨t, ht, hdown⟩ := descend?_of_follow_down habove hinside
  obtain rfl : t = .directory own := Option.some.inj (ht.symm.trans (descend?_of_follow houter))
  exact ⟨outer, own, inside, inner, houter, hdown, by rw [follow_append houter, hinside], hfound⟩

namespace Disk

variable {disk : Disk}

/-- What a path leads to behind a directory stands in a directory to which visible names lead
down. -/
structure Exposes (disk : Disk) (p rel : Path) (names : List Text) : Prop where
  /-- The path begins at the directory. -/
  relative : ¬Path.isAbsolute rel
  /-- The names lead there. -/
  components_eq : Path.components rel = names ++ [(Path.split rel).2]
  /-- The names are visible. -/
  isVisible : ∀ name ∈ names, Glob.IsVisible name
  /-- The last name is visible. -/
  isVisible_name : Glob.IsVisible (Path.split rel).2
  /-- The names lead down, whatever the spelling of the directory. -/
  down : ∀ d : Path, d.SameWay p → ∃ inner,
    (Tree.directory (disk.listing d)).descend? names = some (.directory inner)
  /-- The last name is listed where the others lead. -/
  lookup : ∀ d : Path, d.start disk.work = p.start disk.work →
    Path.components d = Path.components p ++ names →
      ∃ found, (disk.listing d).lookup (Path.split rel).2 = some found

/-- What stands behind a directory is exposed by it if no part of its path is hidden and the path
ends in a name. -/
theorem exists_exposes {p rel : Path} (hrelative : ¬Path.isAbsolute rel)
    (hexists : disk.exists? (Path.join p rel))
    (hvisible : ∀ part ∈ Path.parts rel, ¬Glob.isHidden part) (hempty : (Path.split rel).2 ≠ []) :
    ∃ names, disk.Exposes p rel names := by
  obtain ⟨-, found, hlocate⟩ := exists?_iff.mp hexists
  obtain ⟨trail, hfollow⟩ := follow_of_locate hlocate
  have hhere : (Path.split rel).2 ≠ Path.here := by
    obtain ⟨before, hparts, -⟩ := Path.exists_parts_eq_append_name rel
    have hlast : ¬Glob.isHidden (Path.split rel).2 := hvisible _ (by simp [hparts])
    exact fun h => hlast (by rw [h]; rfl)
  have hcomponents := Path.components_eq_append_name hempty hhere
  have hall : ∀ part ∈ Path.components rel, Glob.IsVisible part := fun part =>
    Glob.isVisible_of_mem_components hvisible
  rw [hcomponents, List.forall_mem_append, List.forall_mem_singleton] at hall
  obtain ⟨hnames, hname⟩ := hall
  rw [Path.start_join _ p hrelative, Path.components_join p hrelative, hcomponents] at hfollow
  obtain ⟨outer, own, inside, inner, houter, hdown, hinside, hlookup⟩ :=
    Tree.exists_descend?_of_follow (fun h => (hnames _ h).ne_above rfl) hname.ne_above hfollow
  refine ⟨_, hrelative, hcomponents, hnames, hname, fun d hd => ⟨inner, ?_⟩,
    fun d hstart hcomps => ⟨found, ?_⟩⟩
  · rwa [listing_of_follow (hd.start_eq _ ▸ hd.components_eq ▸ houter)]
  · rwa [listing_of_follow (hstart ▸ hcomps ▸ hinside)]

end Disk

namespace Glob

variable {disk : Disk}

/-! ### Whole directories -/

/-- The directories that a path with two stars behind it stands for include those in which the
path exposes something. -/
theorem exists_mem_expandWithin_anyDepth {fuel : Nat} {p rel : Path} {names : List Text}
    {dirs : List Path} (hself : p.MatchesItself) (hp : disk.isDirectory p)
    (hexposes : disk.Exposes p rel names) (hfuel : (Path.join p anyDepth).length ≤ fuel)
    (hdirs : expandWithin disk (fuel + 1) true (Path.join p anyDepth) = .ok dirs) :
    ∃ d : Path, d.SameWay p ∧ Path.join d (spell names) ∈ dirs := by
  have hne : p ≠ [] := Disk.ne_nil_of_exists? (Disk.exists?_of_isDirectory hp)
  obtain ⟨hway, hname⟩ := Path.split_join hne (by decide : '/' ∉ anyDepth)
  have hdir : (Path.split (Path.join p anyDepth)).1 ≠ [] := fun h => hne (hway.eq_nil_iff.mp h)
  have hspecial : hasMagic (Path.split (Path.join p anyDepth)).1 → ∀ outer,
      expandWithin disk fuel true (Path.split (Path.join p anyDepth)).1 = .ok outer →
        ∃ d ∈ outer, d.SameWay p := by
    intro hmagicDir outer houter
    have hshorter := length_directory_lt_of_hasMagic hmagicDir
    have hdirectory := Disk.isDirectory_of_sameWay hway hp
    obtain ⟨d, hd, halike⟩ := exists_alike_mem_expandWithin (by omega) (hself.of_sameWay hway)
      (Disk.exists?_of_isDirectory hdirectory) (fun _ => hdirectory) houter
    exact ⟨d, hd, halike.toSameWay.trans hway⟩
  obtain ⟨d, found, hd, hfound, hmem⟩ :=
    exists_lastIn_of_expandWithin (Path.SameWay · p)
      (hasMagic_join_of_hasMagic (by decide : hasMagic anyDepth) p) hdir (fun _ => hway)
      hspecial hdirs
  rw [hname] at hfound
  obtain ⟨inner, hdown⟩ := hexposes.down d hd
  have hdirectory := Disk.isDirectory_of_sameWay hd hp
  exact ⟨d, hd, hmem _ (spell_mem_anyDepthIn hdirectory hexposes.isVisible hdown hfound)⟩

/-- Only the empty path is dropped from what was found. -/
theorem exists_expandWithin_of_expand {p : Path} {kept : List Path}
    (hkept : expand disk p = .ok kept) :
    ∃ found, expandWithin disk (p.length + 1) false p = .ok found ∧
      ∀ q ∈ found, q ≠ [] → q ∈ kept := by
  obtain ⟨found, hfound, hkept⟩ := exists_of_bind_eq_ok hkept
  refine ⟨found, hfound, fun q hq hne => ?_⟩
  rcases found with _ | ⟨_ | ⟨c, first⟩, rest⟩
  · cases hq
  · have hrest : q ∈ rest := (List.mem_cons.mp hq).resolve_left hne
    obtain rfl := Except.ok.inj hkept
    split_ifs
    · exact hrest
    · exact hq
  · obtain rfl := Except.ok.inj hkept
    exact hq

end Glob

namespace Sources

variable {disk : Disk}

/-! ### Directories -/

/-- The pattern for everything below a directory that has the ending. -/
def endingPattern (dir : Path) (ending : Text) : Path :=
  Path.join (Path.join dir Glob.anyDepth) ('*' :: ending)

/-- The pattern for an ending asks for it in the directories that two stars find. -/
theorem expandWithin_endingPattern (disk : Disk) {p : Path} {ending : Text} (hp : p ≠ [])
    (hending : '/' ∉ ending) :
    ∃ fuel, (Path.join p Glob.anyDepth).length ≤ fuel ∧
      Glob.expandWithin disk ((endingPattern p ending).length + 1) false (endingPattern p ending) =
        Glob.expandWithin disk (fuel + 1) true (Path.join p Glob.anyDepth) >>=
          Glob.lastInEach disk false ('*' :: ending) := by
  have hlast : ¬Path.hasTrailingSlash (Path.join p Glob.anyDepth) := by
    rw [Path.hasTrailingSlash_join hp (by decide)]
    decide
  have hsplit : Path.split (endingPattern p ending) = (Path.join p Glob.anyDepth, '*' :: ending) :=
    Path.split_join_of_not_hasTrailingSlash (Path.join_ne_nil hp _) hlast
      (List.not_mem_cons_of_ne_of_not_mem (by decide) hending)
  have hmagic : hasMagic (endingPattern p ending) :=
    hasMagic_join_of_hasMagic (by simp [hasMagic]) _
  have hmagicDir : hasMagic (Path.join p Glob.anyDepth) :=
    hasMagic_join_of_hasMagic (by decide : hasMagic Glob.anyDepth) p
  have hdir : Path.join p Glob.anyDepth ≠ [] := Path.join_ne_nil hp _
  generalize endingPattern p ending = pattern at *
  generalize Path.join p Glob.anyDepth = stars at *
  have hfirst : (Path.split pattern).1 = stars := congrArg Prod.fst hsplit
  have hsecond : (Path.split pattern).2 = '*' :: ending := congrArg Prod.snd hsplit
  have hshorter := length_directory_lt_of_hasMagic (p := pattern) (by rwa [hfirst])
  rw [hfirst] at hshorter
  have hne : stars ≠ pattern := fun h => by
    rw [h] at hshorter
    omega
  refine ⟨pattern.length - 1, by omega, ?_⟩
  rw [Nat.sub_add_cancel (by omega), Glob.expandWithin_of_directory_ne_nil disk _ _ hmagic
    (by rwa [hfirst]), hfirst, hsecond, if_pos ⟨hne, hmagicDir⟩]

/-- What a directory contributes is found by its ending in the directories that two stars
find. -/
theorem exists_lastIn_of_withEnding (good : Path → Prop) {p : Path} {ending : Text}
    {found : List Path} (hp : p ≠ []) (hending : '/' ∉ ending)
    (hdirs : ∀ fuel dirs, (Path.join p Glob.anyDepth).length ≤ fuel →
      Glob.expandWithin disk (fuel + 1) true (Path.join p Glob.anyDepth) = .ok dirs →
        ∃ d ∈ dirs, good d)
    (hfound : withEnding disk p ending = .ok found) :
    ∃ d names, good d ∧ Glob.lastIn disk false ('*' :: ending) d = .ok names ∧
      ∀ q ∈ names, Path.join d q ≠ [] → Path.join d q ∈ found := by
  obtain ⟨kept, hkept, rfl⟩ := exists_of_map_eq_ok hfound
  obtain ⟨all, hall, hkeep⟩ := Glob.exists_expandWithin_of_expand hkept
  obtain ⟨fuel, hfuel, hexpand⟩ := expandWithin_endingPattern disk hp hending
  obtain ⟨dirs, hstars, heach⟩ := exists_of_bind_eq_ok (hexpand.symm.trans hall)
  obtain ⟨d, hd, hgood⟩ := hdirs fuel dirs hfuel hstars
  obtain ⟨names, hnames, hmem⟩ := Glob.exists_lastIn_of_lastInEach heach hd
  exact ⟨d, names, hgood, hnames, fun q hq hne =>
    List.mem_mergeSort.mpr (hkeep _ (hmem q hq) hne)⟩

/-- A directory that matches itself contributes everything below it that has the ending, unless
a name on the way is hidden. -/
theorem exists_mem_withEnding {p rel : Path} {ending : Text} {found : List Path}
    (hself : p.MatchesItself) (hp : disk.isDirectory p) (hrelative : ¬Path.isAbsolute rel)
    (hexists : disk.exists? (Path.join p rel))
    (hvisible : ∀ part ∈ Path.parts rel, ¬Glob.isHidden part)
    (hending : ending <:+ (Path.split rel).2) (hplain : '[' ∉ ending ∧ '/' ∉ ending)
    (hproper : ending ≠ [] ∧ ending ≠ ['*']) (hfound : withEnding disk p ending = .ok found) :
    ∃ q ∈ found, disk.place q = disk.place (Path.join p rel) := by
  have hne : p ≠ [] := Disk.ne_nil_of_exists? (Disk.exists?_of_isDirectory hp)
  have hempty : (Path.split rel).2 ≠ [] := fun h => hproper.1 (List.suffix_nil.mp (h ▸ hending))
  obtain ⟨names, hexposes⟩ := Disk.exists_exposes hrelative hexists hvisible hempty
  obtain ⟨hspell, hspelled⟩ := Glob.components_spell hexposes.isVisible
  obtain ⟨-, files, ⟨d, hd, rfl⟩, hfiles, hmem⟩ := exists_lastIn_of_withEnding
    (fun e => ∃ d : Path, d.SameWay p ∧ Path.join d (Glob.spell names) = e) hne hplain.2
    (fun fuel dirs hfuel hdirs => by
      obtain ⟨d, hd, hmem⟩ :=
        Glob.exists_mem_expandWithin_anyDepth hself hp hexposes hfuel hdirs
      exact ⟨_, hmem, d, hd, rfl⟩) hfound
  -- It is listed in the directory that the two stars found.
  have hdne : d ≠ [] := fun h => hne (hd.eq_nil_iff.mp h)
  have hdir : Path.join d (Glob.spell names) ≠ [] := Path.join_ne_nil hdne _
  have hstart : Path.start disk.work (Path.join d (Glob.spell names)) = p.start disk.work := by
    rw [Path.start_join _ d hspell, hd.start_eq]
  have hcomponents :
      Path.components (Path.join d (Glob.spell names)) = Path.components p ++ names := by
    rw [Path.components_join d hspell, hspelled, hd.components_eq]
  obtain ⟨t, hlookup⟩ := hexposes.lookup _ hstart hcomponents
  have hname := hexposes.isVisible_name
  have hmemName := Glob.mem_lastIn_star_append hlookup hname hending hplain.1 hproper.2 hfiles
  refine ⟨_, hmem _ hmemName (Path.join_ne_nil hdir _), ?_⟩
  rw [Disk.place, Disk.place, Path.place, Path.place, Path.start_join _ _ hname.not_isAbsolute,
    hstart, Path.start_join _ p hrelative, Path.hasDoubleRoot_join _ hname.not_isAbsolute,
    Path.hasDoubleRoot_join d hspell, hd.hasDoubleRoot_eq, Path.hasDoubleRoot_join p hrelative,
    Path.components_join _ hname.not_isAbsolute, hcomponents, hname.components_eq,
    Path.components_join p hrelative, hexposes.components_eq, List.append_assoc]

/-! ### All entries -/

/-- Of several paths to one place one is kept. -/
theorem exists_mem_dropRepeats {seen : List (Bool × List Text)} {paths : List Path} {p : Path}
    (hp : p ∈ paths) :
    disk.place p ∈ seen ∨ ∃ q ∈ dropRepeats disk seen paths, disk.place q = disk.place p := by
  induction paths generalizing seen with
  | nil => cases hp
  | cons first rest ih =>
    rw [dropRepeats]
    split_ifs with hseen
    · rcases List.mem_cons.mp hp with rfl | hp
      · exact .inl hseen
      · exact ih hp
    · rcases List.mem_cons.mp hp with rfl | hp
      · exact .inr ⟨p, List.mem_cons_self, rfl⟩
      · rcases ih hp with hplace | ⟨q, hq, hplace⟩
        · rcases List.mem_cons.mp hplace with hfirst | hplace
          · exact .inr ⟨first, List.mem_cons_self, hfirst.symm⟩
          · exact .inl hplace
        · exact .inr ⟨q, List.mem_cons_of_mem _ hq, hplace⟩

/-- What an entry stands for is collected, perhaps by another path to the place. -/
theorem exists_mem_collect {entries : List Path} {base : Path} {paths : List Path}
    (hpaths : collect disk entries base = .ok paths) {entry : Path} (hentry : entry ∈ entries) :
    ∃ files, expandEntry disk base entry = .ok files ∧
      ∀ q ∈ files, ∃ kept ∈ paths, disk.place kept = disk.place q := by
  obtain ⟨found, hfound, rfl⟩ := exists_of_map_eq_ok hpaths
  obtain ⟨files, hfiles, hexpand⟩ := exists_mem_of_mapM_eq_ok hfound hentry
  refine ⟨files, hexpand, fun q hq => ?_⟩
  have hmem : q ∈ found.flatten := List.mem_flatten.mpr ⟨files, hfiles, hq⟩
  exact (exists_mem_dropRepeats hmem).resolve_left List.not_mem_nil

/-- An entry that names a file stands for it, unless it is a pattern that the path does not
match. -/
theorem exists_mem_expandEntry_of_isFile {base entry : Path} {files : List Path}
    (hfile : disk.isFile (resolve base entry))
    (hentry : ¬hasMagic entry ∨ (resolve base entry).MatchesItself)
    (hfiles : expandEntry disk base entry = .ok files) :
    ∃ q ∈ files, disk.place q = disk.place (resolve base entry) := by
  generalize hp : resolve base entry = p at *
  by_cases hmagic : hasMagic entry
  · have hself : p.MatchesItself := hentry.resolve_left (not_not.mpr hmagic)
    simp only [expandEntry, hp, hmagic, if_true] at hfiles
    obtain ⟨kept, hkept, rfl⟩ :=
      exists_of_map_eq_ok (eq_ok_of_mapError_eq_ok hfiles)
    obtain ⟨found, hfound, hkeep⟩ := Glob.exists_expandWithin_of_expand hkept
    have hexists : disk.exists? p := Disk.exists?_of_isFile hfile
    obtain ⟨q, hq, halike⟩ := Glob.exists_alike_mem_expandWithin (Nat.lt_succ_self _) hself
      hexists (fun h => absurd h Bool.false_ne_true) hfound
    have hne : q ≠ [] := fun hnil => Disk.ne_nil_of_exists? hexists (halike.eq_nil_iff.mp hnil)
    refine ⟨q, List.mem_filter.mpr ⟨List.mem_mergeSort.mpr (hkeep q hq hne), ?_⟩,
      halike.toSameWay.place_eq _⟩
    rwa [Disk.isFile_of_alike halike]
  · have hdir : ¬disk.isDirectory p := Disk.not_isDirectory_of_isFile hfile
    simp only [expandEntry, hp, hmagic, hdir, hfile, Bool.false_eq_true, if_true,
      if_false] at hfiles
    rw [← Except.ok.inj hfiles]
    exact ⟨p, List.mem_singleton_self p, rfl⟩

/-- An entry that names a directory stands for the files below it with either ending. -/
theorem exists_mem_expandEntry_of_isDirectory {base entry : Path} {files : List Path}
    (hdir : disk.isDirectory (resolve base entry)) (hentry : ¬hasMagic entry)
    (hself : (resolve base entry).MatchesItself)
    (hfiles : expandEntry disk base entry = .ok files) {rel : Path}
    (hrelative : ¬Path.isAbsolute rel) (hfile : disk.isFile (Path.join (resolve base entry) rel))
    (hvisible : ∀ part ∈ Path.parts rel, ¬Glob.isHidden part)
    (hending : ∃ ending ∈ [".h".toList, ".c".toList], ending <:+ (Path.split rel).2) :
    ∃ q ∈ files, disk.place q = disk.place (Path.join (resolve base entry) rel) := by
  generalize hp : resolve base entry = p at *
  simp only [expandEntry, hp, hentry, hdir, Bool.false_eq_true, if_true, if_false] at hfiles
  obtain ⟨headers, hheaders, hrest⟩ :=
    exists_of_bind_eq_ok (eq_ok_of_mapError_eq_ok hfiles)
  obtain ⟨sources, hsources, hboth⟩ := exists_of_bind_eq_ok hrest
  obtain rfl : headers ++ sources = files := Except.ok.inj hboth
  have hexists := Disk.exists?_of_isFile hfile
  obtain ⟨ending, hmem, hending⟩ := hending
  rcases List.mem_pair.mp hmem with rfl | rfl
  · obtain ⟨q, hq, hplace⟩ := exists_mem_withEnding hself hdir hrelative hexists hvisible
      hending (by decide) (by decide) hheaders
    exact ⟨q, List.mem_append_left _ hq, hplace⟩
  · obtain ⟨q, hq, hplace⟩ := exists_mem_withEnding hself hdir hrelative hexists hvisible
      hending (by decide) (by decide) hsources
    exact ⟨q, List.mem_append_right _ hq, hplace⟩

/-- The collection is complete. Whenever it succeeds, every file that an entry names is in it,
unless the entry is a pattern and the path does not match itself. For every entry without special
characters that names a directory, and of which every component matches itself, every file below
the directory is in it whose name ends as that of a header or a source, unless a name on the way
begins with a dot. -/
theorem collect_complete {entries : List Path} {base : Path} {paths : List Path}
    (hpaths : collect disk entries base = .ok paths) :
    ∀ entry ∈ entries,
      (disk.isFile (resolve base entry) →
        ¬hasMagic entry ∨ (resolve base entry).MatchesItself →
          ∃ q ∈ paths, disk.place q = disk.place (resolve base entry)) ∧
      (disk.isDirectory (resolve base entry) → ¬hasMagic entry →
        (resolve base entry).MatchesItself →
          ∀ rel, ¬Path.isAbsolute rel → disk.isFile (Path.join (resolve base entry) rel) →
            (∀ part ∈ Path.parts rel, ¬Glob.isHidden part) →
            (∃ ending ∈ [".h".toList, ".c".toList], ending <:+ (Path.split rel).2) →
              ∃ q ∈ paths, disk.place q = disk.place (Path.join (resolve base entry) rel)) := by
  intro entry hentry
  obtain ⟨files, hfiles, hkept⟩ := exists_mem_collect hpaths hentry
  constructor
  · intro hfile hself
    obtain ⟨q, hq, hplace⟩ := exists_mem_expandEntry_of_isFile hfile hself hfiles
    obtain ⟨kept, hmem, hkept⟩ := hkept q hq
    exact ⟨kept, hmem, hkept.trans hplace⟩
  · intro hdir hplain hself rel hrelative hfile hvisible hending
    obtain ⟨q, hq, hplace⟩ := exists_mem_expandEntry_of_isDirectory hdir hplain hself hfiles
      hrelative hfile hvisible hending
    obtain ⟨kept, hmem, hkept⟩ := hkept q hq
    exact ⟨kept, hmem, hkept.trans hplace⟩

/-- A base directory with a bracket that is not closed matches itself, also if it is given by its
way from the root. So a directory in it contributes a file whose own name and directory have
special characters, and a file in it is found that is given as a pattern. -/
theorem collect_below_special_names :
    let disk : Disk := ⟨.directory [("s[".toList, .directory [
      ("src".toList, .directory [("d[1]".toList, .directory [("*.c".toList, .file [])])]),
      ("a?.c".toList, .file [])])], ["s[".toList, "src".toList]⟩
    let base := "/s[".toList
    let paths := ["/s[/src/d[1]/*.c".toList, "/s[/a?.c".toList]
    let dir := resolve base "src".toList
    let file := resolve base "a?.c".toList
    let rel := "d[1]/*.c".toList
    collect disk ["src".toList, "a?.c".toList] base = .ok paths ∧
      disk.isFile file ∧ Path.MatchesItself file ∧
      disk.isDirectory dir ∧ ¬hasMagic "src".toList ∧ Path.MatchesItself dir ∧
      ¬Path.isAbsolute rel ∧ disk.isFile (Path.join dir rel) ∧
      (∀ part ∈ Path.parts rel, ¬Glob.isHidden part) ∧ ".c".toList <:+ (Path.split rel).2 ∧
      (∃ q ∈ paths, disk.place q = disk.place file) ∧
      (∃ q ∈ paths, disk.place q = disk.place (Path.join dir rel)) ∧
      disk.place (Path.join dir rel) = disk.place rel := by
  intro disk base paths dir file rel
  have hself : Path.MatchesItself dir := List.all_eq_true.mp (by cbv)
  have hselfFile : Path.MatchesItself file := List.all_eq_true.mp (by cbv)
  have hpaths : collect disk ["src".toList, "a?.c".toList] base = .ok paths := by cbv
  have hfile : disk.isFile file := by decide +kernel
  have hdir : disk.isDirectory dir := by decide +kernel
  have hbelow : disk.isFile (Path.join dir rel) := by decide +kernel
  have hvisible : ∀ part ∈ Path.parts rel, ¬Glob.isHidden part := by decide +kernel
  have hending : ".c".toList <:+ (Path.split rel).2 := by decide +kernel
  have hplain : ¬hasMagic "src".toList := by decide
  have hrelative : ¬Path.isAbsolute rel := by decide
  have hcomplete := collect_complete hpaths
  have hfirst := (hcomplete "a?.c".toList (by simp)).1 hfile (.inr hselfFile)
  have hsecond := (hcomplete "src".toList (by simp)).2 hdir hplain hself rel hrelative
    hbelow hvisible ⟨".c".toList, by simp, hending⟩
  exact ⟨hpaths, hfile, hselfFile, hdir, hplain, hself, hrelative, hbelow, hvisible, hending,
    hfirst, hsecond, by decide +kernel⟩

/-- A file and a directory with brackets in their names, below the working directory. -/
def bracketDisk : Disk :=
  ⟨.directory [("w".toList, .directory [("a[1].c".toList, .file []),
    ("d[1]".toList, .directory [("b.c".toList, .file []),
      ("src".toList, .directory [("c.c".toList, .file [])])])])], ["w".toList]⟩

/-- An entry with brackets stands for the files that it matches as a pattern, so neither a file
nor a directory of this name is collected. Nor is a directory collected in a base directory with
brackets, although a file in it is. -/
theorem entries_with_brackets_left_out :
    let file := resolve Path.here "a[1].c".toList
    let dir := resolve Path.here "/w/d[1]".toList
    let below := resolve "d[1]".toList "src".toList
    (bracketDisk.isFile file ∧ collect bracketDisk ["a[1].c".toList] Path.here = .ok []) ∧
      (bracketDisk.isDirectory dir ∧ bracketDisk.isFile (Path.join dir "b.c".toList) ∧
        collect bracketDisk ["/w/d[1]".toList] Path.here = .ok []) ∧
      bracketDisk.isDirectory below ∧ bracketDisk.isFile (Path.join below "c.c".toList) ∧
        collect bracketDisk ["b.c".toList, "src".toList] "d[1]".toList =
          .ok ["d[1]/b.c".toList] := by
  intro file dir below
  exact ⟨⟨by decide +kernel, by cbv⟩, ⟨by decide +kernel, by decide +kernel, by cbv⟩,
    by decide +kernel, by decide +kernel, by cbv⟩

end Sources

end PrototypeGate

import PrototypeGate.Proofs.Spellings

/-!
# Paths that match themselves

A path may be given as a pattern, and it may have special characters without being meant as one.
A path of which every component matches itself is found by its own expansion, perhaps among other
paths and in another spelling: each step of the expansion is followed with the spelling that the
step before it has found. A component without brackets always matches itself.
-/

namespace PrototypeGate

/-! ### Names that match themselves -/

namespace Pattern

/-- A star may stand for nothing. -/
theorem matchesItems_any {items : List PatternItem} {name : Text}
    (h : matchesItems items name = true) : matchesItems (.any :: items) name = true := by
  cases name <;> simp [matchesItems, h]

/-- A star may stand for any text. -/
theorem matchesItems_any_append {items : List PatternItem} {name : Text}
    (h : matchesItems items name = true) (front : Text) :
    matchesItems (.any :: items) (front ++ name) = true := by
  induction front with
  | nil => exact matchesItems_any h
  | cons c front ih => simp [matchesItems, ih]

/-- A single character matches itself. -/
theorem holds_single (c : Char) : (single c).holds c = true := by
  simp [single, CharSet.holds]

/-- The set of all characters holds each of them. -/
theorem holds_everything (c : Char) : everything.holds c = true := by
  simp [everything, CharSet.holds]

/-- A text without brackets matches itself. -/
theorem matchesItems_self {t : Text} (ht : '[' ∉ t) {fuel : Nat} (hfuel : t.length < fuel) :
    matchesItems (items fuel t) t = true := by
  induction t generalizing fuel with
  | nil =>
    obtain ⟨fuel, rfl⟩ := Nat.exists_eq_add_of_lt hfuel
    simp [items, matchesItems]
  | cons c rest ih =>
    obtain ⟨hc, hrest⟩ := List.ne_and_not_mem_of_not_mem_cons ht
    obtain ⟨fuel, rfl⟩ : ∃ more, fuel = more + 1 := ⟨fuel - 1, by omega⟩
    have hself : matchesItems (items fuel rest) rest = true := ih hrest (by simpa using hfuel)
    by_cases hstar : c = '*'
    · have hmore := matchesItems_any_append hself [c]
      simpa [items, hstar] using hmore
    · by_cases hmark : c = '?'
      · simp [items, hmark, matchesItems, hself, holds_everything]
      · simp [items, hstar, hmark, Ne.symm hc, matchesItems, hself, holds_single]

/-- A name without brackets matches itself as a pattern. -/
theorem accepts_self {name : Text} (h : '[' ∉ name) : accepts name name = true :=
  matchesItems_self h (Nat.lt_succ_self _)

/-- A star in front of an ending stands for every name with the ending. -/
theorem accepts_star_append {ending : Text} (h : '[' ∉ ending) (front : Text) :
    accepts ('*' :: ending) (front ++ ending) = true := by
  have hself : matchesItems (items (ending.length + 1) ending) ending = true := accepts_self h
  simpa [accepts, items] using matchesItems_any_append hself front

end Pattern

/-- A continued path has a special character if the continuation does. -/
theorem hasMagic_join_of_hasMagic {q : Path} (hq : hasMagic q) (p : Path) :
    hasMagic (Path.join p q) := by
  have hslash : hasMagic ('/' :: q) := by simpa [hasMagic] using hq
  unfold Path.join
  split_ifs
  · exact hq
  · exact hasMagic_append.mpr (.inr hq)
  · exact hasMagic_append.mpr (.inr hslash)

/-- Every component of the path matches itself as a pattern. -/
def Path.MatchesItself (p : Path) : Prop :=
  ∀ part ∈ Path.components p, Pattern.accepts part part = true

/-- A path without brackets matches itself. -/
theorem Path.matchesItself_of_not_mem {p : Path} (hp : '[' ∉ p) : p.MatchesItself := by
  intro part hpart
  have hmem : part ∈ parts p := (List.mem_filter.mp hpart).1
  exact Pattern.accepts_self fun h => hp (ne_slash_and_mem_of_mem_parts hmem '[' h).2

/-- A path matches itself together with its other spellings. -/
theorem Path.MatchesItself.of_sameWay {q p : Path} (hp : p.MatchesItself) (h : q.SameWay p) :
    q.MatchesItself := by
  rwa [MatchesItself, h.components_eq]

/-- A continued path matches itself exactly if both parts do. -/
theorem Path.matchesItself_join_iff {d q : Path} (hq : ¬isAbsolute q) :
    (join d q).MatchesItself ↔ d.MatchesItself ∧ q.MatchesItself := by
  rw [MatchesItself, components_join d hq]
  exact List.forall_mem_append

namespace Glob

/-! ### Last components -/

/-- An entry that is not hidden is among what is below its directory. -/
theorem name_mem_below {dirsOnly : Bool} {name : Text} (hname : ¬isHidden name) {t : Tree}
    (hbranch : dirsOnly → isBranch t) : name ∈ below dirsOnly name t := by
  cases t with
  | file content =>
    have hall : ¬dirsOnly := fun h => absurd (hbranch h) (by simp [isBranch])
    simp [below, hall, hname]
  | directory entries => simp [below, hname]

/-- What is below an entry is below its directory. -/
theorem mem_belowEach {dirsOnly : Bool} {dir : Path} {entries : List (Text × Tree)} {name : Text}
    {t : Tree} (hentry : entries.lookup name = some t) {q : Path}
    (hq : q ∈ below dirsOnly name t) : joinNonempty dir q ∈ belowEach dirsOnly dir entries := by
  induction entries with
  | nil => cases hentry
  | cons entry rest ih =>
    obtain ⟨other, u⟩ := entry
    rw [belowEach, List.mem_append]
    by_cases hother : name = other
    · subst hother
      obtain rfl : u = t := by simpa using hentry
      exact .inl (List.mem_map_of_mem hq)
    · rw [List.lookup_cons, beq_false_of_ne hother] at hentry
      exact .inr (ih hentry)

variable {disk : Disk}

/-- What stands at a special name is listed by its directory; it is a directory if the path
names one. -/
private theorem lookup_listing_of_hasMagic {name : Text} {d : Path} (hname : '/' ∉ name)
    (hmagic : hasMagic name) (hexists : disk.exists? (Path.join d name)) {dirsOnly : Bool}
    (hdirs : dirsOnly → disk.isDirectory (Path.join d name)) :
    ∃ t, (disk.listing d).lookup name = some t ∧ (dirsOnly → isBranch t) := by
  have hproper : name ≠ [] ∧ name ≠ Path.here ∧ name ≠ Path.above := by
    refine ⟨?_, ?_, ?_⟩ <;>
      · rintro rfl
        exact absurd hmagic (by decide)
  obtain ⟨t, hlookup, hlocate⟩ := Disk.lookup_listing_of_exists?_join hname hproper hexists
  refine ⟨t, hlookup, fun h => ?_⟩
  obtain ⟨-, entries, hentries⟩ := Disk.isDirectory_iff.mp (hdirs h)
  obtain rfl : t = .directory entries := Except.ok.inj (hlocate.symm.trans hentries)
  rfl

/-- A pattern finds what a directory lists under a name that it accepts, unless the name is hidden
and the pattern does not say so. -/
theorem mem_matchingNames {dirsOnly : Bool} {d : Path} {pattern name : Text} {t : Tree}
    {names : List Text} (hlookup : (disk.listing d).lookup name = some t)
    (hbranch : dirsOnly → isBranch t) (hhidden : isHidden pattern ∨ ¬isHidden name)
    (haccepts : Pattern.accepts pattern name = true)
    (hnames : matchingNames disk dirsOnly d pattern = .ok names) : name ∈ names := by
  obtain ⟨all, hall, rfl⟩ := exists_of_map_eq_ok hnames
  rw [Glob.names] at hall
  split_ifs at hall
  rw [← Except.ok.inj hall]
  have hmem : (name, t) ∈ disk.listing d := by
    obtain ⟨before, after, hlisting, -⟩ := List.lookup_eq_some_iff.mp hlookup
    simp [hlisting]
  have hkept : (!dirsOnly || isBranch t) = true := by
    cases dirsOnly with
    | false => rfl
    | true => exact hbranch rfl
  have hlisted : (name, t) ∈ (disk.listing d).filter fun entry => !dirsOnly || isBranch entry.2 :=
    List.mem_filter.mpr ⟨hmem, hkept⟩
  exact List.mem_filter.mpr ⟨List.mem_map_of_mem hlisted, by simpa [haccepts] using hhidden⟩

/-- A plain name finds what stands at it. -/
theorem mem_literalIn {d : Path} {name : Text} (hname : '/' ∉ name)
    (hexists : disk.exists? (Path.join d name)) : name ∈ literalIn disk d name := by
  by_cases hempty : name = []
  · subst hempty
    have hd : d ≠ [] := by
      rintro rfl
      cases hexists
    rw [literalIn, if_pos rfl, if_pos (Disk.isDirectory_of_exists?_join hd hname hexists)]
    exact List.mem_singleton_self _
  · have hjoin : joinNonempty d name = Path.join d name := by
      by_cases hd : d = []
      · rw [joinNonempty, if_pos hd, hd, Path.join_nil_left (Path.not_isAbsolute_of_not_mem hname)]
      · rw [joinNonempty, if_neg hd, if_neg hempty]
    rw [literalIn, if_neg hempty, hjoin, if_pos hexists]
    exact List.mem_singleton_self name

/-- A name finds what stands at it if it matches itself. -/
theorem mem_lastIn {dirsOnly : Bool} {name : Text} {d : Path} {names : List Path}
    (hname : '/' ∉ name) (hself : Path.MatchesItself name)
    (hexists : disk.exists? (Path.join d name))
    (hdirs : dirsOnly → disk.isDirectory (Path.join d name))
    (hnames : lastIn disk dirsOnly name d = .ok names) : name ∈ names := by
  by_cases hmagic : hasMagic name
  · obtain ⟨t, hlookup, hbranch⟩ := lookup_listing_of_hasMagic hname hmagic hexists hdirs
    by_cases hany : name = anyDepth
    · -- Two stars find everything that is not hidden, so also what has this name.
      subst hany
      have hmem : joinNonempty [] anyDepth ∈ belowEach dirsOnly [] (disk.listing d) :=
        mem_belowEach hlookup (name_mem_below (by decide) hbranch)
      rw [lastIn, if_pos rfl, anyDepthIn] at hnames
      split at hnames
      · cases hnames
      · rw [← Except.ok.inj hnames]
        exact List.mem_append_right _ hmem
    · have haccepts : Pattern.accepts name name = true := by
        refine hself name ?_
        rw [Path.components_name hname, if_neg]
        · exact List.mem_singleton_self name
        · rintro (rfl | rfl) <;> exact absurd hmagic (by decide)
      rw [lastIn, if_neg hany, if_pos hmagic] at hnames
      exact mem_matchingNames hlookup hbranch (Decidable.em _) haccepts hnames
  · have hany : name ≠ anyDepth := fun h => hmagic (h ▸ rfl)
    rw [lastIn, if_neg hany, if_neg hmagic] at hnames
    rw [← Except.ok.inj hnames]
    exact mem_literalIn hname hexists

/-! ### Whole patterns -/

/-- What a last component stands for in one of the directories is found behind it. -/
theorem exists_lastIn_of_lastInEach {dirsOnly : Bool} {name : Text} {dirs found : List Path}
    (h : lastInEach disk dirsOnly name dirs = .ok found) {d : Path} (hd : d ∈ dirs) :
    ∃ names, lastIn disk dirsOnly name d = .ok names ∧ ∀ q ∈ names, Path.join d q ∈ found := by
  obtain ⟨founds, hfounds, h⟩ := exists_of_bind_eq_ok h
  obtain rfl : founds.flatten = found := Except.ok.inj h
  obtain ⟨paths, hpaths, hlast⟩ := exists_mem_of_mapM_eq_ok hfounds hd
  obtain ⟨names, hnames, rfl⟩ := exists_of_map_eq_ok hlast
  exact ⟨names, hnames, fun q hq => List.mem_flatten.mpr ⟨_, hpaths, List.mem_map_of_mem hq⟩⟩

/-- What the name of a pattern stands for in a directory is found behind the directory, if the
directory is among those that the directory part stands for. -/
theorem exists_lastIn_of_expandWithin (good : Path → Prop) {fuel : Nat} {dirsOnly : Bool}
    {p : Path} {found : List Path} (hmagic : hasMagic p) (hdir : (Path.split p).1 ≠ [])
    (hplain : ¬hasMagic (Path.split p).1 → good (Path.split p).1)
    (hspecial : hasMagic (Path.split p).1 → ∀ dirs,
      expandWithin disk fuel true (Path.split p).1 = .ok dirs → ∃ d ∈ dirs, good d)
    (hfound : expandWithin disk (fuel + 1) dirsOnly p = .ok found) :
    ∃ d names, good d ∧ lastIn disk dirsOnly (Path.split p).2 d = .ok names ∧
      ∀ q ∈ names, Path.join d q ∈ found := by
  rw [expandWithin_of_directory_ne_nil disk fuel dirsOnly hmagic hdir] at hfound
  obtain ⟨dirs, hdirs, heach⟩ := exists_of_bind_eq_ok hfound
  obtain ⟨d, hd, hgood⟩ : ∃ d ∈ dirs, good d := by
    by_cases hmagicDir : hasMagic (Path.split p).1
    · have hne : (Path.split p).1 ≠ p := fun h => by
        have hshorter := length_directory_lt_of_hasMagic hmagicDir
        rw [h] at hshorter
        omega
      rw [if_pos ⟨hne, hmagicDir⟩] at hdirs
      exact hspecial hmagicDir dirs hdirs
    · rw [if_neg fun h => hmagicDir h.2] at hdirs
      obtain rfl := Except.ok.inj hdirs
      exact ⟨_, List.mem_singleton_self _, hplain hmagicDir⟩
  obtain ⟨names, hnames, hmem⟩ := exists_lastIn_of_lastInEach heach hd
  exact ⟨d, names, hgood, hnames, hmem⟩

/-- A path without a special character is found if there is something at it. -/
theorem mem_expandWithin_of_not_hasMagic {fuel : Nat} {dirsOnly : Bool} {p : Path}
    {found : List Path} (hmagic : ¬hasMagic p) (hexists : disk.exists? p)
    (hfound : expandWithin disk (fuel + 1) dirsOnly p = .ok found) : p ∈ found := by
  simp only [expandWithin, hmagic, Bool.not_false, if_true] at hfound
  split at hfound
  · next hname =>
    have hdir : (Path.split p).1 ≠ [] := by
      intro hdir
      rw [← Path.name_eq_of_directory_eq_nil hdir, hname] at hexists
      cases hexists
    have hjoin := (Disk.exists?_of_alike (Path.alike_join_split hdir)).trans hexists
    have hslash : '/' ∉ (Path.split p).2 := hname ▸ List.not_mem_nil
    rw [if_pos (Disk.isDirectory_of_exists?_join hdir hslash hjoin)] at hfound
    rw [← Except.ok.inj hfound]
    exact List.mem_singleton_self p
  · rw [← Except.ok.inj hfound]
    exact List.mem_singleton_self p

/-- The expansion of a path that matches itself finds what stands at the path, perhaps in
another spelling. -/
theorem exists_alike_mem_expandWithin {fuel : Nat} {dirsOnly : Bool} {p : Path}
    {found : List Path} (hfuel : p.length < fuel) (hself : p.MatchesItself)
    (hexists : disk.exists? p) (hdirs : dirsOnly → disk.isDirectory p)
    (hfound : expandWithin disk fuel dirsOnly p = .ok found) : ∃ q ∈ found, q.Alike p := by
  -- the directory part is shorter, so what it stands for is known by induction
  induction fuel generalizing dirsOnly p found with
  | zero => omega
  | succ fuel ih =>
    by_cases hmagic : hasMagic p
    · obtain ⟨gap, -, -, hname, -⟩ := Path.split_spec p
      have hrelative := Path.not_isAbsolute_of_not_mem hname
      by_cases hdir : (Path.split p).1 = []
      · have hp : (Path.split p).2 = p := Path.name_eq_of_directory_eq_nil hdir
        rw [expandWithin_of_directory_eq_nil disk fuel dirsOnly hmagic hdir, hp] at hfound
        rw [hp] at hname hrelative
        have hjoin : Path.join [] p = p := Path.join_nil_left hrelative
        exact ⟨p, mem_lastIn hname hself (by rwa [hjoin]) (by rwa [hjoin]) hfound, .refl p⟩
      · have halike := Path.alike_join_split hdir
        have hdirectory := Disk.isDirectory_of_exists?_join hdir hname
          ((Disk.exists?_of_alike halike).trans hexists)
        obtain ⟨hselfDir, hselfName⟩ :=
          (Path.matchesItself_join_iff hrelative).mp (hself.of_sameWay halike.toSameWay)
        have hspecial : hasMagic (Path.split p).1 → ∀ dirs,
            expandWithin disk fuel true (Path.split p).1 = .ok dirs →
              ∃ d ∈ dirs, d.SameWay (Path.split p).1 := by
          intro hmagicDir dirs hdirs
          have hshorter := length_directory_lt_of_hasMagic hmagicDir
          obtain ⟨d, hd, hway⟩ := ih (by omega) hselfDir (Disk.exists?_of_isDirectory hdirectory)
            (fun _ => hdirectory) hdirs
          exact ⟨d, hd, hway.toSameWay⟩
        obtain ⟨d, names, hway, hnames, hmem⟩ :=
          exists_lastIn_of_expandWithin (Path.SameWay · (Path.split p).1) hmagic hdir
            (fun _ => (Path.Alike.refl _).toSameWay) hspecial hfound
        have hq : (Path.join d (Path.split p).2).Alike p := (hway.join hrelative).trans halike
        refine ⟨_, hmem _ (mem_lastIn hname hselfName ?_ ?_ hnames), hq⟩
        · rwa [Disk.exists?_of_alike hq]
        · exact fun h => Disk.isDirectory_of_sameWay hq.toSameWay (hdirs h)
    · exact ⟨p, mem_expandWithin_of_not_hasMagic hmagic hexists hfound, .refl p⟩

end Glob

end PrototypeGate

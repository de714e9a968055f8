import PrototypeGate.Proofs.Completeness

/-!
# What a directory contributes

A directory contributes what its patterns find, and nothing asks whether that is a file. This file
shows what can be said of it all the same: it is listed, under a name with the ending, by a
directory that the first part of the pattern has found.
-/

namespace PrototypeGate

namespace Pattern

/-- The set of a single character holds no other. -/
theorem eq_of_holds_single {c d : Char} (h : (single c).holds d = true) : d = c := by
  have hboth : c ≤ d ∧ d ≤ c := by simpa [single, CharSet.holds] using h
  exact Char.le_antisymm hboth.2 hboth.1

/-- A text without special characters matches itself only. -/
theorem eq_of_matchesItems {t : Text} (ht : ¬hasMagic t) {fuel : Nat} (hfuel : t.length < fuel)
    {name : Text} (h : matchesItems (items fuel t) name = true) : name = t := by
  induction t generalizing fuel name with
  | nil =>
    obtain ⟨fuel, rfl⟩ := Nat.exists_eq_add_of_lt hfuel
    simpa [items, matchesItems] using h
  | cons c rest ih =>
    obtain ⟨fuel, rfl⟩ : ∃ more, fuel = more + 1 := ⟨fuel - 1, by omega⟩
    obtain ⟨hc, hrest⟩ : (c ≠ '*' ∧ c ≠ '?' ∧ c ≠ '[') ∧ ¬hasMagic rest := by
      simpa [hasMagic, and_assoc] using ht
    rw [items, if_neg hc.1, if_neg hc.2.1, if_neg hc.2.2] at h
    cases name with
    | nil => simp [matchesItems] at h
    | cons d name =>
      rw [matchesItems, Bool.and_eq_true_iff] at h
      obtain ⟨hd, hname⟩ := h
      rw [eq_of_holds_single hd, ih hrest (by simpa using hfuel) hname]

/-- What a star leaves is matched by what stands behind it. -/
theorem exists_suffix_of_matchesItems_any {items : List PatternItem} {name : Text}
    (h : matchesItems (.any :: items) name = true) :
    ∃ back, back <:+ name ∧ matchesItems items back = true := by
  induction name with
  | nil => exact ⟨[], List.suffix_rfl, by simpa [matchesItems] using h⟩
  | cons c name ih =>
    rw [matchesItems, Bool.or_eq_true_iff] at h
    rcases h with hhere | hlater
    · exact ⟨c :: name, List.suffix_rfl, hhere⟩
    · obtain ⟨back, hback, hmatches⟩ := ih hlater
      exact ⟨back, hback.trans (List.suffix_cons c name), hmatches⟩

/-- A star in front of an ending stands for names with the ending only. -/
theorem suffix_of_accepts_star {ending name : Text} (hending : ¬hasMagic ending)
    (h : accepts ('*' :: ending) name = true) : ending <:+ name := by
  have hitems : matchesItems (.any :: items (ending.length + 1) ending) name = true := by
    simpa [accepts, items] using h
  obtain ⟨back, hback, hmatches⟩ := exists_suffix_of_matchesItems_any hitems
  obtain rfl := eq_of_matchesItems hending (Nat.lt_succ_self _) hmatches
  exact hback

end Pattern

variable {disk : Disk}

namespace Glob

/-- What is found behind several directories is found in one of them. -/
theorem exists_of_mem_lastInEach {dirsOnly : Bool} {name : Text} {dirs found : List Path}
    (h : lastInEach disk dirsOnly name dirs = .ok found) {q : Path} (hq : q ∈ found) :
    ∃ d ∈ dirs, ∃ names, lastIn disk dirsOnly name d = .ok names ∧
      ∃ last ∈ names, Path.join d last = q := by
  obtain ⟨founds, hfounds, h⟩ := exists_of_bind_eq_ok h
  obtain rfl : founds.flatten = found := Except.ok.inj h
  obtain ⟨paths, hpaths, hq⟩ := List.mem_flatten.mp hq
  obtain ⟨d, hd, hlast⟩ := exists_of_mem_mapM_eq_ok hfounds hpaths
  obtain ⟨names, hnames, rfl⟩ := exists_of_map_eq_ok hlast
  obtain ⟨last, hlast, rfl⟩ := List.mem_map.mp hq
  exact ⟨d, hd, names, hnames, last, hlast, rfl⟩

/-- A directory lists a name that is not hidden and has the ending. -/
structure Lists (disk : Disk) (d : Path) (ending name : Text) : Prop where
  /-- The directory can be given to the system. -/
  isSound : Tree.isSound d
  /-- The name is listed. -/
  listed : ∃ t, (name, t) ∈ disk.listing d
  /-- The name is not hidden. -/
  not_isHidden : ¬isHidden name
  /-- The name has the ending. -/
  suffix : ending <:+ name

/-- A star and an ending find what a directory lists with the ending. -/
theorem lists_of_mem_lastIn {d : Path} {ending name : Text} {names : List Path}
    (hplain : ¬hasMagic ending) (hnames : lastIn disk false ('*' :: ending) d = .ok names)
    (hname : name ∈ names) : Lists disk d ending name := by
  have hany : '*' :: ending ≠ anyDepth := by
    intro h
    rw [(List.cons.inj h).2] at hplain
    exact hplain rfl
  have hmagic : hasMagic ('*' :: ending) := by simp [hasMagic]
  rw [lastIn, if_neg hany, if_pos hmagic] at hnames
  obtain ⟨all, hall, rfl⟩ := exists_of_map_eq_ok hnames
  rw [Glob.names] at hall
  split_ifs at hall with hsound
  obtain rfl := Except.ok.inj hall
  obtain ⟨hmem, hkept⟩ := List.mem_filter.mp hname
  obtain ⟨⟨_, t⟩, hentry, rfl⟩ := List.mem_map.mp hmem
  obtain ⟨hvisible, haccepts⟩ := Bool.and_eq_true_iff.mp hkept
  have hstar : isHidden ('*' :: ending) = false := rfl
  exact ⟨hsound, ⟨t, (List.mem_filter.mp hentry).1⟩, by simpa [hstar] using hvisible,
    Pattern.suffix_of_accepts_star hplain haccepts⟩

end Glob

namespace Sources

/-- What the pattern for an ending finds is listed with the ending by a directory that the two
stars have found. -/
theorem exists_lists_of_mem_expand {p q : Path} {ending : Text} {found : List Path} (hp : p ≠ [])
    (hplain : ¬hasMagic ending) (hslash : '/' ∉ ending)
    (hfound : Glob.expand disk (endingPattern p ending) = .ok found) (hq : q ∈ found) :
    ∃ fuel dirs d name, (Path.join p Glob.anyDepth).length ≤ fuel ∧
      Glob.expandWithin disk (fuel + 1) true (Path.join p Glob.anyDepth) = .ok dirs ∧ d ∈ dirs ∧
      Glob.Lists disk d ending name ∧ Path.join d name = q := by
  obtain ⟨all, hall, -⟩ := Glob.exists_expandWithin_of_expand hfound
  obtain ⟨kept, hkept, hsub⟩ := Glob.expand_of_expandWithin hall
  obtain rfl : kept = found := Except.ok.inj (hkept.symm.trans hfound)
  obtain ⟨fuel, hfuel, hexpand⟩ := expandWithin_endingPattern disk hp hslash
  obtain ⟨dirs, hdirs, heach⟩ := exists_of_bind_eq_ok (hexpand.symm.trans hall)
  obtain ⟨d, hd, names, hnames, name, hname, rfl⟩ :=
    Glob.exists_of_mem_lastInEach heach (hsub q hq)
  exact ⟨fuel, dirs, d, name, hfuel, hdirs, hd, Glob.lists_of_mem_lastIn hplain hnames hname, rfl⟩

/-- What the pattern for an ending finds has the ending. -/
theorem suffix_of_mem_expand {p q : Path} {ending : Text} {found : List Path} (hp : p ≠ [])
    (hplain : ¬hasMagic ending) (hslash : '/' ∉ ending)
    (hfound : Glob.expand disk (endingPattern p ending) = .ok found) (hq : q ∈ found) :
    ending <:+ q := by
  obtain ⟨-, -, d, name, -, -, -, hlists, rfl⟩ :=
    exists_lists_of_mem_expand hp hplain hslash hfound hq
  exact hlists.suffix.trans (Path.suffix_join d name)

end Sources

end PrototypeGate

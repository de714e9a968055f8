import Mathlib.Tactic.SplitIfs
import PrototypeGate.Proofs.Expansion

/-!
# Reading back a written file

A file is written below the directory that its path leads to, and the path is followed anew
when the file is read. The path may lead through steps up and through directories of the
tree that held the file before, so the new tree must still have every directory of the old
one. This file shows that it has, and that a path at which a file was written leads to that
file with its new content.
-/

namespace PrototypeGate

namespace Tree

/-! ### Entries -/

private theorem lookup_cons_eq_ite (entry : Text × Tree) (rest : List (Text × Tree))
    (name : Text) :
    (entry :: rest).lookup name = if name = entry.1 then some entry.2 else rest.lookup name := by
  rw [List.lookup_cons]
  by_cases hname : name = entry.1
  · rw [if_pos hname, beq_iff_eq.mpr hname]
  · rw [if_neg hname, beq_eq_false_iff_ne.mpr hname]

/-- An entry that is put is found under its name; the others are found as before. -/
theorem lookup_putEntry (entries : List (Text × Tree)) (name : Text) (t : Tree) (other : Text) :
    (putEntry entries name t).lookup other =
      if other = name then some t else entries.lookup other := by
  have hreplace (es : List (Text × Tree)) :
      (es.map fun entry => if entry.1 = name then (name, t) else entry).lookup other =
        if other = name then (es.lookup other).map fun _ => t else es.lookup other := by
    induction es with
    | nil => simp
    | cons entry rest ih =>
      rw [List.map_cons, lookup_cons_eq_ite, lookup_cons_eq_ite, ih]
      by_cases hentry : entry.1 = name
      · by_cases hother : other = name <;> simp [hentry, hother]
      · by_cases hother : other = name
        · simp [hentry, hother, Ne.symm hentry]
        · simp [hentry, hother]
  rw [putEntry]
  by_cases hfound : (entries.lookup name).isSome
  · rw [if_pos hfound, hreplace]
    by_cases hother : other = name
    · obtain ⟨old, hold⟩ := Option.isSome_iff_exists.mp hfound
      rw [if_pos hother, if_pos hother, hother, hold, Option.map_some]
    · rw [if_neg hother, if_neg hother]
  · have hnone : entries.lookup name = none := Option.not_isSome_iff_eq_none.mp hfound
    rw [if_neg hfound, List.lookup_append, lookup_cons_eq_ite]
    by_cases hother : other = name
    · rw [if_pos hother, if_pos hother, hother, hnone, Option.none_or]
    · rw [if_neg hother, if_neg hother, List.lookup_nil, Option.or_none]

/-! ### Directories stay -/

/-- Every directory of a tree is a directory of another one, which has the same names and
perhaps more. -/
def Keeps (root next : Tree) : Prop :=
  ∀ names entries, root.descend? names = some (.directory entries) →
    ∃ later, next.descend? names = some (.directory later) ∧
      ∀ name, (entries.lookup name).isSome → (later.lookup name).isSome

/-- A new file or directory is found where it was put. -/
theorem descend?_insert_file (root : Tree) (names : List Text) (content : List UInt8) :
    (root.insert names (.file content)).descend? names = some (.file content) := by
  induction names generalizing root with
  | nil => cases root <;> rfl
  | cons name rest ih =>
    cases root <;>
      rw [insert, descend?, child?, lookup_putEntry, if_pos rfl, Option.bind_some, ih]

/-- Putting a file where there is no directory keeps all directories. -/
theorem keeps_insert_file {root : Tree} {names : List Text} (content : List UInt8)
    (hplace : ∀ entries, root.descend? names ≠ some (.directory entries)) :
    root.Keeps (root.insert names (.file content)) := by
  induction names generalizing root with
  | nil =>
    -- The tree is a file itself, so it has no directories.
    rintro (_ | ⟨name, rest⟩) entries hentries
    · exact absurd hentries (hplace entries)
    · cases root with
      | file old => cases hentries
      | directory own => exact absurd rfl (hplace own)
  | cons name rest ih =>
    rintro (_ | ⟨other, below⟩) entries hentries
    · obtain rfl : root = .directory entries := Option.some.inj hentries
      refine ⟨_, rfl, fun n hn => ?_⟩
      rw [lookup_putEntry]
      split
      · rfl
      · exact hn
    · cases root with
      | file old => cases hentries
      | directory own =>
        rw [descend?, child?] at hentries
        rw [insert, descend?, child?, lookup_putEntry]
        by_cases hother : other = name
        · subst hother
          obtain ⟨inner, hinner, hbelow⟩ := Option.bind_eq_some_iff.mp hentries
          have hkeep : inner.Keeps (inner.insert rest (.file content)) := by
            refine ih fun es hes => hplace es ?_
            rw [descend?, child?, hinner, Option.bind_some, hes]
          rw [if_pos rfl, Option.bind_some, hinner, Option.getD_some]
          exact hkeep below entries hbelow
        · rw [if_neg hother]
          exact ⟨entries, hentries, fun _ hn => hn⟩

/-! ### Following components -/

/-- Components that lead to a directory lead to the same one in a tree that keeps it. -/
theorem Keeps.follow {root next : Tree} (hkeep : root.Keeps next) {names : List Text}
    {trail trail' : List Text} {entries : List (Text × Tree)}
    (hfollow : root.follow trail names = .ok (trail', .directory entries)) :
    ∃ later, next.follow trail names = .ok (trail', .directory later) := by
  induction names generalizing trail with
  | nil =>
    unfold Tree.follow at hfollow
    split at hfollow
    · next found hfound =>
      obtain ⟨rfl, rfl⟩ : trail = trail' ∧ found = .directory entries := by
        simpa using hfollow
      obtain ⟨later, hlater, -⟩ := hkeep _ _ hfound
      exact ⟨later, by unfold Tree.follow; rw [hlater]⟩
    · cases hfollow
  | cons name rest ih =>
    unfold Tree.follow at hfollow
    split at hfollow
    · next own hown =>
      obtain ⟨later, hlater, hnames⟩ := hkeep _ _ hown
      unfold Tree.follow
      rw [hlater]
      simp only
      split_ifs at hfollow with habove hmore
      · rw [if_pos habove]
        exact ih hfollow
      · rw [if_neg habove, if_pos (hnames name hmore)]
        exact ih hfollow
    · cases hfollow
    · cases hfollow

/-- Following more components goes on from where the first ones lead. -/
theorem follow_append {root : Tree} {names : List Text} {trail trail' : List Text} {found : Tree}
    (hfollow : root.follow trail names = .ok (trail', found)) (more : List Text) :
    root.follow trail (names ++ more) = root.follow trail' more := by
  induction names generalizing trail with
  | nil =>
    unfold Tree.follow at hfollow
    split at hfollow
    · obtain ⟨rfl, -⟩ : trail = trail' ∧ _ := by simpa using hfollow
      rfl
    · cases hfollow
  | cons name rest ih =>
    unfold Tree.follow at hfollow
    rw [List.cons_append]
    split at hfollow
    · next own hown =>
      conv_lhs => unfold Tree.follow
      rw [hown]
      simp only
      split_ifs at hfollow ⊢
      · exact ih hfollow
      · exact ih hfollow
    · cases hfollow
    · cases hfollow

/-- Following leads to what the trail descends to. -/
theorem descend?_of_follow {root found : Tree} {names trail trail' : List Text}
    (hfollow : root.follow trail names = .ok (trail', found)) :
    root.descend? trail'.reverse = some found := by
  have hend : root.follow trail' [] = .ok (trail', found) := by
    rw [← follow_append hfollow [], List.append_nil, hfollow]
  unfold Tree.follow at hend
  split at hend
  · next other hother =>
    obtain rfl : other = found := by simpa using hend
    exact hother
  · cases hend

/-- Descending by more names goes on from where the first ones lead. -/
theorem descend?_append (root : Tree) (names more : List Text) :
    root.descend? (names ++ more) =
      (root.descend? names).bind fun found => found.descend? more := by
  induction names generalizing root with
  | nil => rfl
  | cons name rest ih =>
    rw [List.cons_append, descend?, descend?, Option.bind_assoc]
    exact Option.bind_congr fun below _ => ih below

end Tree

/-! ### The parts of a path -/

namespace Path

/-- Every path has a part. -/
theorem parts_ne_nil (p : Path) : parts p ≠ [] := by
  cases p with
  | nil => simp [parts]
  | cons c rest =>
    rw [parts]
    split
    · simp
    · split <;> simp

/-- A slash ends one part and begins another. -/
theorem parts_append_slash (p q : Path) : parts (p ++ '/' :: q) = parts p ++ parts q := by
  induction p with
  | nil =>
    obtain ⟨part, others, hparts⟩ := List.exists_cons_of_ne_nil (parts_ne_nil q)
    change parts ('/' :: q) = [] :: parts q
    rw [parts, hparts]
    rfl
  | cons c p ih =>
    obtain ⟨part, others, hparts⟩ := List.exists_cons_of_ne_nil (parts_ne_nil p)
    rw [List.cons_append, parts, ih, parts, hparts, List.cons_append]
    by_cases hc : c = '/' <;> simp [hc]

/-- A name behind slashes is the last part. -/
theorem parts_slashes_append {gap name : Path} (hgap : ∀ c ∈ gap, c = '/') (hname : '/' ∉ name) :
    parts (gap ++ name) = List.replicate gap.length [] ++ [name] := by
  induction gap with
  | nil =>
    induction name with
    | nil => rfl
    | cons c name ih =>
      obtain ⟨hc, hname⟩ := List.ne_and_not_mem_of_not_mem_cons hname
      rw [List.nil_append, parts, show parts name = [name] from ih hname]
      exact if_neg (Ne.symm hc)
  | cons c gap ih =>
    obtain ⟨rfl, hrest⟩ := List.forall_mem_cons.mp hgap
    have hslash := parts_append_slash [] (gap ++ name)
    rw [List.nil_append, ih hrest] at hslash
    rw [List.cons_append, hslash]
    rfl

/-- The last part of a path is its name. The parts before it have the components of the
directory. -/
theorem exists_parts_eq_append_name (p : Path) :
    ∃ before, parts p = before ++ [(split p).2] ∧
      (before.filter fun part => part ≠ [] && part ≠ here) = components (split p).1 := by
  obtain ⟨gap, hp, hgap, hname, hempty⟩ := split_spec p
  have hdrop (n : Nat) :
      ((List.replicate n []).filter fun part : Text => part ≠ [] && part ≠ here) = [] :=
    List.filter_replicate_of_neg (by simp)
  cases gap with
  | nil =>
    -- The directory consists of slashes, which have no components.
    have hslashes := hempty.mp rfl
    have hnone : parts ((split p).1 ++ []) = List.replicate (split p).1.length [] ++ [[]] :=
      parts_slashes_append hslashes List.not_mem_nil
    rw [List.append_nil] at hnone
    refine ⟨List.replicate (split p).1.length [], ?_, ?_⟩
    · conv_lhs => rw [hp, List.append_nil]
      exact parts_slashes_append hslashes hname
    · rw [components, hnone, List.filter_append, hdrop]
      rfl
  | cons c gap =>
    obtain ⟨rfl, hrest⟩ := List.forall_mem_cons.mp hgap
    refine ⟨parts (split p).1 ++ List.replicate gap.length [], ?_, ?_⟩
    · conv_lhs => rw [hp]
      rw [List.append_assoc, List.cons_append, parts_append_slash,
        parts_slashes_append hrest hname, List.append_assoc]
    · rw [List.filter_append, hdrop, List.append_nil, components]

/-- The parts of a path hold its characters except for the slashes. -/
theorem ne_slash_and_mem_of_mem_parts {p : Path} {part : Text} (hpart : part ∈ parts p) :
    ∀ c ∈ part, c ≠ '/' ∧ c ∈ p := by
  induction p generalizing part with
  | nil =>
    obtain rfl : part = [] := by simpa [parts] using hpart
    simp
  | cons d p ih =>
    obtain ⟨first, others, hparts⟩ := List.exists_cons_of_ne_nil (parts_ne_nil p)
    have hbehind : ∀ q ∈ first :: others, ∀ c ∈ q, c ≠ '/' ∧ c ∈ d :: p := fun q hq c hc =>
      ⟨(ih (hparts ▸ hq) c hc).1, List.mem_cons_of_mem d (ih (hparts ▸ hq) c hc).2⟩
    rw [parts, hparts] at hpart
    simp only at hpart
    split_ifs at hpart with hd
    · rcases List.mem_cons.mp hpart with rfl | hpart
      · simp
      · exact hbehind part hpart
    · rcases List.mem_cons.mp hpart with rfl | hpart
      · exact List.forall_mem_cons.mpr ⟨⟨hd, List.mem_cons_self⟩, hbehind _ List.mem_cons_self⟩
      · exact hbehind part (List.mem_cons_of_mem _ hpart)

/-- A path that does not end in a slash has a name. -/
theorem name_ne_nil {p : Path} (hp : p ≠ []) (hlast : ¬hasTrailingSlash p) : (split p).2 ≠ [] := by
  intro hname
  obtain ⟨gap, hcut, hgap, -, hempty⟩ := split_spec p
  rw [hname, List.append_nil] at hcut
  have hslash : ∀ c ∈ p.getLast?, c = '/' := by
    intro c hc
    rw [hcut, Option.mem_def, List.getLast?_append, Option.or_eq_some_iff] at hc
    rcases hc with hc | ⟨hnone, hc⟩
    · exact hgap c (List.mem_of_getLast? hc)
    · exact hempty.mp (List.getLast?_eq_none_iff.mp hnone) c (List.mem_of_getLast? hc)
  obtain ⟨c, hc⟩ := Option.isSome_iff_exists.mp (List.getLast?_isSome.mpr hp)
  rw [hasTrailingSlash, hc, hslash c hc] at hlast
  exact absurd rfl hlast

/-- A path that does not end in a slash has no slashes at its end to drop. -/
theorem dropTrailingSlashes_eq {p : Path} (hlast : ¬hasTrailingSlash p) :
    dropTrailingSlashes p = p := by
  rw [hasTrailingSlash, ← List.head?_reverse] at hlast
  rw [dropTrailingSlashes]
  cases hreverse : p.reverse with
  | nil => simpa using hreverse.symm
  | cons c rest =>
    rw [hreverse] at hlast
    rw [List.dropWhile_cons_of_neg (by simpa using hlast), ← hreverse, List.reverse_reverse]

/-- The components of a path are those of its directory and its name, if its name is one. -/
theorem components_eq_append_name {p : Path} (hempty : (split p).2 ≠ [])
    (hhere : (split p).2 ≠ here) :
    components p = components (split p).1 ++ [(split p).2] := by
  obtain ⟨before, hparts, hbefore⟩ := exists_parts_eq_append_name p
  rw [components, hparts, List.filter_append, hbefore]
  simp [hempty, hhere]

end Path

namespace Disk

/-! ### Writing and reading -/

/-- A file can only be written at a path that names no directory. It is put under its name into
the directory that the path leads to. -/
theorem write_eq_ok {disk next : Disk} {p : Path} {content : List UInt8}
    (hwrite : disk.write p content = .ok next) :
    (p ≠ [] ∧ ¬Path.hasTrailingSlash p) ∧
      ((Path.split p).2 ≠ Path.here ∧ (Path.split p).2 ≠ Path.above) ∧
      ∃ trail entries, disk.root.follow (p.start disk.work) (Path.components (Path.split p).1) =
          .ok (trail, .directory entries) ∧
        (∀ inner, entries.lookup (Path.split p).2 ≠ some (.directory inner)) ∧
        next = { disk with
          root := disk.root.insert (trail.reverse ++ [(Path.split p).2]) (.file content) } := by
  by_cases hp : p = []
  · simp [write, hp] at hwrite
  simp only [write, if_neg hp] at hwrite
  split at hwrite
  · next trail entries hfollow =>
    split at hwrite
    · cases hwrite
    · next hname =>
      obtain ⟨hlast, hhere, habove⟩ : ¬Path.hasTrailingSlash p ∧ _ ∧ _ := by
        simpa only [not_or] using hname
      rw [Path.dropTrailingSlashes_eq hlast] at hfollow hwrite hhere habove
      refine ⟨⟨hp, hlast⟩, ⟨hhere, habove⟩, trail, entries, hfollow, ?_⟩
      split at hwrite
      · cases hwrite
      · next hfile =>
        exact ⟨hfile, (Except.ok.inj hwrite).symm⟩
  · cases hwrite
  · cases hwrite

/-- A file that was written at a path is read at the path with its new content. -/
theorem bytes_of_write {disk next : Disk} {p : Path} {content : List UInt8}
    (hwrite : disk.write p content = .ok next) : next.bytes p = .ok content := by
  obtain ⟨⟨hp, hlast⟩, ⟨hhere, habove⟩, trail, entries, hfollow, hfile, rfl⟩ :=
    write_eq_ok hwrite
  obtain ⟨before, hparts, -⟩ := Path.exists_parts_eq_append_name p
  have hcomponents := Path.components_eq_append_name (Path.name_ne_nil hp hlast) hhere
  generalize (Path.split p).2 = name at *
  generalize hnext : disk.root.insert (trail.reverse ++ [name]) (.file content) = next
  have hplace : ∀ inner,
      disk.root.descend? (trail.reverse ++ [name]) ≠ some (.directory inner) := by
    intro inner
    rw [Tree.descend?_append, Tree.descend?_of_follow hfollow, Option.bind_some]
    simpa [Tree.descend?, Tree.child?] using hfile inner
  have hkeep : disk.root.Keeps next := hnext ▸ Tree.keeps_insert_file content hplace
  have hnew : next.descend? (trail.reverse ++ [name]) = some (.file content) :=
    hnext ▸ Tree.descend?_insert_file disk.root _ content
  obtain ⟨later, hlater⟩ := hkeep.follow hfollow
  have hfound : (later.lookup name).isSome := by
    rw [Tree.descend?_append, Tree.descend?_of_follow hlater, Option.bind_some] at hnew
    cases hlookup : later.lookup name with
    | none => simp [Tree.descend?, Tree.child?, hlookup] at hnew
    | some found => rfl
  have hreached : next.follow (p.start disk.work) (Path.components p) =
      .ok (name :: trail, .file content) := by
    rw [hcomponents, Tree.follow_append hlater]
    unfold Tree.follow
    rw [Tree.descend?_of_follow hlater]
    simp only [if_neg habove, if_pos hfound]
    unfold Tree.follow
    rw [List.reverse_cons, hnew]
  have hnohere : (Path.parts p).getLast? ≠ some Path.here := by
    simpa [hparts] using hhere
  have hlocate : Disk.locate { disk with root := next } p = .ok (.file content) := by
    simp only [locate, if_neg hp, hreached]
    exact if_neg (not_or.mpr ⟨hlast, hnohere⟩)
  rw [bytes, hlocate]

end Disk

end PrototypeGate

import PrototypeGate.Proofs.Writing

/-!
# Spellings of a path

A path may have more slashes than it needs, and the system does not tell such spellings apart.
Two spellings that begin alike and have the same components lead to the same directory; if they
also end alike, they lead to the same file. Nor does it matter whether a path is followed from the
working directory or, behind a path to this directory, from the root. What stands at a name behind
a path is what the directory at the path lists under the name.
-/

namespace PrototypeGate

namespace Path

/-! ### Joining -/

/-- The components of a path go on behind a slash. -/
theorem components_append_slash (p q : Path) :
    components (p ++ '/' :: q) = components p ++ components q := by
  rw [components, parts_append_slash, List.filter_append, components, components]

/-- Slashes have no components. -/
theorem components_slashes {gap : Path} (hgap : ∀ c ∈ gap, c = '/') : components gap = [] := by
  induction gap with
  | nil => rfl
  | cons c gap ih =>
    obtain ⟨rfl, hrest⟩ := List.forall_mem_cons.mp hgap
    have hslash := components_append_slash [] gap
    rwa [List.nil_append, ih hrest] at hslash

/-- Slashes at the end add no component. -/
theorem components_append_slashes (p : Path) {gap : Path} (hgap : ∀ c ∈ gap, c = '/') :
    components (p ++ gap) = components p := by
  cases gap with
  | nil => rw [List.append_nil]
  | cons c gap =>
    obtain ⟨rfl, hrest⟩ := List.forall_mem_cons.mp hgap
    rw [components_append_slash, components_slashes hrest, List.append_nil]

/-- A text without a slash is its only part. -/
theorem parts_name {name : Path} (hname : '/' ∉ name) : parts name = [name] :=
  parts_slashes_append (by simp : ∀ c ∈ [], c = '/') hname

/-- A text without a slash has one component, unless it is empty or stands for the directory
itself. -/
theorem components_name {name : Path} (hname : '/' ∉ name) :
    components name = if name = [] ∨ name = here then [] else [name] := by
  rw [components, parts_name hname]
  by_cases h : name = [] ∨ name = here
  · rcases h with rfl | rfl <;> rfl
  · obtain ⟨hempty, hhere⟩ := not_or.mp h
    simp [hempty, hhere]

/-- A text without a slash does not begin at the root. -/
theorem not_isAbsolute_of_not_mem {p : Path} (hp : '/' ∉ p) : ¬isAbsolute p := by
  intro habsolute
  exact hp (List.mem_of_mem_head? (beq_iff_eq.mp habsolute))

/-- A path is continued behind its last slash, or behind a new one if it ends in something
else. -/
theorem exists_join_eq {d q : Path} (hd : d ≠ []) (hq : ¬isAbsolute q) :
    ∃ front, join d q = front ++ '/' :: q ∧
      (d = front ∧ (∃ c ∈ d, c ≠ '/') ∨ d = front ++ ['/']) := by
  by_cases hlast : d.getLast? = some '/'
  · obtain ⟨front, rfl⟩ := List.getLast?_eq_some_iff.mp hlast
    exact ⟨front, by simp [join, hq], .inr rfl⟩
  · obtain ⟨c, hc⟩ := Option.isSome_iff_exists.mp (List.getLast?_isSome.mpr hd)
    have hother : c ≠ '/' := fun hslash => hlast (hslash ▸ hc)
    exact ⟨d, by simp [join, hq, hd, hlast], .inl ⟨rfl, c, List.mem_of_getLast? hc, hother⟩⟩

/-- Nothing is added in front of the continuation of the empty path. -/
theorem join_nil_left {q : Path} (hq : ¬isAbsolute q) : join [] q = q := by
  simp [join, hq]

/-- A continued path is not empty, unless both parts are. -/
theorem join_ne_nil {d : Path} (hd : d ≠ []) (q : Path) : join d q ≠ [] := by
  by_cases hq : isAbsolute q
  · rw [join, if_pos hq]
    rintro rfl
    exact absurd hq (by decide)
  · obtain ⟨front, hjoin, -⟩ := exists_join_eq hd hq
    simp [hjoin]

/-- The components of a continued path are those of both parts. -/
theorem components_join (d : Path) {q : Path} (hq : ¬isAbsolute q) :
    components (join d q) = components d ++ components q := by
  by_cases hd : d = []
  · rw [hd, join_nil_left hq]
    rfl
  · obtain ⟨front, hjoin, ⟨rfl, -⟩ | rfl⟩ := exists_join_eq hd hq
    · rw [hjoin, components_append_slash]
    · rw [hjoin, components_append_slash, components_append_slash]
      simp [components_slashes]

/-- A continued path begins as it did before. -/
theorem isAbsolute_join (d : Path) {q : Path} (hq : ¬isAbsolute q) :
    isAbsolute (join d q) = isAbsolute d := by
  by_cases hd : d = []
  · rw [hd, join_nil_left hq, Bool.eq_false_iff.mpr hq]
    rfl
  · obtain ⟨front, hjoin, ⟨rfl, -⟩ | rfl⟩ := exists_join_eq hd hq
    · obtain ⟨c, rest, rfl⟩ := List.exists_cons_of_ne_nil hd
      rw [hjoin]
      rfl
    · rw [hjoin]
      cases front <;> rfl

/-- The way of a continued path begins where it did before. -/
theorem start_join (work : List Text) (d : Path) {q : Path} (hq : ¬isAbsolute q) :
    start work (join d q) = start work d := by
  rw [start, isAbsolute_join d hq, start]

/-- What stands behind some other character does not change the root. -/
theorem hasDoubleRoot_append {p : Path} (hp : ∃ c ∈ p, c ≠ '/') (q : Path) :
    hasDoubleRoot (p ++ q) = hasDoubleRoot p := by
  have hshorter : (p.takeWhile (· == '/')).length ≠ p.length := by
    obtain ⟨c, hc, hother⟩ := hp
    intro hlength
    rw [← (List.takeWhile_prefix _).eq_of_length hlength] at hc
    exact hother (beq_iff_eq.mp (List.all_eq_true.mp List.all_takeWhile c hc))
  rw [hasDoubleRoot, List.takeWhile_append, if_neg hshorter, hasDoubleRoot]

/-- A path that does not begin at the root begins with no slash. -/
theorem takeWhile_slash_eq_nil {p : Path} (hp : ¬isAbsolute p) : p.takeWhile (· == '/') = [] := by
  cases p with
  | nil => rfl
  | cons c rest => exact List.takeWhile_cons_of_neg (by simpa [isAbsolute] using hp)

/-- A continued path has the root that it had before. -/
theorem hasDoubleRoot_join (d : Path) {q : Path} (hq : ¬isAbsolute q) :
    hasDoubleRoot (join d q) = hasDoubleRoot d := by
  by_cases hother : ∃ c ∈ d, c ≠ '/'
  · unfold join
    split_ifs
    · exact hasDoubleRoot_append hother q
    · exact hasDoubleRoot_append hother _
  · -- A path of slashes only is continued as it is, and the slashes stop there.
    have hslashes : ∀ c ∈ d, c = '/' := by simpa using hother
    have hjoin : join d q = d ++ q := by
      by_cases hd : d = []
      · rw [hd, join_nil_left hq, List.nil_append]
      · obtain ⟨c, hc⟩ := Option.isSome_iff_exists.mp (List.getLast?_isSome.mpr hd)
        have hlast : d.getLast? = some '/' := hslashes c (List.mem_of_getLast? hc) ▸ hc
        rw [join, if_neg hq, if_pos (.inr hlast)]
    have htake (r : Path) : (d ++ r).takeWhile (· == '/') = d ++ r.takeWhile (· == '/') :=
      List.takeWhile_append_of_pos (by simpa using hslashes)
    have hall := htake []
    rw [List.append_nil, List.takeWhile_nil, List.append_nil] at hall
    rw [hjoin, hasDoubleRoot, htake, takeWhile_slash_eq_nil hq, List.append_nil, hasDoubleRoot,
      hall]

/-- The last part of a continued path is that of the continuation. -/
theorem getLast?_parts_join (d : Path) {q : Path} (hq : ¬isAbsolute q) :
    (parts (join d q)).getLast? = (parts q).getLast? := by
  by_cases hd : d = []
  · rw [hd, join_nil_left hq]
  · obtain ⟨front, hjoin, -⟩ := exists_join_eq hd hq
    rw [hjoin, parts_append_slash, List.getLast?_append_of_ne_nil _ (parts_ne_nil q)]

/-- A continued path ends in a slash exactly if the continuation does or is empty. -/
theorem hasTrailingSlash_join {d q : Path} (hd : d ≠ []) (hq : ¬isAbsolute q) :
    hasTrailingSlash (join d q) = hasTrailingSlash ('/' :: q) := by
  obtain ⟨front, hjoin, -⟩ := exists_join_eq hd hq
  rw [hjoin, hasTrailingSlash, hasTrailingSlash,
    List.getLast?_append_of_ne_nil _ (List.cons_ne_nil _ _)]

/-- A continued path can be given to the system exactly if both parts can. -/
theorem isSound_join_iff (d : Path) {q : Path} (hq : ¬isAbsolute q) :
    Tree.isSound (join d q) = (Tree.isSound d && Tree.isSound q) := by
  by_cases hd : d = []
  · rw [hd, join_nil_left hq]
    rfl
  · obtain ⟨front, hjoin, ⟨rfl, -⟩ | rfl⟩ := exists_join_eq hd hq <;>
      simp [hjoin, Tree.isSound]

/-! ### Spellings that the system does not tell apart -/

/-- Two paths begin alike and have the same components. -/
structure SameWay (q p : Path) : Prop where
  /-- Both are empty or neither is. -/
  eq_nil_iff : q = [] ↔ p = []
  /-- Both begin at the root or neither does. -/
  isAbsolute_eq : isAbsolute q = isAbsolute p
  /-- Both begin with exactly two slashes or neither does. -/
  hasDoubleRoot_eq : hasDoubleRoot q = hasDoubleRoot p
  /-- They have the same components. -/
  components_eq : components q = components p
  /-- Both can be given to the system or neither can. -/
  isSound_eq : Tree.isSound q = Tree.isSound p

/-- Two paths begin alike, have the same components and end alike. -/
structure Alike (q p : Path) : Prop extends SameWay q p where
  /-- Both end in a slash or neither does. -/
  hasTrailingSlash_eq : hasTrailingSlash q = hasTrailingSlash p
  /-- They have the same last part. -/
  getLast?_eq : (parts q).getLast? = (parts p).getLast?

/-- A path is its own spelling. -/
@[refl]
theorem Alike.refl (p : Path) : p.Alike p :=
  ⟨⟨Iff.rfl, rfl, rfl, rfl, rfl⟩, rfl, rfl⟩

/-- Two paths have the same way in either order. -/
theorem SameWay.symm {q p : Path} (h : q.SameWay p) : p.SameWay q :=
  ⟨h.eq_nil_iff.symm, h.isAbsolute_eq.symm, h.hasDoubleRoot_eq.symm, h.components_eq.symm,
    h.isSound_eq.symm⟩

/-- Ways in a row. -/
theorem SameWay.trans {p q r : Path} (hpq : p.SameWay q) (hqr : q.SameWay r) : p.SameWay r :=
  ⟨hpq.eq_nil_iff.trans hqr.eq_nil_iff, hpq.isAbsolute_eq.trans hqr.isAbsolute_eq,
    hpq.hasDoubleRoot_eq.trans hqr.hasDoubleRoot_eq, hpq.components_eq.trans hqr.components_eq,
    hpq.isSound_eq.trans hqr.isSound_eq⟩

/-- Spellings in a row. -/
theorem Alike.trans {p q r : Path} (hpq : p.Alike q) (hqr : q.Alike r) : p.Alike r :=
  ⟨hpq.toSameWay.trans hqr.toSameWay, hpq.hasTrailingSlash_eq.trans hqr.hasTrailingSlash_eq,
    hpq.getLast?_eq.trans hqr.getLast?_eq⟩

/-- The ways of such paths begin in the same place. -/
theorem SameWay.start_eq {q p : Path} (h : q.SameWay p) (work : List Text) :
    start work q = start work p := by
  rw [start, start, h.isAbsolute_eq]

/-- Paths with the same way denote the same place. -/
theorem SameWay.place_eq {q p : Path} (h : q.SameWay p) (work : List Text) :
    place work q = place work p := by
  rw [place, place, h.hasDoubleRoot_eq, h.start_eq work, h.components_eq]

/-- Slashes at the end do not change the way, unless there are only slashes before. -/
theorem sameWay_append_slashes {p gap : Path} (hp : ∃ c ∈ p, c ≠ '/')
    (hgap : ∀ c ∈ gap, c = '/') : (p ++ gap).SameWay p := by
  have hne : p ≠ [] := List.ne_nil_of_mem hp.choose_spec.1
  refine ⟨by simp [hne], ?_, hasDoubleRoot_append hp gap, components_append_slashes p hgap, ?_⟩
  · rw [isAbsolute, isAbsolute, List.head?_append_of_ne_nil _ hne]
  · have hsound : Tree.isSound gap = true := by
      have hnull : '\x00' ∉ gap := fun h => absurd (hgap _ h) (by decide)
      simpa [Tree.isSound] using hnull
    rw [Bool.eq_iff_iff, Tree.isSound_append]
    simp [hsound]

/-- The same continuation of two paths with the same way gives two spellings of one path. -/
theorem SameWay.join {d e : Path} (h : d.SameWay e) {q : Path} (hq : ¬isAbsolute q) :
    (join d q).Alike (join e q) := by
  by_cases he : e = []
  · rw [he, h.eq_nil_iff.mpr he]
  have hd : d ≠ [] := fun hd => he (h.eq_nil_iff.mp hd)
  refine ⟨⟨iff_of_false (join_ne_nil hd q) (join_ne_nil he q), ?_, ?_, ?_, ?_⟩, ?_, ?_⟩
  · rw [isAbsolute_join d hq, isAbsolute_join e hq, h.isAbsolute_eq]
  · rw [hasDoubleRoot_join d hq, hasDoubleRoot_join e hq, h.hasDoubleRoot_eq]
  · rw [components_join d hq, components_join e hq, h.components_eq]
  · rw [isSound_join_iff d hq, isSound_join_iff e hq, h.isSound_eq]
  · rw [hasTrailingSlash_join hd hq, hasTrailingSlash_join he hq]
  · rw [getLast?_parts_join d hq, getLast?_parts_join e hq]

/-! ### Splitting -/

/-- A path is split between its last slash and the name behind it. -/
theorem split_append {front name : Path} (hfront : ∀ c ∈ front.getLast?, c = '/')
    (hname : '/' ∉ name) : split (front ++ name) =
      if front.all (· == '/') then (front, name) else (dropTrailingSlashes front, name) := by
  have htake : (front ++ name).reverse.takeWhile (· ≠ '/') = name.reverse := by
    rw [List.reverse_append, List.takeWhile_append_of_pos, List.append_right_eq_self]
    · rw [← List.head?_reverse] at hfront
      cases hreverse : front.reverse with
      | nil => rfl
      | cons c rest =>
        rw [hreverse] at hfront
        rw [List.takeWhile_cons_of_neg (by simpa using hfront)]
    · intro c hc
      simpa using ne_of_mem_of_not_mem (List.mem_reverse.mp hc) hname
  simp only [split, htake, List.reverse_reverse]
  simp

/-- A path without a directory part is its name. -/
theorem name_eq_of_directory_eq_nil {p : Path} (hdir : (split p).1 = []) : (split p).2 = p := by
  obtain ⟨gap, hp, hgap, hname, -⟩ := split_spec p
  rw [hdir, List.nil_append] at hp
  have hsplit := split_append (fun c hc => hgap c (List.mem_of_getLast? hc)) hname
  rw [← hp, if_pos (List.all_eq_true.mpr fun c hc => beq_iff_eq.mpr (hgap c hc))] at hsplit
  have hempty : gap = [] := by rw [← hdir, hsplit]
  rw [hempty, List.nil_append] at hp
  exact hp.symm

/-- A path is its directory continued by its name, up to its spelling. -/
theorem alike_join_split {p : Path} (hdir : (split p).1 ≠ []) :
    (join (split p).1 (split p).2).Alike p := by
  obtain ⟨gap, hp, hgap, hname, hempty⟩ := split_spec p
  have hrelative : ¬isAbsolute (split p).2 := not_isAbsolute_of_not_mem hname
  have hlast : ((split p).1 ++ gap).getLast? = some '/' := by
    rw [List.getLast?_append]
    cases hg : gap.getLast? with
    | some c => rw [hgap c (List.mem_of_getLast? hg), Option.some_or]
    | none =>
      have hslashes := hempty.mp (List.getLast?_eq_none_iff.mp hg)
      obtain ⟨c, hc⟩ := Option.isSome_iff_exists.mp (List.getLast?_isSome.mpr hdir)
      rw [Option.none_or, hc, hslashes c (List.mem_of_getLast? hc)]
  have hfront : join ((split p).1 ++ gap) (split p).2 = p := by
    rw [join, if_neg hrelative, if_pos (.inr hlast), ← hp]
  have hway : (split p).1.SameWay ((split p).1 ++ gap) := by
    by_cases hnone : gap = []
    · rw [hnone, List.append_nil]
      exact (Alike.refl _).toSameWay
    · exact (sameWay_append_slashes (by simpa using hempty.not.mp hnone) hgap).symm
  have halike := hway.join hrelative
  rwa [hfront] at halike

/-- The slashes that are dropped stand at the end. -/
theorem exists_dropTrailingSlashes_append (p : Path) :
    ∃ gap, dropTrailingSlashes p ++ gap = p ∧ ∀ c ∈ gap, c = '/' := by
  refine ⟨(p.reverse.takeWhile (· == '/')).reverse, ?_, fun c hc => ?_⟩
  · rw [dropTrailingSlashes, ← List.reverse_append, List.takeWhile_append_dropWhile,
      List.reverse_reverse]
  · simpa using List.all_eq_true.mp List.all_takeWhile c (List.mem_reverse.mp hc)

/-- A path that was continued by a name is split into a spelling of the path and the name. -/
theorem split_join {d name : Path} (hd : d ≠ []) (hname : '/' ∉ name) :
    (split (join d name)).1.SameWay d ∧ (split (join d name)).2 = name := by
  obtain ⟨front, hjoin, hcut⟩ := exists_join_eq hd (not_isAbsolute_of_not_mem hname)
  have hway : (front ++ ['/']).SameWay d := by
    rcases hcut with ⟨rfl, hother⟩ | rfl
    · exact sameWay_append_slashes hother (by simp)
    · exact (Alike.refl _).toSameWay
  have hsplit := split_append (by simp : ∀ c ∈ (front ++ ['/']).getLast?, c = '/') hname
  rw [List.append_assoc, List.singleton_append, ← hjoin] at hsplit
  rw [hsplit]
  split_ifs with hall
  · exact ⟨hway, rfl⟩
  · obtain ⟨gap, hgap, hslashes⟩ := exists_dropTrailingSlashes_append (front ++ ['/'])
    have hother : ∃ c ∈ dropTrailingSlashes (front ++ ['/']), c ≠ '/' := by
      by_contra hnone
      refine hall (List.all_eq_true.mpr fun c hc => beq_iff_eq.mpr ?_)
      rw [← hgap] at hc
      rcases List.mem_append.mp hc with hc | hc
      · exact by_contra fun hne => hnone ⟨c, hc, hne⟩
      · exact hslashes c hc
    have hdrop := sameWay_append_slashes hother hslashes
    rw [hgap] at hdrop
    exact ⟨hdrop.symm.trans hway, rfl⟩

/-- A path that does not end in a slash is got back from its continuation by a name. -/
theorem split_join_of_not_hasTrailingSlash {d name : Path} (hd : d ≠ [])
    (hlast : ¬hasTrailingSlash d) (hname : '/' ∉ name) : split (join d name) = (d, name) := by
  have hjoin : join d name = (d ++ ['/']) ++ name := by
    have hslash : d.getLast? ≠ some '/' := by simpa [hasTrailingSlash] using hlast
    simp [join, hd, hslash, not_isAbsolute_of_not_mem hname]
  have hall : ¬(d ++ ['/']).all (· == '/') := by
    obtain ⟨c, hc⟩ := Option.isSome_iff_exists.mp (List.getLast?_isSome.mpr hd)
    intro hall
    have hslash := List.all_eq_true.mp hall c (List.mem_append_left _ (List.mem_of_getLast? hc))
    exact hlast (by rw [hasTrailingSlash, hc, beq_iff_eq.mp hslash]; rfl)
  have hdrop : dropTrailingSlashes (d ++ ['/']) = dropTrailingSlashes d := by
    simp [dropTrailingSlashes]
  rw [hjoin, split_append (by simp) hname, if_neg hall, hdrop, dropTrailingSlashes_eq hlast]

end Path

namespace Tree

variable {root : Tree}

/-! ### Following names -/

/-- Following no components stays where the trail leads. -/
theorem follow_nil_eq_ok_iff {trail trail' : List Text} {found : Tree} :
    root.follow trail [] = .ok (trail', found) ↔
      trail' = trail ∧ root.descend? trail.reverse = some found := by
  unfold follow
  cases root.descend? trail.reverse <;> simp [eq_comm]

/-- A component that is no step up leads to an entry of a directory. -/
theorem follow_cons_eq_ok {name : Text} (hname : name ≠ Path.above) {trail rest : List Text}
    {reached : List Text × Tree} (h : root.follow trail (name :: rest) = .ok reached) :
    ∃ entries found, root.descend? trail.reverse = some (.directory entries) ∧
      entries.lookup name = some found ∧ root.follow (name :: trail) rest = .ok reached := by
  unfold follow at h
  split at h
  · next entries hentries =>
    rw [if_neg hname] at h
    split_ifs at h with hfound
    obtain ⟨found, hfound⟩ := Option.isSome_iff_exists.mp hfound
    exact ⟨entries, found, hentries, hfound, h⟩
  · cases h
  · cases h

/-- Descending by one more name leads to the entry under it. -/
theorem descend?_concat {names : List Text} {entries : List (Text × Tree)}
    (hentries : root.descend? names = some (.directory entries)) (name : Text) :
    root.descend? (names ++ [name]) = entries.lookup name := by
  rw [descend?_append, hentries, Option.bind_some, descend?, child?]
  exact Option.bind_fun_some _

/-- A name that is no step up leads to what a directory has under it. -/
theorem follow_singleton_eq_ok {name : Text} (hname : name ≠ Path.above)
    {trail trail' : List Text} {found : Tree}
    (h : root.follow trail [name] = .ok (trail', found)) :
    ∃ entries, root.descend? trail.reverse = some (.directory entries) ∧
      entries.lookup name = some found := by
  obtain ⟨entries, child, hentries, hchild, hend⟩ := follow_cons_eq_ok hname h
  obtain ⟨-, hfound⟩ := follow_nil_eq_ok_iff.mp hend
  rw [List.reverse_cons, descend?_concat hentries] at hfound
  exact ⟨entries, hentries, hfound⟩

/-- If components can be followed, so can the first ones of them. Where more follow, these lead
to a directory. -/
theorem exists_follow_of_append {names more trail : List Text} {reached : List Text × Tree}
    (h : root.follow trail (names ++ more) = .ok reached) :
    ∃ trail' found, root.follow trail names = .ok (trail', found) ∧
      root.follow trail' more = .ok reached ∧
      (more ≠ [] → ∃ entries, found = .directory entries) := by
  suffices hfirst : ∃ trail' found, root.follow trail names = .ok (trail', found) ∧
      (more ≠ [] → ∃ entries, found = .directory entries) by
    obtain ⟨trail', found, hfollow, hdir⟩ := hfirst
    exact ⟨trail', found, hfollow, by rw [← follow_append hfollow, h], hdir⟩
  induction names generalizing trail with
  | nil =>
    rw [List.nil_append] at h
    cases more with
    | nil =>
      obtain ⟨trail', found⟩ := reached
      exact ⟨trail', found, h, fun hne => absurd rfl hne⟩
    | cons name more =>
      unfold follow at h
      split at h
      · next entries hentries =>
        exact ⟨trail, _, follow_nil_eq_ok_iff.mpr ⟨rfl, hentries⟩, fun _ => ⟨entries, rfl⟩⟩
      · cases h
      · cases h
  | cons name rest ih =>
    rw [List.cons_append] at h
    unfold follow at h
    split at h
    · next entries hentries =>
      conv in root.follow trail _ => unfold follow
      rw [hentries]
      simp only
      split_ifs at h ⊢
      · exact ih h
      · exact ih h
    · cases h
    · cases h

/-- Following components cancels them, whatever comes behind. -/
theorem cancel_append_of_follow {trail names trail' : List Text} {found : Tree}
    (h : root.follow trail names = .ok (trail', found)) (more : List Text) :
    Path.cancel trail (names ++ more) = Path.cancel trail' more := by
  induction names generalizing trail with
  | nil =>
    obtain ⟨rfl, -⟩ := follow_nil_eq_ok_iff.mp h
    rfl
  | cons name rest ih =>
    unfold follow at h
    rw [List.cons_append, Path.cancel]
    split at h
    · split_ifs at h ⊢
      · exact ih h
      · exact ih h
    · cases h
    · cases h

/-- Components without a step up lead downwards. -/
theorem descend?_of_follow_down {names trail trail' : List Text} (habove : Path.above ∉ names)
    {found : Tree} (h : root.follow trail names = .ok (trail', found)) :
    ∃ start, root.descend? trail.reverse = some start ∧ start.descend? names = some found := by
  induction names generalizing trail with
  | nil =>
    obtain ⟨rfl, hfound⟩ := follow_nil_eq_ok_iff.mp h
    exact ⟨found, hfound, rfl⟩
  | cons name rest ih =>
    obtain ⟨hname, hrest⟩ := List.ne_and_not_mem_of_not_mem_cons habove
    obtain ⟨entries, child, hentries, hchild, hfollow⟩ := follow_cons_eq_ok (Ne.symm hname) h
    obtain ⟨start, hstart, hbelow⟩ := ih hrest hfollow
    rw [List.reverse_cons, descend?_concat hentries, hchild] at hstart
    obtain rfl : child = start := Option.some.inj hstart
    exact ⟨_, hentries, by rw [descend?, child?, hchild, Option.bind_some, hbelow]⟩

end Tree

namespace Disk

open PrototypeGate.Tree (isSound)

variable {disk : Disk}

/-! ### What stands at a path -/

/-- There is something at a path if it can be given to the system and leads somewhere. -/
theorem exists?_iff {p : Path} :
    disk.exists? p ↔ isSound p ∧ ∃ found, disk.locate p = .ok found := by
  rw [exists?, Bool.and_eq_true_iff]
  cases disk.locate p <;> simp [Except.toOption]

/-- A path names a file if it can be given to the system and leads to one. -/
theorem isFile_iff {p : Path} :
    disk.isFile p ↔ isSound p ∧ ∃ content, disk.locate p = .ok (.file content) := by
  rw [isFile, Bool.and_eq_true_iff]
  rcases disk.locate p with problem | (content | entries) <;> simp

/-- A path names a directory if it can be given to the system and leads to one. -/
theorem isDirectory_iff {p : Path} :
    disk.isDirectory p ↔ isSound p ∧ ∃ entries, disk.locate p = .ok (.directory entries) := by
  rw [isDirectory, Bool.and_eq_true_iff]
  rcases disk.locate p with problem | (content | entries) <;> simp

/-- There is something at a path that names a directory. -/
theorem exists?_of_isDirectory {p : Path} (h : disk.isDirectory p) : disk.exists? p := by
  obtain ⟨hsound, entries, hlocate⟩ := isDirectory_iff.mp h
  exact exists?_iff.mpr ⟨hsound, _, hlocate⟩

/-- There is something at a path that names a file. -/
theorem exists?_of_isFile {p : Path} (h : disk.isFile p) : disk.exists? p := by
  obtain ⟨hsound, content, hlocate⟩ := isFile_iff.mp h
  exact exists?_iff.mpr ⟨hsound, _, hlocate⟩

/-- A path that names a file names no directory. -/
theorem not_isDirectory_of_isFile {p : Path} (h : disk.isFile p) : ¬disk.isDirectory p := by
  intro hdir
  obtain ⟨-, content, hlocate⟩ := isFile_iff.mp h
  obtain ⟨-, entries, hentries⟩ := isDirectory_iff.mp hdir
  cases hlocate.symm.trans hentries

/-- There is nothing at the empty path. -/
theorem ne_nil_of_exists? {p : Path} (h : disk.exists? p) : p ≠ [] := by
  rintro rfl
  cases h

/-- A directory is found where the components of a path lead to it. -/
theorem locate_eq_directory_iff {p : Path} {entries : List (Text × Tree)} :
    disk.locate p = .ok (.directory entries) ↔ p ≠ [] ∧
      ∃ trail, disk.root.follow (p.start disk.work) (Path.components p) =
        .ok (trail, .directory entries) := by
  by_cases hp : p = []
  · simp [locate, hp]
  rw [locate, if_neg hp]
  rcases disk.root.follow (p.start disk.work) (Path.components p) with
    problem | ⟨trail, content | found⟩
  · simp
  · simp only
    split_ifs <;> simp
  · simp [hp]

/-- A file is found where the components of a path lead to it, if the path does not end as one
to a directory. -/
theorem locate_eq_file_iff {p : Path} {content : List UInt8} :
    disk.locate p = .ok (.file content) ↔ p ≠ [] ∧
      (∃ trail, disk.root.follow (p.start disk.work) (Path.components p) =
        .ok (trail, .file content)) ∧
      ¬Path.hasTrailingSlash p ∧ (Path.parts p).getLast? ≠ some Path.here := by
  by_cases hp : p = []
  · simp [locate, hp]
  rw [locate, if_neg hp]
  rcases disk.root.follow (p.start disk.work) (Path.components p) with
    problem | ⟨trail, found | entries⟩
  · simp
  · by_cases hdir : Path.hasTrailingSlash p ∨ (Path.parts p).getLast? = some Path.here
    · simp only [if_pos hdir, reduceCtorEq, false_iff]
      exact fun h => not_or.mpr h.2.2 hdir
    · simp only [if_neg hdir]
      simp [hp, not_or.mp hdir]
  · simp

/-- The components of a path that leads somewhere can be followed. -/
theorem follow_of_locate {p : Path} {found : Tree} (h : disk.locate p = .ok found) :
    ∃ trail, disk.root.follow (p.start disk.work) (Path.components p) = .ok (trail, found) := by
  cases found with
  | file content => exact (locate_eq_file_iff.mp h).2.1
  | directory entries => exact (locate_eq_directory_iff.mp h).2

/-- Two paths with the same way lead to the same directory. -/
theorem isDirectory_of_sameWay {q p : Path} (h : q.SameWay p) (hp : disk.isDirectory p) :
    disk.isDirectory q := by
  obtain ⟨hsound, entries, hlocate⟩ := isDirectory_iff.mp hp
  refine isDirectory_iff.mpr ⟨h.isSound_eq.trans hsound, entries, ?_⟩
  rwa [locate_eq_directory_iff, ne_eq, h.eq_nil_iff, h.start_eq, h.components_eq,
    ← locate_eq_directory_iff]

/-- Two spellings of one path lead to the same. -/
theorem locate_of_alike {q p : Path} (h : q.Alike p) : disk.locate q = disk.locate p := by
  simp only [locate, h.eq_nil_iff, h.start_eq, h.components_eq, h.hasTrailingSlash_eq,
    h.getLast?_eq]

/-- There is something at both of two spellings of one path or at neither. -/
theorem exists?_of_alike {q p : Path} (h : q.Alike p) : disk.exists? q = disk.exists? p := by
  rw [exists?, exists?, h.isSound_eq, locate_of_alike h]

/-- Both of two spellings of one path name a file or neither does. -/
theorem isFile_of_alike {q p : Path} (h : q.Alike p) : disk.isFile q = disk.isFile p := by
  rw [isFile, isFile, h.isSound_eq, locate_of_alike h]

/-! ### Behind the working directory -/

section Work

variable {dir p : Path} {found : Tree}

/-- A path leads to the same behind a path from the root to the working directory. -/
theorem locate_join_work (hdir : Path.isAbsolute dir)
    (hwork : disk.root.follow [] (Path.components dir) = .ok (disk.work.reverse, found))
    (hp : p ≠ []) (hrelative : ¬Path.isAbsolute p) :
    disk.locate (Path.join dir p) = disk.locate p := by
  have hne : dir ≠ [] := by
    rintro rfl
    cases hdir
  have hslash : Path.hasTrailingSlash ('/' :: p) = Path.hasTrailingSlash p := by
    rw [Path.hasTrailingSlash, Path.hasTrailingSlash, List.getLast?_cons_of_ne_nil hp]
  have hroot : Path.start disk.work dir = [] := if_pos hdir
  have hstart : Path.start disk.work p = disk.work.reverse := if_neg hrelative
  rw [locate, locate, if_neg (Path.join_ne_nil hne p), if_neg hp, Path.start_join _ dir hrelative,
    hroot, Path.components_join dir hrelative, Tree.follow_append hwork, hstart,
    Path.hasTrailingSlash_join hne hrelative, hslash, Path.getLast?_parts_join dir hrelative]

/-- A path denotes the same place behind a path from the root to the working directory. -/
theorem place_join_work (hdir : Path.isAbsolute dir) (hsingle : ¬Path.hasDoubleRoot dir)
    (hwork : disk.root.follow [] (Path.components dir) = .ok (disk.work.reverse, found))
    (hrelative : ¬Path.isAbsolute p) : disk.place (Path.join dir p) = disk.place p := by
  have hother : ¬Path.hasDoubleRoot p := by
    rw [Path.hasDoubleRoot, Path.takeWhile_slash_eq_nil hrelative]
    decide
  have hroot : Path.start disk.work dir = [] := if_pos hdir
  have hstart : Path.start disk.work p = disk.work.reverse := if_neg hrelative
  rw [place, place, Path.place, Path.place, Path.hasDoubleRoot_join dir hrelative,
    Bool.eq_false_iff.mpr hsingle, Bool.eq_false_iff.mpr hother, Path.start_join _ dir hrelative,
    hroot, Path.components_join dir hrelative, Tree.cancel_append_of_follow hwork, hstart]

end Work

/-! ### Names in directories -/

/-- The directory that the components of a path lead to is listed at the path. -/
theorem listing_of_follow {d : Path} {trail : List Text} {entries : List (Text × Tree)}
    (h : disk.root.follow (d.start disk.work) (Path.components d) =
      .ok (trail, .directory entries)) : disk.listing d = entries := by
  have hlocate : disk.locate (if d = [] then Path.here else d) = .ok (.directory entries) := by
    rw [locate_eq_directory_iff]
    by_cases hd : d = []
    · rw [hd] at h
      rw [if_pos hd]
      exact ⟨List.cons_ne_nil _ _, trail, h⟩
    · rw [if_neg hd]
      exact ⟨hd, trail, h⟩
  rw [listing, hlocate]

/-- What stands at a path continued by a name was reached through a directory at the path. -/
theorem isDirectory_of_exists?_join {d : Path} {name : Text} (hd : d ≠ []) (hname : '/' ∉ name)
    (h : disk.exists? (Path.join d name)) : disk.isDirectory d := by
  have hrelative : ¬Path.isAbsolute name := Path.not_isAbsolute_of_not_mem hname
  obtain ⟨hsound, found, hlocate⟩ := exists?_iff.mp h
  rw [Path.isSound_join_iff d hrelative, Bool.and_eq_true_iff] at hsound
  obtain ⟨trail, hfollow⟩ := follow_of_locate hlocate
  rw [Path.start_join _ d hrelative, Path.components_join d hrelative,
    Path.components_name hname] at hfollow
  obtain ⟨trail', dir, hdir, hrest, hentries⟩ := Tree.exists_follow_of_append hfollow
  suffices hentries : ∃ entries, dir = .directory entries by
    obtain ⟨entries, rfl⟩ := hentries
    exact isDirectory_iff.mpr ⟨hsound.1, entries, locate_eq_directory_iff.mpr ⟨hd, trail', hdir⟩⟩
  by_cases hhere : name = [] ∨ name = Path.here
  · -- No component was added, and the path ends as one to a directory.
    rw [if_pos hhere] at hrest
    obtain ⟨-, hfound⟩ := Tree.follow_nil_eq_ok_iff.mp hrest
    obtain rfl : dir = found := Option.some.inj ((Tree.descend?_of_follow hdir).symm.trans hfound)
    cases dir with
    | directory entries => exact ⟨entries, rfl⟩
    | file content =>
      obtain ⟨-, -, hslash, hlast⟩ := locate_eq_file_iff.mp hlocate
      rcases hhere with rfl | rfl
      · exact absurd (Path.hasTrailingSlash_join hd hrelative) hslash
      · exact absurd (Path.getLast?_parts_join d hrelative) hlast
  · rw [if_neg hhere] at hentries
    exact hentries (List.cons_ne_nil _ _)

/-- What stands at a path continued by a name is listed under the name by the directory at the
path. -/
theorem lookup_listing_of_exists?_join {d : Path} {name : Text} (hname : '/' ∉ name)
    (hproper : name ≠ [] ∧ name ≠ Path.here ∧ name ≠ Path.above)
    (h : disk.exists? (Path.join d name)) :
    ∃ found, (disk.listing d).lookup name = some found ∧
      disk.locate (Path.join d name) = .ok found := by
  obtain ⟨hempty, hhere, habove⟩ := hproper
  have hrelative : ¬Path.isAbsolute name := Path.not_isAbsolute_of_not_mem hname
  obtain ⟨-, found, hlocate⟩ := exists?_iff.mp h
  obtain ⟨trail, hfollow⟩ := follow_of_locate hlocate
  rw [Path.start_join _ d hrelative, Path.components_join d hrelative, Path.components_name hname,
    if_neg (by simp [hempty, hhere])] at hfollow
  obtain ⟨trail', dir, hdir, hlast, -⟩ := Tree.exists_follow_of_append hfollow
  obtain ⟨entries, hentries, hfound⟩ := Tree.follow_singleton_eq_ok habove hlast
  obtain rfl : dir = .directory entries :=
    Option.some.inj ((Tree.descend?_of_follow hdir).symm.trans hentries)
  exact ⟨found, by rw [listing_of_follow hdir, hfound], hlocate⟩

end Disk

end PrototypeGate

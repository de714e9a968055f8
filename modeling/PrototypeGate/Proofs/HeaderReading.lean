import Mathlib.Data.List.TakeWhile
import PrototypeGate.Proofs.Grammar

/-!
# Reading headers by the grammar

The reader of headers takes the longest piece at every turn and never goes back, except to
try the next closing parenthesis as the end of the parameter list. This file shows that it
misses nothing: the words, the qualifiers and the whole header are read exactly if they
belong to the grammar. What makes the longest piece the right one is that the pieces are
told apart by their next character: white space, the character of a name, an opening
parenthesis, a semicolon or the end.
-/

namespace PrototypeGate

open scoped Computability

/-- What holds of the first character of a text. -/
theorem forall_mem_head?_cons {P : Char → Prop} {c : Char} {t : Text} :
    (∀ d ∈ (c :: t).head?, P d) ↔ P c := by
  simp

/-- A run of characters of a class that ends where the next character is of another class
is what the longest run takes. -/
theorem span_append {p : Char → Bool} {run rest : Text} (hrun : ∀ c ∈ run, p c = true)
    (hrest : ∀ c ∈ rest.head?, p c = false) :
    (run ++ rest).takeWhile p = run ∧ (run ++ rest).dropWhile p = rest := by
  have htake : rest.takeWhile p = [] ∧ rest.dropWhile p = rest := by
    cases rest with
    | nil => exact ⟨rfl, rfl⟩
    | cons c rest => simp [hrest c rfl]
  rw [List.takeWhile_append_of_pos hrun, List.dropWhile_append_of_pos hrun, htake.1, htake.2,
    List.append_nil]
  exact ⟨rfl, rfl⟩

/-- What follows the longest run of characters of a class begins with another class. -/
theorem head?_dropWhile_of_mem {p : Char → Bool} {t : Text} :
    ∀ c ∈ (t.dropWhile p).head?, p c = false := by
  intro c hc
  have hstop := List.head?_dropWhile_not p t
  rw [Option.mem_def] at hc
  simpa only [hc] using hstop

namespace Header

open Grammar

/-! ### Words -/

/-- Behind separators a new word begins. -/
theorem wordsAreNames_separators_append {s : Text} (hs : ∀ c ∈ s, isSeparator c = true)
    (t : Text) : wordsAreNames true (s ++ t) = wordsAreNames true t := by
  induction s with
  | nil => rfl
  | cons c s ih =>
    rw [List.forall_mem_cons] at hs
    rw [List.cons_append, wordsAreNames, if_pos hs.1, ih hs.2]

/-- Inside a word every character of words is as good as any other. -/
theorem wordsAreNames_word_append {w : Text} (hw : ∀ c ∈ w, isWord c = true) (t : Text) :
    wordsAreNames false (w ++ t) = wordsAreNames false t := by
  induction w with
  | nil => rfl
  | cons c w ih =>
    rw [List.forall_mem_cons] at hw
    rw [List.cons_append, wordsAreNames, isSeparator_of_isWord hw.1, ih hw.2]
    simp

/-- A token begins like a name, and a new word begins behind it. -/
theorem wordsAreNames_token_append {a : Text} (ha : a ∈ token) (t : Text) :
    wordsAreNames true (a ++ t) = wordsAreNames true t := by
  obtain ⟨word, hword, s, hne, hs, rfl⟩ := mem_token_iff.mp ha
  obtain ⟨c, rest, rfl, hc, hrest⟩ := mem_name_iff.mp hword
  obtain ⟨d, s, rfl⟩ := List.exists_cons_of_ne_nil hne
  rw [List.forall_mem_cons] at hs
  rw [List.append_assoc, List.cons_append, wordsAreNames,
    isSeparator_of_isWord (isWord_of_isNameStart hc), wordsAreNames_word_append hrest,
    List.cons_append, wordsAreNames, if_pos hs.1, wordsAreNames_separators_append hs.2]
  simp [hc]

/-- In a text of tokens every word is a name. -/
theorem wordsAreNames_of_mem_kstar {t : Text} (ht : t ∈ token∗) : wordsAreNames true t = true := by
  obtain ⟨tokens, rfl, htokens⟩ := Language.mem_kstar.mp ht
  clear ht
  induction tokens with
  | nil => rfl
  | cons a tokens ih =>
    rw [List.forall_mem_cons] at htokens
    rw [List.flatten_cons, wordsAreNames_token_append htokens.1, ih htokens.2]

/-- A text that ends with separators, and in which every word is a name, is made of tokens.
The second statement is about the rest of a text in the middle of a word. -/
theorem exists_tokens_of_wordsAreNames {t : Text}
    (hclass : ∀ c ∈ t, isWord c = true ∨ isSeparator c = true)
    (hlast : ∀ c ∈ t.getLast?, isSeparator c = true) :
    (wordsAreNames true t = true → ∃ s, (∀ c ∈ s, isSeparator c = true) ∧
      ∃ u ∈ token∗, t = s ++ u) ∧
    (t ≠ [] → wordsAreNames false t = true → ∃ w, (∀ c ∈ w, isWord c = true) ∧
      ∃ s, s ≠ [] ∧ (∀ c ∈ s, isSeparator c = true) ∧ ∃ u ∈ token∗, t = w ++ (s ++ u)) := by
  induction t with
  | nil =>
    refine ⟨fun _ => ⟨[], by simp, [], Language.nil_mem_kstar _, rfl⟩, fun h => absurd rfl h⟩
  | cons c t ih =>
    rw [List.forall_mem_cons] at hclass
    have hlast' : ∀ d ∈ t.getLast?, isSeparator d = true := fun d hd => by
      refine hlast d ?_
      rw [Option.mem_def] at hd ⊢
      rw [List.getLast?_cons, hd, Option.getD_some]
    obtain ⟨ihFresh, ihInside⟩ := ih hclass.2 hlast'
    cases hc : isSeparator c with
    | true =>
      -- Whether a word has begun or not, a separator ends it.
      have hbehind {fresh : Bool} (h : wordsAreNames fresh (c :: t) = true) :
          ∃ s, (∀ d ∈ c :: s, isSeparator d = true) ∧ ∃ u ∈ token∗, t = s ++ u := by
        rw [wordsAreNames, if_pos hc] at h
        obtain ⟨s, hs, u, hu, ht⟩ := ihFresh h
        exact ⟨s, List.forall_mem_cons.mpr ⟨hc, hs⟩, u, hu, ht⟩
      constructor
      · intro h
        obtain ⟨s, hs, u, hu, rfl⟩ := hbehind h
        exact ⟨c :: s, hs, u, hu, rfl⟩
      · intro _ h
        obtain ⟨s, hs, u, hu, rfl⟩ := hbehind h
        exact ⟨[], by simp, c :: s, by simp, hs, u, hu, rfl⟩
    | false =>
      have hword : isWord c = true := hclass.1.resolve_right (by simp [hc])
      -- A character of a word is not the last one of the text.
      have hne : t ≠ [] := by
        rintro rfl
        simp [hlast c rfl] at hc
      constructor <;> intro h
      · rw [wordsAreNames, hc] at h
        simp only [Bool.false_eq_true, if_false, Bool.not_true, Bool.false_or,
          Bool.and_eq_true] at h
        obtain ⟨w, hw, s, hs, hseparators, u, hu, rfl⟩ := ihInside hne h.2
        have htoken : (c :: w) ++ s ∈ token :=
          mem_token_iff.mpr ⟨c :: w, mem_name_iff.mpr ⟨c, w, rfl, h.1, hw⟩, s, hs, hseparators, rfl⟩
        exact ⟨[], by simp, (c :: w) ++ s ++ u, append_mem_kstar_token htoken hu, by simp⟩
      · intro h
        rw [wordsAreNames, hc] at h
        obtain ⟨w, hw, s, hs, hseparators, u, hu, rfl⟩ := ihInside hne (by simpa using h)
        exact ⟨c :: w, List.forall_mem_cons.mpr ⟨hword, hw⟩, s, hs, hseparators, u, hu, rfl⟩

/-- Tokens begin like a name. -/
theorem head?_any_of_mem {t : Text} (ht : t ∈ token * token∗) :
    t.head?.any isNameStart = true := by
  obtain ⟨a, ha, b, hb, rfl⟩ := Language.mem_mul.mp ht
  obtain ⟨word, hword, s, -, -, rfl⟩ := mem_token_iff.mp ha
  obtain ⟨c, rest, rfl, hc, -⟩ := mem_name_iff.mp hword
  simpa using hc

/-- Tokens end with a separator. -/
theorem isSeparator_getLast?_of_mem {t : Text} (ht : t ∈ token * token∗) :
    ∀ c ∈ t.getLast?, isSeparator c = true := by
  rw [← Language.mul_self_kstar_comm] at ht
  obtain ⟨a, ha, b, hb, rfl⟩ := Language.mem_mul.mp ht
  obtain ⟨word, -, s, hne, hs, rfl⟩ := mem_token_iff.mp hb
  intro c hc
  rw [List.getLast?_append_of_ne_nil _ (by simp [hne]), List.getLast?_append_of_ne_nil _ hne] at hc
  exact hs c (List.mem_of_getLast? hc)

/-- The three parts of a text that ends with a word and white space: the last word holds all
characters of words before the white space, and the white space goes to the end. -/
structure WordParts (lead word gap : Text) : Prop where
  /-- Only white space is at the end. -/
  gap_blank : ∀ c ∈ gap, isBlank c = true
  /-- The last word is a word. -/
  word_letters : ∀ c ∈ word, isWord c = true
  /-- No character of the last word is left before it. -/
  lead_stops : ∀ c ∈ lead.getLast?, isWord c = false
  /-- No white space is left before that at the end. -/
  solid : ∀ c ∈ (lead ++ word).getLast?, isBlank c = false

/-- Every text has such parts. -/
theorem exists_wordParts (t : Text) :
    ∃ lead word gap, WordParts lead word gap ∧ t = lead ++ word ++ gap := by
  let stem := t.reverse.dropWhile isBlank
  have hstem : t.reverse.takeWhile isBlank ++ stem = t.reverse := List.takeWhile_append_dropWhile
  have hword : stem.takeWhile isWord ++ stem.dropWhile isWord = stem :=
    List.takeWhile_append_dropWhile
  refine ⟨(stem.dropWhile isWord).reverse, (stem.takeWhile isWord).reverse,
    (t.reverse.takeWhile isBlank).reverse, ⟨?_, ?_, ?_, ?_⟩, ?_⟩
  · exact fun c hc => List.mem_takeWhile_imp (List.mem_reverse.mp hc)
  · exact fun c hc => List.mem_takeWhile_imp (List.mem_reverse.mp hc)
  · rw [List.getLast?_reverse]
    exact head?_dropWhile_of_mem
  · rw [← List.reverse_append, List.getLast?_reverse, hword]
    exact head?_dropWhile_of_mem
  · rw [← List.reverse_append, ← List.reverse_append, hword, hstem, List.reverse_reverse]

/-- The parts are what the words before a parameter list are split into. -/
theorem WordParts.splitWords?_eq {lead word gap : Text} (h : WordParts lead word gap) :
    splitWords? (lead ++ word ++ gap) =
      if lead.head?.any isNameStart && word.head?.any isNameStart && wordsAreNames true lead then
        some (lead, word, gap)
      else none := by
  have hgap : ∀ c ∈ gap.reverse, isBlank c = true := fun c hc =>
    h.gap_blank c (List.mem_reverse.mp hc)
  have hword : ∀ c ∈ word.reverse, isWord c = true := fun c hc =>
    h.word_letters c (List.mem_reverse.mp hc)
  have hsolid : ∀ c ∈ (lead ++ word).reverse.head?, isBlank c = false := by
    rw [List.head?_reverse]
    exact h.solid
  have hlead : ∀ c ∈ lead.reverse.head?, isWord c = false := by
    rw [List.head?_reverse]
    exact h.lead_stops
  have hblanks := span_append hgap hsolid
  have hletters := span_append hword hlead
  have hrev : (lead ++ word ++ gap).reverse = gap.reverse ++ (lead ++ word).reverse :=
    List.reverse_append
  have hrev' : (lead ++ word).reverse = word.reverse ++ lead.reverse := List.reverse_append
  simp only [splitWords?, hrev, hblanks.1, hblanks.2]
  simp only [hrev', hletters.1, hletters.2, List.reverse_reverse]

/-- Words that are split off before a parameter list belong to the grammar. -/
theorem splitWords?_sound {region lead word gap : Text}
    (hclass : ∀ c ∈ region, isWord c = true ∨ isSeparator c = true)
    (h : splitWords? region = some (lead, word, gap)) :
    lead ++ word ++ gap = region ∧ region ∈ words := by
  obtain ⟨front, last, blanks, hparts, rfl⟩ := exists_wordParts region
  rw [hparts.splitWords?_eq] at h
  split_ifs at h with hnames
  obtain ⟨rfl, rfl, rfl⟩ : front = lead ∧ last = word ∧ blanks = gap := by simpa using h
  refine ⟨rfl, ?_⟩
  simp only [Bool.and_eq_true, Option.any_eq_true] at hnames
  obtain ⟨⟨⟨c, hc, hstart⟩, d, hd, hname⟩, hnames⟩ := hnames
  have hseparated : ∀ e ∈ front.getLast?, isSeparator e = true := by
    intro e he
    have hmem : e ∈ front := List.mem_of_getLast? he
    refine (hclass e (by simp [hmem])).resolve_left ?_
    simp [hparts.lead_stops e he]
  obtain ⟨s, hs, tokens, htokens, hfront⟩ :=
    (exists_tokens_of_wordsAreNames (fun e he => hclass e (by simp [he])) hseparated).1 hnames
  -- The first character begins a name, so there are no separators before the tokens.
  cases s with
  | cons e s =>
    obtain rfl : e = c := by simpa [hfront] using hc
    have hsep := hs e List.mem_cons_self
    rw [isSeparator_of_isWord (isWord_of_isNameStart hstart)] at hsep
    cases hsep
  | nil =>
    obtain rfl : front = tokens := hfront
    have hfrontTokens : front ∈ token * token∗ := by
      rw [← Language.one_add_self_mul_kstar_eq_kstar] at htokens
      refine htokens.resolve_left fun hnil => ?_
      simp [(Language.mem_one front).mp hnil] at hc
    obtain ⟨rest, rfl⟩ := List.head?_eq_some_iff.mp hd
    have hword : d :: rest ∈ Grammar.name := mem_name_iff.mpr
      ⟨d, rest, rfl, hname, (List.forall_mem_cons.mp hparts.word_letters).2⟩
    exact mem_words_iff.mpr ⟨front, hfrontTokens, _, hword, blanks, hparts.gap_blank, rfl⟩

/-- Words before a parameter list that the grammar has are split. -/
theorem splitWords?_complete {region : Text} (h : region ∈ words) :
    (splitWords? region).isSome = true := by
  obtain ⟨lead, hlead, word, hword, gap, hgap, rfl⟩ := mem_words_iff.mp h
  have hletters := isWord_of_mem_name hword
  obtain ⟨d, rest, rfl, hd, hrest⟩ := mem_name_iff.mp hword
  have hstops : ∀ c ∈ lead.getLast?, isWord c = false := fun c hc =>
    isWord_of_isSeparator (isSeparator_getLast?_of_mem hlead c hc)
  have hsolid : ∀ c ∈ (lead ++ d :: rest).getLast?, isBlank c = false := by
    intro c hc
    have hmem : c ∈ d :: rest := List.mem_of_getLast? (by simpa using hc)
    exact isBlank_of_isWord (hletters c hmem)
  have hparts : WordParts lead (d :: rest) gap := ⟨hgap, hletters, hstops, hsolid⟩
  have hnames : wordsAreNames true lead = true := by
    obtain ⟨a, ha, b, hb, rfl⟩ := Language.mem_mul.mp hlead
    exact wordsAreNames_of_mem_kstar (append_mem_kstar_token ha hb)
  rw [hparts.splitWords?_eq, head?_any_of_mem hlead, hnames]
  simp [hd]

/-! ### Qualifiers -/

/-- Splitting off a group loses nothing, and what is split off is a group or nothing. -/
theorem splitGroup_sound (t : Text) :
    (splitGroup t).1 ++ (splitGroup t).2 = t ∧
      ((splitGroup t).1 = [] ∨ (splitGroup t).1 ∈ group) := by
  have hblanks := List.takeWhile_append_dropWhile (p := isBlank) (l := t)
  unfold splitGroup
  split
  · rename_i inner hopen
    have hbody := List.takeWhile_append_dropWhile (p := fun c => c != '(' && c != ')') (l := inner)
    dsimp only
    split
    · rename_i rest hclose
      rw [hclose] at hbody
      rw [hopen] at hblanks
      refine ⟨by simp [hbody, hblanks], Or.inr (mem_group_iff.mpr ⟨t.takeWhile isBlank,
        inner.takeWhile fun c => c != '(' && c != ')', ?_, ?_, by simp⟩)⟩
      · exact fun c hc => List.mem_takeWhile_imp hc
      · exact fun c hc => by simpa using List.mem_takeWhile_imp hc
    · exact ⟨rfl, Or.inl rfl⟩
  · exact ⟨rfl, Or.inl rfl⟩

/-- Splitting off qualifiers loses nothing, and what is split off belongs to the grammar. -/
theorem splitQualifiers_sound (t : Text) :
    (splitQualifiers t).1 ++ (splitQualifiers t).2 = t ∧
      (splitQualifiers t).1 ∈ Grammar.qualifiers := by
  fun_induction splitQualifiers t with
  | case1 t blanks after hqualifier g ih =>
    have hblanks : blanks ++ after = t := List.takeWhile_append_dropWhile
    have hword : after.takeWhile isWord ++ after.dropWhile isWord = after :=
      List.takeWhile_append_dropWhile
    obtain ⟨hgroup, hshape⟩ := splitGroup_sound (after.dropWhile isWord)
    obtain ⟨hrest, hmem⟩ := ih
    have hq : blanks ++ after.takeWhile isWord ++ g.1 ∈ qualifier := by
      obtain ⟨hne, hstart⟩ := hqualifier
      obtain ⟨blank, others, hothers⟩ := List.exists_cons_of_ne_nil hne
      have hspace : ∀ c ∈ blank :: others, isBlank c = true :=
        fun c hc => List.mem_takeWhile_imp (hothers ▸ hc)
      rw [List.forall_mem_cons] at hspace
      rw [Option.any_eq_true] at hstart
      obtain ⟨d, hd, hd'⟩ := hstart
      obtain ⟨rest, hafter⟩ := List.head?_eq_some_iff.mp hd
      have hname : after.takeWhile isWord ∈ Grammar.name := by
        refine mem_name_iff.mpr ⟨d, rest.takeWhile isWord, ?_, hd', fun c hc =>
          List.mem_takeWhile_imp hc⟩
        rw [hafter, List.takeWhile_cons_of_pos (isWord_of_isNameStart hd')]
      exact mem_qualifier_iff.mpr ⟨blank, others, after.takeWhile isWord, g.1, hspace.1,
        hspace.2, hname, hshape, by simp [hothers]⟩
    refine ⟨?_, append_mem_qualifiers hq hmem⟩
    change blanks ++ after.takeWhile isWord ++ g.1 ++ (splitQualifiers g.2).1 ++
      (splitQualifiers g.2).2 = t
    rw [List.append_assoc _ (splitQualifiers g.2).1, hrest, List.append_assoc, hgroup,
      List.append_assoc, hword, hblanks]
  | case2 t blanks after hqualifier =>
    exact ⟨List.takeWhile_append_dropWhile,
      blanks_mem_qualifiers fun c hc => List.mem_takeWhile_imp hc⟩

/-- What may stand behind a qualifier: no more of its word, and no group. -/
structure Follows (rest : Text) : Prop where
  /-- The word of the qualifier has ended. -/
  word_ended : ∀ c ∈ rest.head?, isWord c = false
  /-- No parenthesis opens a group. -/
  no_group : (rest.dropWhile isBlank).head? ≠ some '('

/-- The end of a header: the end of the text or a semicolon. -/
def EndsHeader (rest : Text) : Prop :=
  ∀ c ∈ rest.head?, c = ';'

/-- A group in front of what may follow a qualifier is split off. -/
theorem splitGroup_append {g rest : Text} (hg : g = [] ∨ g ∈ group) (hrest : Follows rest) :
    splitGroup (g ++ rest) = (g, rest) := by
  rcases hg with rfl | hg
  · rw [List.nil_append, splitGroup]
    split
    · rename_i inner hopen
      exact absurd (by rw [hopen]; rfl) hrest.no_group
    · rfl
  · obtain ⟨blanks, body, hblanks, hbody, rfl⟩ := mem_group_iff.mp hg
    have hopen : ∀ c ∈ ('(' :: (body ++ ')' :: rest)).head?, isBlank c = false :=
      forall_mem_head?_cons.mpr (by decide)
    have hinside : ∀ c ∈ body, (c != '(' && c != ')') = true := fun c hc => by
      simpa using hbody c hc
    have hclose : ∀ c ∈ (')' :: rest).head?, (c != '(' && c != ')') = false :=
      forall_mem_head?_cons.mpr (by decide)
    have hspan := span_append hblanks hopen
    have hinner := span_append hinside hclose
    have hshape : blanks ++ '(' :: (body ++ [')']) ++ rest =
        blanks ++ '(' :: (body ++ ')' :: rest) := by simp
    rw [hshape, splitGroup]
    simp [hspan, hinner]

/-- A qualifier in front of what may follow it is split off first. -/
theorem splitQualifiers_qualifier_append {q rest : Text} (hq : q ∈ qualifier)
    (hrest : Follows rest) :
    splitQualifiers (q ++ rest) = (splitQualifiers rest).map (q ++ ·) id := by
  obtain ⟨blank, blanks, word, extra, hblank, hblanks, hword, hextra, rfl⟩ :=
    mem_qualifier_iff.mp hq
  have hletters := isWord_of_mem_name hword
  obtain ⟨c, letters, rfl, hc, -⟩ := mem_name_iff.mp hword
  have hspace : ∀ d ∈ blank :: blanks, isBlank d = true :=
    List.forall_mem_cons.mpr ⟨hblank, hblanks⟩
  have hended : ∀ d ∈ (extra ++ rest).head?, isWord d = false := by
    rcases hextra with rfl | hextra
    · exact hrest.word_ended
    · obtain ⟨gap, body, hgap, -, rfl⟩ := mem_group_iff.mp hextra
      cases gap with
      | nil => exact forall_mem_head?_cons.mpr (by decide)
      | cons d gap => simpa using isWord_of_isBlank (hgap d List.mem_cons_self)
  have hafter := span_append hspace
    (show ∀ d ∈ (c :: letters ++ (extra ++ rest)).head?, isBlank d = false by
      simpa using isBlank_of_isWord (isWord_of_isNameStart hc))
  have hrun := span_append hletters hended
  have hshape : blank :: (blanks ++ (c :: letters ++ extra)) ++ rest =
      (blank :: blanks) ++ (c :: letters ++ (extra ++ rest)) := by simp
  rw [hshape, splitQualifiers, hafter.1, hafter.2, hrun.1, hrun.2, splitGroup_append hextra hrest]
  simp [hc]

/-- At the end of a header neither a word nor a group goes on. -/
theorem EndsHeader.follows {blanks rest : Text} (hblanks : ∀ c ∈ blanks, isBlank c = true)
    (hrest : EndsHeader rest) : Follows (blanks ++ rest) := by
  have hend : ∀ c ∈ rest.head?, isBlank c = false ∧ isWord c = false ∧ c ≠ '(' := by
    intro c hc
    rw [hrest c hc]
    decide
  constructor
  · cases blanks with
    | nil => exact fun c hc => (hend c hc).2.1
    | cons c blanks => simpa using isWord_of_isBlank (hblanks c List.mem_cons_self)
  · rw [(span_append hblanks fun c hc => (hend c hc).1).2]
    exact fun hopen => (hend '(' hopen).2.2 rfl

/-- In front of a qualifier neither a word nor a group goes on. -/
theorem follows_qualifier_append {q : Text} (hq : q ∈ qualifier) (rest : Text) :
    Follows (q ++ rest) := by
  obtain ⟨blank, blanks, word, extra, hblank, hblanks, hword, -, rfl⟩ := mem_qualifier_iff.mp hq
  obtain ⟨c, letters, rfl, hc, -⟩ := mem_name_iff.mp hword
  have hspace : ∀ d ∈ blank :: blanks, isBlank d = true :=
    List.forall_mem_cons.mpr ⟨hblank, hblanks⟩
  have hshape : blank :: (blanks ++ (c :: letters ++ extra)) ++ rest =
      (blank :: blanks) ++ (c :: (letters ++ extra ++ rest)) := by simp
  constructor
  · simpa using isWord_of_isBlank hblank
  · have hname : isBlank c = false := isBlank_of_isWord (isWord_of_isNameStart hc)
    rw [hshape, (span_append hspace (forall_mem_head?_cons.mpr hname)).2]
    rintro hopen
    obtain rfl : c = '(' := by simpa using hopen
    exact absurd hc (by decide)

/-- Qualifiers in front of the end of a header are split off as they stand. -/
theorem splitQualifiers_append {q rest : Text} (hq : q ∈ Grammar.qualifiers)
    (hrest : EndsHeader rest) : splitQualifiers (q ++ rest) = (q, rest) := by
  obtain ⟨qs, hqs, blanks, hblanks, rfl⟩ := mem_qualifiers_iff.mp hq
  clear hq
  induction qs with
  | nil =>
    have hend : ∀ c ∈ rest.head?, isBlank c = false := fun c hc => by
      rw [hrest c hc]
      decide
    have hstart : rest.head?.any isNameStart = false := by
      cases rest with
      | nil => rfl
      | cons c rest =>
        obtain rfl := hrest c rfl
        rfl
    rw [List.flatten_nil, List.nil_append, splitQualifiers, (span_append hblanks hend).1,
      (span_append hblanks hend).2]
    simp [hstart]
  | cons q qs ih =>
    rw [List.forall_mem_cons] at hqs
    have hfollows : Follows (qs.flatten ++ blanks ++ rest) := by
      cases qs with
      | nil => exact hrest.follows hblanks
      | cons next qs =>
        rw [List.flatten_cons, List.append_assoc, List.append_assoc]
        exact follows_qualifier_append (hqs.2 next List.mem_cons_self) _
    rw [List.flatten_cons, List.append_assoc, List.append_assoc,
      splitQualifiers_qualifier_append hqs.1 (by rwa [← List.append_assoc]),
      ← List.append_assoc qs.flatten, ih hqs.2]
    simp [Prod.map]

/-! ### Headers -/

/-- A parameter list that is split off holds no semicolon, and what follows its
qualifiers is accepted. -/
theorem splitParams?_sound {accepts : Text → Bool} {t params after : Text}
    (h : splitParams? accepts t = some (params, after)) :
    t = params ++ ')' :: after ∧ ';' ∉ params ∧ accepts (splitQualifiers after).2 = true := by
  induction t generalizing params with
  | nil => simp [splitParams?] at h
  | cons c t ih =>
    rw [splitParams?] at h
    split_ifs at h with hsemicolon hclose
    · obtain ⟨rfl, rfl⟩ : [] = params ∧ t = after := by simpa using h
      simp only [Bool.and_eq_true, decide_eq_true_eq] at hclose
      exact ⟨by rw [hclose.1]; rfl, by simp, hclose.2⟩
    · obtain ⟨⟨inner, behind⟩, hinner, hsplit⟩ := Option.map_eq_some_iff.mp h
      obtain ⟨rfl, rfl⟩ := Prod.mk.inj hsplit
      obtain ⟨rfl, hnone, haccepts⟩ := ih hinner
      exact ⟨rfl, by simpa using ⟨fun hc => hsemicolon hc.symm, hnone⟩, haccepts⟩

/-- A parameter list is found if there is one. -/
theorem splitParams?_complete {accepts : Text → Bool} {params after : Text}
    (hparams : ';' ∉ params) (hafter : accepts (splitQualifiers after).2 = true) :
    (splitParams? accepts (params ++ ')' :: after)).isSome = true := by
  induction params with
  | nil => simp [splitParams?, hafter]
  | cons c params ih =>
    rw [List.mem_cons, not_or] at hparams
    rw [List.cons_append, splitParams?, if_neg (Ne.symm hparams.1)]
    split
    · rfl
    · rw [Option.isSome_map]
      exact ih hparams.2

/-- A header that is read belongs to the grammar, and what follows it is accepted. -/
theorem read?_sound {accepts : Text → Bool} {t rest : Text} {h : Header}
    (hread : read? accepts t = some (h, rest)) :
    t = h.text ++ rest ∧ h.text ∈ header ∧ accepts rest = true := by
  let region := t.takeWhile fun c => isWord c || isSeparator c
  have ht := List.takeWhile_append_dropWhile (p := fun c => isWord c || isSeparator c) (l := t)
  have hclass : ∀ c ∈ region, isWord c = true ∨ isSeparator c = true := fun c hc => by
    simpa using List.mem_takeWhile_imp hc
  rw [read?] at hread
  split at hread
  · rename_i afterParen hparen
    rw [hparen] at ht
    simp only [Option.bind_eq_bind, Option.bind_eq_some_iff, Prod.exists] at hread
    obtain ⟨lead, word, gap, hwords, params, afterParams, hparams, hread⟩ := hread
    obtain ⟨hregion, hmem⟩ := splitWords?_sound hclass hwords
    obtain ⟨rfl, hnone, haccepts⟩ := splitParams?_sound hparams
    obtain ⟨hlossless, hqualifiers⟩ := splitQualifiers_sound afterParams
    obtain ⟨rfl, rfl⟩ := Prod.mk.inj (Option.some.inj hread)
    have htext : Header.text ⟨lead, word, gap, params, (splitQualifiers afterParams).1⟩ =
        region ++ '(' :: (params ++ ')' :: (splitQualifiers afterParams).1) := by
      rw [Header.text, hregion]
      simp
    refine ⟨?_, ?_, haccepts⟩
    · rw [← ht, htext]
      conv_lhs => rw [← hlossless]
      simp [region]
    · rw [htext]
      exact mem_header_iff.mpr ⟨region, params, _, hmem, hnone, hqualifiers, rfl⟩
  · cases hread

/-- A header is read where the grammar has one with an end that is accepted. -/
theorem read?_complete {accepts : Text → Bool} {t rest : Text} (ht : t ∈ header)
    (hrest : EndsHeader rest) (haccepts : accepts rest = true) :
    (read? accepts (t ++ rest)).isSome = true := by
  obtain ⟨before, params, after, hbefore, hparams, hafter, rfl⟩ := mem_header_iff.mp ht
  have hclass : ∀ c ∈ before, (isWord c || isSeparator c) = true := fun c hc => by
    simpa using isWord_or_isSeparator_of_mem_words hbefore c hc
  have hparen : ∀ c ∈ ('(' :: (params ++ ')' :: (after ++ rest))).head?,
      (isWord c || isSeparator c) = false :=
    forall_mem_head?_cons.mpr (by decide)
  have hspan := span_append hclass hparen
  have hshape : before ++ '(' :: (params ++ ')' :: after) ++ rest =
      before ++ '(' :: (params ++ ')' :: (after ++ rest)) := by simp
  obtain ⟨⟨lead, word, gap⟩, hwords⟩ := Option.isSome_iff_exists.mp (splitWords?_complete hbefore)
  have hend : accepts (splitQualifiers (after ++ rest)).2 = true := by
    rwa [splitQualifiers_append hafter hrest]
  obtain ⟨split, hsplit⟩ := Option.isSome_iff_exists.mp (splitParams?_complete hparams hend)
  rw [hshape, read?, hspan.1, hspan.2]
  simp [hwords, hsplit]

/-- A line is a header exactly if it belongs to the grammar. -/
theorem isSome_ofLine?_iff {t : Text} : (ofLine? t).isSome = true ↔ t ∈ header := by
  rw [ofLine?, Option.isSome_map]
  constructor
  · intro hsome
    obtain ⟨⟨h, rest⟩, hread⟩ := Option.isSome_iff_exists.mp hsome
    obtain ⟨rfl, hmem, hempty⟩ := read?_sound hread
    rw [List.isEmpty_iff] at hempty
    rwa [hempty, List.append_nil]
  · intro ht
    have hend : EndsHeader [] := by simp [EndsHeader]
    have hread := read?_complete ht hend (show List.isEmpty ([] : Text) = true from rfl)
    rwa [List.append_nil] at hread

end Header

end PrototypeGate

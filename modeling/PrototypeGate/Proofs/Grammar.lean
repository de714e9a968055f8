import Mathlib.Computability.Language
import PrototypeGate.Declaration.Header

/-!
# The grammar of function headers

The header of a function is one or more words with separators behind them, the name, a
parameter list without semicolons, and qualifiers that may carry a parenthesised group.
This file gives the grammar as a language over characters, and the one fact about it that
decides where a prototype ends: a semicolon in a header stands in the group of a qualifier,
so the last parenthesis before it is an opening one, whereas the last parenthesis of a
whole header is a closing one. No header therefore ends at a semicolon inside another.
-/

namespace PrototypeGate

open scoped Computability

/-! ### Character classes -/

/-- Tables that do not overlap have no character in common. -/
theorem not_inRanges_of_disjoint {a b : List (Nat × Nat)} {c : Char}
    (hdisjoint : ∀ r ∈ a, ∀ s ∈ b, r.2 < s.1 ∨ s.2 < r.1) (hc : inRanges a c = true) :
    inRanges b c = false := by
  simp only [inRanges, List.any_eq_true, Bool.and_eq_true, decide_eq_true_eq] at hc
  obtain ⟨r, hr, hlow, hhigh⟩ := hc
  simp only [inRanges, List.any_eq_false, Bool.and_eq_true, decide_eq_true_eq, not_and, not_le]
  intro s hs hlow'
  have := hdisjoint r hr s hs
  omega

/-- White space is no part of a word. -/
theorem isWord_of_isBlank {c : Char} (h : isBlank c = true) : isWord c = false := by
  by_cases hascii : c.toNat < 0x80
  · have htable : ∀ n < 0x80, isBlank (Char.ofNat n) = true → isWord (Char.ofNat n) = false := by
      decide
    have hc := htable c.toNat hascii
    rw [Char.ofNat_toNat] at hc
    exact hc h
  · rw [isWord, if_neg hascii]
    exact not_inRanges_of_disjoint (by decide +kernel) h

/-- A separator is no part of a word. -/
theorem isWord_of_isSeparator {c : Char} (h : isSeparator c = true) : isWord c = false := by
  rcases Bool.or_eq_true_iff.mp h with hblank | hstar
  · exact isWord_of_isBlank hblank
  · rw [eq_of_beq hstar]
    decide

/-- A part of a word is no separator. -/
theorem isSeparator_of_isWord {c : Char} (h : isWord c = true) : isSeparator c = false := by
  by_contra hsep
  rw [isWord_of_isSeparator (by simpa using hsep)] at h
  cases h

/-- A part of a word is no white space. -/
theorem isBlank_of_isWord {c : Char} (h : isWord c = true) : isBlank c = false :=
  (Bool.or_eq_false_iff.mp (isSeparator_of_isWord h)).1

namespace Grammar

/-! ### The grammar -/

/-- The texts of a single character of a class. -/
def one (p : Char → Bool) : Language Char :=
  {t | ∃ c, p c = true ∧ t = [c]}

/-- The texts of any number of characters of a class. -/
def many (p : Char → Bool) : Language Char :=
  (one p)∗

/-- Names, which begin with an ASCII letter or an underscore. -/
def name : Language Char :=
  one isNameStart * many isWord

/-- A type or a qualifier before the name, with the white space and stars behind it. -/
def token : Language Char :=
  name * (one isSeparator * many isSeparator)

/-- All that stands before the parameter list. -/
def words : Language Char :=
  token * token∗ * many (· == '*') * name * many isBlank

/-- A parameter list with its parentheses. -/
def parameters : Language Char :=
  one (· == '(') * many (· != ';') * one (· == ')')

/-- A parenthesised group without inner parentheses, behind optional white space. -/
def group : Language Char :=
  many isBlank * one (· == '(') * many (fun c => c != '(' && c != ')') * one (· == ')')

/-- A qualifier behind the parameter list, with an optional group. -/
def qualifier : Language Char :=
  one isBlank * many isBlank * name * (1 + group)

/-- All that stands behind the parameter list. -/
def qualifiers : Language Char :=
  qualifier∗ * many isBlank

/-- Function headers. -/
def header : Language Char :=
  words * parameters * qualifiers

/-! ### Members -/

/-- A text of a single character. -/
theorem singleton_mem_one {p : Char → Bool} {c : Char} : [c] ∈ one p ↔ p c = true := by
  constructor
  · rintro ⟨d, hd, hcd⟩
    rwa [(List.cons.inj hcd).1]
  · exact fun hc => ⟨c, hc, rfl⟩

/-- A text of any number of characters of a class holds such characters only. -/
theorem mem_many_iff {p : Char → Bool} {t : Text} : t ∈ many p ↔ ∀ c ∈ t, p c = true := by
  rw [many, Language.mem_kstar]
  constructor
  · rintro ⟨parts, rfl, hparts⟩ c hc
    obtain ⟨part, hpart, hc⟩ := List.mem_flatten.mp hc
    obtain ⟨d, hd, rfl⟩ := hparts part hpart
    rwa [List.mem_singleton.mp hc]
  · intro ht
    refine ⟨t.map ([·]), ?_, ?_⟩
    · rw [← List.flatMap_def, List.flatMap_singleton']
    · intro part hpart
      obtain ⟨c, hc, rfl⟩ := List.mem_map.mp hpart
      exact singleton_mem_one.mpr (ht c hc)

/-- A name is a character that begins names and more characters of words. -/
theorem mem_name_iff {t : Text} :
    t ∈ name ↔ ∃ c rest, t = c :: rest ∧ isNameStart c = true ∧ ∀ d ∈ rest, isWord d = true := by
  rw [name, Language.mem_mul]
  constructor
  · rintro ⟨_, ⟨c, hc, rfl⟩, rest, hrest, rfl⟩
    exact ⟨c, rest, rfl, hc, mem_many_iff.mp hrest⟩
  · rintro ⟨c, rest, rfl, hc, hrest⟩
    exact ⟨[c], singleton_mem_one.mpr hc, rest, mem_many_iff.mpr hrest, rfl⟩

/-- A token is a name with at least one separator behind it. -/
theorem mem_token_iff {t : Text} :
    t ∈ token ↔ ∃ word ∈ name, ∃ s, s ≠ [] ∧ (∀ c ∈ s, isSeparator c = true) ∧ t = word ++ s := by
  simp only [token, Language.mem_mul, mem_many_iff]
  constructor
  · rintro ⟨word, hword, _, ⟨_, ⟨c, hc, rfl⟩, rest, hrest, rfl⟩, rfl⟩
    exact ⟨word, hword, c :: rest, by simp, List.forall_mem_cons.mpr ⟨hc, hrest⟩, rfl⟩
  · rintro ⟨word, hword, s, hne, hs, rfl⟩
    obtain ⟨c, rest, rfl⟩ := List.exists_cons_of_ne_nil hne
    rw [List.forall_mem_cons] at hs
    exact ⟨word, hword, _, ⟨[c], singleton_mem_one.mpr hs.1, rest, hs.2, rfl⟩, rfl⟩

/-- A token before tokens. -/
theorem append_mem_kstar_token {a t : Text} (ha : a ∈ token) (ht : t ∈ token∗) :
    a ++ t ∈ token∗ := by
  rw [← Language.one_add_self_mul_kstar_eq_kstar]
  exact Or.inr (Language.append_mem_mul ha ht)

/-- Separators behind tokens belong to the last one. -/
theorem append_separators_mem {lead s : Text} (hlead : lead ∈ token * token∗)
    (hs : ∀ c ∈ s, isSeparator c = true) : lead ++ s ∈ token * token∗ := by
  rw [← Language.mul_self_kstar_comm, Language.mem_mul] at hlead ⊢
  obtain ⟨before, hbefore, last, hlast, rfl⟩ := hlead
  obtain ⟨word, hword, separators, hne, hseparators, rfl⟩ := mem_token_iff.mp hlast
  refine ⟨before, hbefore, word ++ (separators ++ s), ?_, by simp⟩
  exact mem_token_iff.mpr ⟨word, hword, separators ++ s, by simp [hne],
    List.forall_mem_append.mpr ⟨hseparators, hs⟩, rfl⟩

/-- Before the parameter list stand tokens, the name and white space. -/
theorem mem_words_iff {t : Text} :
    t ∈ words ↔ ∃ lead ∈ token * token∗, ∃ word ∈ name, ∃ gap,
      (∀ c ∈ gap, isBlank c = true) ∧ t = lead ++ word ++ gap := by
  constructor
  · rintro ⟨_, ⟨_, ⟨lead, hlead, stars, hstars, rfl⟩, word, hword, rfl⟩, gap, hgap, rfl⟩
    have hseparators : ∀ c ∈ stars, isSeparator c = true := fun c hc => by
      rw [isSeparator, mem_many_iff.mp hstars c hc, Bool.or_true]
    exact ⟨lead ++ stars, append_separators_mem hlead hseparators, word, hword, gap,
      mem_many_iff.mp hgap, rfl⟩
  · rintro ⟨lead, hlead, word, hword, gap, hgap, rfl⟩
    exact ⟨lead ++ word, ⟨lead, ⟨lead, hlead, [], Language.nil_mem_kstar _, by simp⟩, word,
      hword, rfl⟩, gap, mem_many_iff.mpr hgap, rfl⟩

/-- A group is optional white space and a pair of parentheses without others inside. -/
theorem mem_group_iff {t : Text} :
    t ∈ group ↔ ∃ blanks body, (∀ c ∈ blanks, isBlank c = true) ∧
      (∀ c ∈ body, c ≠ '(' ∧ c ≠ ')') ∧ t = blanks ++ '(' :: (body ++ [')']) := by
  simp only [group, Language.mem_mul, mem_many_iff]
  constructor
  · rintro ⟨_, ⟨_, ⟨blanks, hblanks, _, ⟨c, hc, rfl⟩, rfl⟩, body, hbody, rfl⟩, _, ⟨d, hd, rfl⟩, rfl⟩
    refine ⟨blanks, body, hblanks, fun e he => by simpa using hbody e he, ?_⟩
    rw [eq_of_beq hc, eq_of_beq hd]
    simp
  · rintro ⟨blanks, body, hblanks, hbody, rfl⟩
    have hinside : ∀ c ∈ body, (c != '(' && c != ')') = true := fun c hc => by
      simpa using hbody c hc
    exact ⟨blanks ++ ['('] ++ body,
      ⟨blanks ++ ['('], ⟨blanks, hblanks, ['('], ⟨'(', rfl, rfl⟩, rfl⟩, body, hinside, rfl⟩,
      [')'], ⟨')', rfl, rfl⟩, by simp⟩

/-- A qualifier is white space, a name and an optional group. -/
theorem mem_qualifier_iff {t : Text} :
    t ∈ qualifier ↔ ∃ blank blanks word extra, isBlank blank = true ∧
      (∀ c ∈ blanks, isBlank c = true) ∧ word ∈ name ∧ (extra = [] ∨ extra ∈ group) ∧
      t = blank :: (blanks ++ (word ++ extra)) := by
  simp only [qualifier, Language.mem_mul, mem_many_iff, Language.mem_add, Language.mem_one]
  constructor
  · rintro ⟨_, ⟨_, ⟨_, ⟨c, hc, rfl⟩, blanks, hblanks, rfl⟩, word, hword, rfl⟩, extra, hextra, rfl⟩
    exact ⟨c, blanks, word, extra, hc, hblanks, hword, hextra, by simp⟩
  · rintro ⟨c, blanks, word, extra, hc, hblanks, hword, hextra, rfl⟩
    exact ⟨[c] ++ blanks ++ word, ⟨[c] ++ blanks, ⟨[c], ⟨c, hc, rfl⟩, blanks, hblanks, rfl⟩,
      word, hword, rfl⟩, extra, hextra, by simp⟩

/-- Behind the parameter list stand any number of qualifiers and white space. -/
theorem mem_qualifiers_iff {t : Text} :
    t ∈ qualifiers ↔ ∃ qs : List Text, (∀ q ∈ qs, q ∈ qualifier) ∧
      ∃ blanks, (∀ c ∈ blanks, isBlank c = true) ∧ t = qs.flatten ++ blanks := by
  simp only [qualifiers, Language.mem_mul, Language.mem_kstar, mem_many_iff]
  constructor
  · rintro ⟨_, ⟨qs, rfl, hqs⟩, blanks, hblanks, rfl⟩
    exact ⟨qs, hqs, blanks, hblanks, rfl⟩
  · rintro ⟨qs, hqs, blanks, hblanks, rfl⟩
    exact ⟨qs.flatten, ⟨qs, rfl, hqs⟩, blanks, hblanks, rfl⟩

/-- White space stands behind a parameter list without qualifiers. -/
theorem blanks_mem_qualifiers {t : Text} (ht : ∀ c ∈ t, isBlank c = true) : t ∈ qualifiers :=
  mem_qualifiers_iff.mpr ⟨[], by simp, t, ht, rfl⟩

/-- A qualifier before what stands behind a parameter list. -/
theorem append_mem_qualifiers {a t : Text} (ha : a ∈ qualifier) (ht : t ∈ qualifiers) :
    a ++ t ∈ qualifiers := by
  obtain ⟨qs, hqs, blanks, hblanks, rfl⟩ := mem_qualifiers_iff.mp ht
  exact mem_qualifiers_iff.mpr ⟨a :: qs, List.forall_mem_cons.mpr ⟨ha, hqs⟩, blanks, hblanks,
    by simp⟩

/-- A header is what stands before the parameter list, the list, and what stands behind
it. -/
theorem mem_header_iff {t : Text} :
    t ∈ header ↔ ∃ before params after, before ∈ words ∧ ';' ∉ params ∧ after ∈ qualifiers ∧
      t = before ++ '(' :: (params ++ ')' :: after) := by
  simp only [header, parameters, Language.mem_mul, mem_many_iff]
  constructor
  · rintro ⟨_, ⟨before, hbefore, _, ⟨_, ⟨_, ⟨c, hc, rfl⟩, params, hparams, rfl⟩, _, ⟨d, hd, rfl⟩,
      rfl⟩, rfl⟩, after, hafter, rfl⟩
    refine ⟨before, params, after, hbefore, fun h => by simpa using hparams _ h, hafter, ?_⟩
    rw [eq_of_beq hc, eq_of_beq hd]
    simp
  · rintro ⟨before, params, after, hbefore, hparams, hafter, rfl⟩
    have hnone : ∀ c ∈ params, (c != ';') = true := by
      intro c hc
      simpa using fun h : c = ';' => hparams (h ▸ hc)
    exact ⟨before ++ (['('] ++ params ++ [')']), ⟨before, hbefore, _, ⟨['('] ++ params,
      ⟨['('], ⟨'(', rfl, rfl⟩, params, hnone, rfl⟩, [')'], ⟨')', rfl, rfl⟩, rfl⟩, rfl⟩,
      after, hafter, by simp⟩

/-! ### Properties that hold part by part -/

section Parts

variable {P : Text → Prop} {l m : Language Char}

/-- What holds of two parts, and of a text if it holds of its parts, holds of both parts
together. -/
theorem forall_mem_mul (happend : ∀ a b, P a → P b → P (a ++ b)) (hl : ∀ t ∈ l, P t)
    (hm : ∀ t ∈ m, P t) : ∀ t ∈ l * m, P t := by
  intro t ht
  obtain ⟨a, ha, b, hb, rfl⟩ := Language.mem_mul.mp ht
  exact happend a b (hl a ha) (hm b hb)

/-- What holds of a part, and of a text if it holds of its parts, holds of any number of
parts. -/
theorem forall_mem_kstar (hnil : P []) (happend : ∀ a b, P a → P b → P (a ++ b))
    (hl : ∀ t ∈ l, P t) : ∀ t ∈ l∗, P t := by
  intro t ht
  obtain ⟨parts, rfl, hparts⟩ := Language.mem_kstar.mp ht
  induction parts with
  | nil => exact hnil
  | cons part parts ih =>
    simp only [List.forall_mem_cons] at hparts
    exact happend part parts.flatten (hl part hparts.1)
      (ih hparts.2 (Language.join_mem_kstar hparts.2))

end Parts

/-- The characters of names are those of words. -/
theorem isWord_of_mem_name {t : Text} (ht : t ∈ name) : ∀ c ∈ t, isWord c = true := by
  obtain ⟨c, rest, rfl, hc, hrest⟩ := mem_name_iff.mp ht
  exact List.forall_mem_cons.mpr ⟨isWord_of_isNameStart hc, hrest⟩

/-- What stands before the parameter list is made of words and separators. -/
theorem isWord_or_isSeparator_of_mem_words {t : Text} (ht : t ∈ words) :
    ∀ c ∈ t, isWord c = true ∨ isSeparator c = true := by
  have happend (a b : Text) (ha : ∀ c ∈ a, isWord c = true ∨ isSeparator c = true)
      (hb : ∀ c ∈ b, isWord c = true ∨ isSeparator c = true) :
      ∀ c ∈ a ++ b, isWord c = true ∨ isSeparator c = true := by
    simpa [or_imp, forall_and] using And.intro ha hb
  have hname (a : Text) (ha : a ∈ name) : ∀ c ∈ a, isWord c = true ∨ isSeparator c = true :=
    fun c hc => Or.inl (isWord_of_mem_name ha c hc)
  have hmany {p : Char → Bool} (hp : ∀ c, p c = true → isSeparator c = true) (a : Text)
      (ha : a ∈ many p) : ∀ c ∈ a, isWord c = true ∨ isSeparator c = true :=
    fun c hc => Or.inr (hp c (mem_many_iff.mp ha c hc))
  have htoken : ∀ a ∈ token, ∀ c ∈ a, isWord c = true ∨ isSeparator c = true := by
    refine forall_mem_mul happend hname (forall_mem_mul happend ?_ (hmany fun c hc => hc))
    rintro _ ⟨d, hd, rfl⟩
    simp [hd]
  refine forall_mem_mul happend (forall_mem_mul happend (forall_mem_mul happend
    (forall_mem_mul happend htoken (forall_mem_kstar (by simp) happend htoken)) ?_) hname) ?_ t ht
  · exact hmany fun c hc => by simp [isSeparator, eq_of_beq hc]
  · exact hmany fun c hc => by simp [isSeparator, hc]

/-! ### Parentheses and semicolons -/

/-- The last parenthesis of a text. -/
def lastParen (t : Text) : Option Char :=
  t.reverse.find? fun c => c == '(' || c == ')'

/-- The last parenthesis of two texts is that of the second one, if it has any. -/
theorem lastParen_append (a b : Text) : lastParen (a ++ b) = (lastParen b).or (lastParen a) := by
  rw [lastParen, List.reverse_append, List.find?_append]
  rfl

/-- A text without parentheses has no last one. -/
theorem lastParen_eq_none {t : Text} (h : ∀ c ∈ t, c ≠ '(' ∧ c ≠ ')') : lastParen t = none := by
  simpa [lastParen] using h

/-- No parenthesis of the text is left open, and its semicolons stand inside open ones. -/
structure Enclosing (t : Text) : Prop where
  /-- The last parenthesis is no opening one. -/
  closed : lastParen t ≠ some '('
  /-- The last parenthesis before a semicolon is an opening one. -/
  semicolons : ∀ before after, t = before ++ ';' :: after → lastParen before = some '('

/-- A text without parentheses and semicolons leaves nothing open. -/
theorem enclosing_of_plain {t : Text} (h : ∀ c ∈ t, c ≠ '(' ∧ c ≠ ')' ∧ c ≠ ';') :
    Enclosing t := by
  constructor
  · simp [lastParen_eq_none fun c hc => ⟨(h c hc).1, (h c hc).2.1⟩]
  · rintro before after rfl
    exact absurd rfl (h ';' (by simp)).2.2

/-- Two texts that leave nothing open leave nothing open together. -/
theorem Enclosing.append {a b : Text} (ha : Enclosing a) (hb : Enclosing b) :
    Enclosing (a ++ b) := by
  constructor
  · rw [lastParen_append]
    cases hlast : lastParen b with
    | none => exact ha.closed
    | some c => exact fun hc => hb.closed (hlast.trans hc)
  · intro before after h
    rcases List.append_eq_append_iff.mp h with ⟨middle, rfl, hmiddle⟩ | ⟨middle, rfl, hmiddle⟩
    · rw [lastParen_append, hb.semicolons middle after hmiddle]
      rfl
    · cases middle with
      | nil =>
        -- The semicolon would be the first character of the second text.
        have hfirst := hb.semicolons [] after (by simpa using hmiddle.symm)
        cases hfirst
      | cons c middle =>
        obtain ⟨rfl, -⟩ := List.cons.inj hmiddle
        exact ha.semicolons before middle rfl

private theorem plain_of_class {p : Char → Bool} (hopen : p '(' = false) (hclose : p ')' = false)
    (hsemicolon : p ';' = false) {c : Char} (h : p c = true) : c ≠ '(' ∧ c ≠ ')' ∧ c ≠ ';' := by
  refine ⟨?_, ?_, ?_⟩ <;> rintro rfl <;> simp_all

private theorem plain_of_isBlank {c : Char} : isBlank c = true → c ≠ '(' ∧ c ≠ ')' ∧ c ≠ ';' :=
  plain_of_class (by decide) (by decide) (by decide)

private theorem plain_of_isWord {c : Char} : isWord c = true → c ≠ '(' ∧ c ≠ ')' ∧ c ≠ ';' :=
  plain_of_class (by decide) (by decide) (by decide)

private theorem plain_of_isSeparator {c : Char} :
    isSeparator c = true → c ≠ '(' ∧ c ≠ ')' ∧ c ≠ ';' :=
  plain_of_class (by decide) (by decide) (by decide)

/-- The group of a qualifier is closed, and semicolons in it stand inside. -/
theorem enclosing_of_mem_group {t : Text} (ht : t ∈ group) : Enclosing t := by
  obtain ⟨blanks, body, hblanks, hbody, rfl⟩ := mem_group_iff.mp ht
  have hblanks : Enclosing blanks := enclosing_of_plain fun c hc => plain_of_isBlank (hblanks c hc)
  refine hblanks.append ⟨?_, ?_⟩
  · have hlast : lastParen ('(' :: (body ++ [')'])) = some ')' := by
      rw [← List.cons_append, lastParen_append]
      rfl
    simp [hlast]
  · intro before after h
    -- What stands before the semicolon is the opening parenthesis and a part of the body.
    cases before with
    | nil => simp at h
    | cons c before =>
      obtain ⟨rfl, hbody'⟩ := List.cons.inj h
      have hbefore : ∀ c ∈ before, c ≠ '(' ∧ c ≠ ')' := by
        rcases List.append_eq_append_iff.mp hbody' with ⟨middle, rfl, hmiddle⟩ | ⟨middle, rfl, -⟩
        · cases middle with
          | nil => simpa using hbody
          | cons d middle =>
            have := congrArg List.length hmiddle
            simp at this
        · exact fun c hc => hbody c (List.mem_append_left _ hc)
      rw [← List.singleton_append, lastParen_append, lastParen_eq_none hbefore]
      rfl

/-- What stands behind the parameter list leaves nothing open. -/
theorem enclosing_of_mem_qualifiers {t : Text} (ht : t ∈ qualifiers) : Enclosing t := by
  have hblanks : ∀ a ∈ many isBlank, Enclosing a := fun a ha =>
    enclosing_of_plain fun c hc => plain_of_isBlank (mem_many_iff.mp ha c hc)
  have hqualifier : ∀ a ∈ qualifier, Enclosing a := by
    intro a ha
    obtain ⟨blank, blanks, word, extra, hblank, hblanks, hword, hextra, rfl⟩ :=
      mem_qualifier_iff.mp ha
    have hspace : ∀ c ∈ blank :: blanks, isBlank c = true :=
      List.forall_mem_cons.mpr ⟨hblank, hblanks⟩
    have hplain : Enclosing (blank :: blanks ++ word) := by
      refine enclosing_of_plain fun c hc => ?_
      rcases List.mem_append.mp hc with hc | hc
      · exact plain_of_isBlank (hspace c hc)
      · exact plain_of_isWord (isWord_of_mem_name hword c hc)
    have hgroup : Enclosing extra := by
      rcases hextra with rfl | hextra
      · exact enclosing_of_plain (by simp)
      · exact enclosing_of_mem_group hextra
    simpa using hplain.append hgroup
  exact forall_mem_mul (fun _ _ => Enclosing.append) (forall_mem_kstar
    (enclosing_of_plain (by simp)) (fun _ _ => Enclosing.append) hqualifier) hblanks t ht

/-- The last parenthesis of a header closes its parameter list or the group of a
qualifier. -/
theorem lastParen_of_mem_header {t : Text} (ht : t ∈ header) : lastParen t = some ')' := by
  obtain ⟨before, params, after, -, -, hafter, rfl⟩ := mem_header_iff.mp ht
  have hclosed := (enclosing_of_mem_qualifiers hafter).closed
  have hsplit : before ++ '(' :: (params ++ ')' :: after) =
      (before ++ '(' :: params) ++ ([')'] ++ after) := by simp
  rw [hsplit, lastParen_append, lastParen_append]
  cases hlast : lastParen after with
  | none => rfl
  | some c =>
    have hc : c = '(' ∨ c = ')' := by
      have := List.find?_some hlast
      simpa using this
    rcases hc with rfl | rfl
    · exact absurd hlast hclosed
    · rfl

/-- The semicolons of a header stand inside open parentheses. -/
theorem lastParen_before_semicolon {before after : Text} (h : before ++ ';' :: after ∈ header) :
    lastParen before = some '(' := by
  obtain ⟨front, params, behind, hfront, hparams, hbehind, heq⟩ := mem_header_iff.mp h
  have hnone : ';' ∉ front ++ '(' :: (params ++ [')']) := by
    have hfront' : ';' ∉ front := fun hmem => by
      rcases isWord_or_isSeparator_of_mem_words hfront _ hmem with hword | hsep
      · exact (plain_of_isWord hword).2.2 rfl
      · exact (plain_of_isSeparator hsep).2.2 rfl
    simp [hfront', hparams]
  have hsplit : before ++ ';' :: after = (front ++ '(' :: (params ++ [')'])) ++ behind := by
    simp [heq]
  rcases List.append_eq_append_iff.mp hsplit with ⟨middle, hmiddle, hrest⟩ | ⟨middle, rfl, hrest⟩
  · cases middle with
    | nil =>
      have hbegin : behind = ';' :: after := by simpa using hrest.symm
      have hfirst := (enclosing_of_mem_qualifiers hbehind).semicolons [] after hbegin
      cases hfirst
    | cons c middle =>
      obtain ⟨rfl, -⟩ := List.cons.inj hrest
      exact absurd (by simp [hmiddle]) hnone
  · rw [lastParen_append, (enclosing_of_mem_qualifiers hbehind).semicolons middle after hrest]
    rfl

/-- No header ends at a semicolon inside a header. -/
theorem not_mem_header_of_semicolon {before middle after : Text}
    (houter : before ++ middle ++ ';' :: after ∈ header) : middle ∉ header := by
  intro hinner
  have hopen := lastParen_before_semicolon houter
  rw [lastParen_append, lastParen_of_mem_header hinner] at hopen
  cases hopen

end Grammar

end PrototypeGate

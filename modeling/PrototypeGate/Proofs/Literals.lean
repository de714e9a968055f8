import Mathlib.Logic.ExistsUnique
import PrototypeGate.Source.Literal

/-!
# Where a literal ends

Behind its opening quote a literal is a row of units, each of which is a character that a
backslash protects or one that stands for itself. The row goes on until a quote or a line feed
that no unit protects, or to the end of the text, where a backslash may be left over. This file
shows that there is one such row behind every opening quote, and that the literal ends with it.
-/

namespace PrototypeGate

namespace Literal

/-- A unit of a literal with the given quote. -/
inductive Piece (quote : Char) where
  /-- A backslash and the character that it protects, whatever it is. -/
  | escaped (c : Char)
  /-- A character that stands for itself. -/
  | plain (c : Char) (h : c ≠ '\\' ∧ c ≠ quote ∧ c ≠ '\n')
  deriving DecidableEq

/-- The text of a unit. -/
def Piece.source {quote : Char} : Piece quote → Text
  | escaped c => ['\\', c]
  | plain c _ => [c]

/-- What ends the units of a literal. -/
inductive Close where
  /-- The closing quote. -/
  | quote
  /-- A line feed, which is left behind the literal. -/
  | lineFeed
  /-- The end of the text. -/
  | endOfText
  /-- A backslash at the end of the text, which protects nothing. -/
  | backslash
  deriving DecidableEq, Repr

namespace Close

/-- The part of the end that belongs to the literal. -/
def source (mark : Char) : Close → Text
  | quote => [mark]
  | lineFeed | endOfText => []
  | backslash => ['\\']

/-- A literal can end so in front of the text. -/
def Fits : Close → Text → Prop
  | quote, _ => True
  | lineFeed, after => after.head? = some '\n'
  | endOfText, after | backslash, after => after = []

instance : (close : Close) → (after : Text) → Decidable (close.Fits after)
  | quote, _ => inferInstanceAs (Decidable True)
  | lineFeed, after => inferInstanceAs (Decidable (after.head? = some '\n'))
  | endOfText, after | backslash, after => inferInstanceAs (Decidable (after = []))

end Close

/-- The text between an opening quote and `after` is made of these units and ends so. -/
structure Reads (quote : Char) (inside after : Text) (units : List (Piece quote))
    (close : Close) : Prop where
  /-- The units and what belongs to their end make up the text. -/
  source_eq : units.flatMap Piece.source ++ close.source quote = inside
  /-- The text behind lets the units end so. -/
  fits : close.Fits after

variable {quote : Char}

/-- What is split off behind an opening quote is made of units. -/
theorem exists_reads_split (quote : Char) (t : Text) :
    ∃ units close, Reads quote (split quote t).1 (split quote t).2 units close := by
  fun_induction split quote t with
  | case1 => exact ⟨[], .endOfText, rfl, rfl⟩
  | case2 c hfeed => exact ⟨[], .lineFeed, rfl, congrArg some hfeed.1⟩
  | case3 c hother =>
    by_cases hquote : c = quote
    · exact ⟨[], .quote, by rw [hquote]; rfl, trivial⟩
    · by_cases hescape : c = '\\'
      · exact ⟨[], .backslash, by rw [hescape]; rfl, rfl⟩
      · have hfeed : c ≠ '\n' := fun hfeed => hother ⟨hfeed, hquote⟩
        exact ⟨[.plain c ⟨hescape, hquote, hfeed⟩], .endOfText, rfl, rfl⟩
  | case4 d rest ih =>
    obtain ⟨units, close, hsource, hfits⟩ := ih
    exact ⟨.escaped d :: units, close, congrArg ('\\' :: d :: ·) hsource, hfits⟩
  | case5 d rest hescape => exact ⟨[], .quote, rfl, trivial⟩
  | case6 d rest hescape hquote => exact ⟨[], .lineFeed, rfl, rfl⟩
  | case7 c d rest hescape hquote hfeed ih =>
    obtain ⟨units, close, hsource, hfits⟩ := ih
    exact ⟨.plain c ⟨hescape, hquote, hfeed⟩ :: units, close, congrArg (c :: ·) hsource, hfits⟩

/-- A text that is made of units is what is split off in front of the text behind it. -/
theorem Reads.split_eq (hescape : quote ≠ '\\') (hfeed : quote ≠ '\n') {inside after : Text}
    {units : List (Piece quote)} {close : Close} (h : Reads quote inside after units close) :
    split quote (inside ++ after) = (inside, after) := by
  obtain ⟨rfl, hfits⟩ := h
  induction units with
  | nil =>
    cases close with
    | quote => cases after <;> simp [Close.source, split, hescape, hfeed]
    | lineFeed =>
      obtain ⟨more, rfl⟩ := List.head?_eq_some_iff.mp hfits
      cases more <;> simp [Close.source, split, hfeed.symm]
    | endOfText =>
      obtain rfl : after = [] := hfits
      rfl
    | backslash =>
      obtain rfl : after = [] := hfits
      simp [Close.source, split]
  | cons unit units ih =>
    cases unit with
    | escaped c =>
      rw [List.append_assoc] at ih
      simp [Piece.source, split, ih, Prod.map]
    | plain c hc =>
      rw [List.flatMap_cons, Piece.source, List.singleton_append, List.cons_append,
        List.cons_append]
      generalize hrest : units.flatMap Piece.source ++ close.source quote = rest at ih ⊢
      cases hmore : rest ++ after with
      | nil =>
        obtain ⟨rfl, rfl⟩ := List.append_eq_nil_iff.mp hmore
        simp [split, hc]
      | cons d more =>
        rw [hmore] at ih
        simp [split, hc, ih, Prod.map]

/-- No unit stands where the units end. -/
theorem Piece.source_append_ne (unit : Piece quote) (rest : Text) (close : Close) :
    unit.source ++ rest ≠ close.source quote := by
  cases unit with
  | escaped c => cases close <;> simp [Piece.source, Close.source]
  | plain c hc => cases close <;> simp [Piece.source, Close.source, hc]

/-- Units end in one way in front of a text. -/
theorem Close.eq_of_source_eq (hescape : quote ≠ '\\') {after : Text} {close close' : Close}
    (hfits : close.Fits after) (hfits' : close'.Fits after)
    (h : close.source quote = close'.source quote) : close = close' := by
  have hescape' : '\\' ≠ quote := hescape.symm
  cases close <;> cases close' <;> simp_all [Close.source, Close.Fits]

/-- A text is made of units in one way. -/
theorem Reads.unique (hescape : quote ≠ '\\') {inside after : Text}
    {units units' : List (Piece quote)} {close close' : Close}
    (h : Reads quote inside after units close) (h' : Reads quote inside after units' close') :
    units = units' ∧ close = close' := by
  obtain ⟨hsource, hfits⟩ := h
  obtain ⟨rfl, hfits'⟩ := h'
  induction units generalizing units' with
  | nil =>
    cases units' with
    | nil => exact ⟨rfl, Close.eq_of_source_eq hescape hfits hfits' hsource⟩
    | cons unit' units' =>
      rw [List.flatMap_cons, List.append_assoc] at hsource
      exact absurd hsource.symm (unit'.source_append_ne _ close)
  | cons unit units ih =>
    rw [List.flatMap_cons, List.append_assoc] at hsource
    cases units' with
    | nil => exact absurd hsource (unit.source_append_ne _ close')
    | cons unit' units' =>
      rw [List.flatMap_cons, List.append_assoc] at hsource
      -- The first character tells which kind of unit both begin with.
      obtain ⟨rfl, hrest⟩ : unit = unit' ∧ units.flatMap Piece.source ++ close.source quote =
          units'.flatMap Piece.source ++ close'.source quote := by
        cases unit with
        | escaped c =>
          cases unit' with
          | escaped c' => simpa [Piece.source] using hsource
          | plain c' hc' => simp [Piece.source, hc'.1.symm] at hsource
        | plain c hc =>
          cases unit' with
          | escaped c' => simp [Piece.source, hc.1] at hsource
          | plain c' hc' => simpa [Piece.source] using hsource
      obtain ⟨rfl, rfl⟩ := ih hrest
      exact ⟨rfl, rfl⟩

/-- A text from one index on is cut in two at a later index. -/
private theorem extract_append_drop (t : Text) {start e : Nat} (h : start ≤ e) :
    t.extract start e ++ t.drop e = t.drop start := by
  have hcut := List.take_append_drop (e - start) (t.drop start)
  rwa [List.drop_drop, Nat.add_sub_cancel' h, ← List.extract_eq_take_drop] at hcut

/-- The text behind an opening quote is split at the index where the literal ends. -/
theorem split_drop_eq {t : Text} {start : Nat} (hstart : t[start]? = some quote) :
    start < endIndex t start ∧ endIndex t start ≤ t.length ∧ split quote (t.drop (start + 1)) =
      (t.extract (start + 1) (endIndex t start), t.drop (endIndex t start)) := by
  obtain ⟨hlt, rfl⟩ := List.getElem?_eq_some_iff.mp hstart
  have hdrop : t.drop start = t[start] :: t.drop (start + 1) := List.drop_eq_getElem_cons hlt
  generalize t[start] = quote at *
  have hsplit := split_append quote (t.drop (start + 1))
  have hend : endIndex t start = start + 1 + (split quote (t.drop (start + 1))).1.length := by
    rw [endIndex, hdrop]
  have hlength := congrArg List.length hsplit
  rw [List.length_append, List.length_drop] at hlength
  have hcut : t.extract (start + 1) (endIndex t start) ++ t.drop (endIndex t start) =
      t.drop (start + 1) := extract_append_drop t (by omega)
  have hinside : (t.extract (start + 1) (endIndex t start)).length =
      (split quote (t.drop (start + 1))).1.length := by
    rw [List.extract_eq_take_drop, List.length_take, List.length_drop]
    omega
  obtain ⟨hfirst, hsecond⟩ := List.append_inj (hsplit.trans hcut.symm) hinside.symm
  exact ⟨by omega, by omega, Prod.ext hfirst hsecond⟩

/-- A literal ends with the units behind its opening quote, and with them only. Its end lies
behind the quote and within the text; what stands between is made of units in one way, which also
tells what has ended them; and nowhere else does a row of units end. -/
theorem endIndex_unique {t : Text} {start : Nat} (hstart : t[start]? = some quote)
    (hescape : quote ≠ '\\') (hfeed : quote ≠ '\n') :
    start < endIndex t start ∧ endIndex t start ≤ t.length ∧
      (∃! reading : List (Piece quote) × Close,
        Reads quote (t.extract (start + 1) (endIndex t start)) (t.drop (endIndex t start))
          reading.1 reading.2) ∧
      ∀ e, start < e → e ≤ t.length →
        (∃ units close, Reads quote (t.extract (start + 1) e) (t.drop e) units close) →
          e = endIndex t start := by
  obtain ⟨hbehind, hwithin, hsplit⟩ := split_drop_eq hstart
  refine ⟨hbehind, hwithin, ?_, ?_⟩
  · obtain ⟨units, close, hreads⟩ := exists_reads_split quote (t.drop (start + 1))
    rw [hsplit] at hreads
    refine ⟨(units, close), hreads, fun other hother => ?_⟩
    obtain ⟨hunits, hclose⟩ := hother.unique hescape hreads
    exact Prod.ext hunits hclose
  · rintro e he hwithin' ⟨units, close, hreads⟩
    -- The row that ends at `e` is split off as well, so that both leave as much behind.
    have hother := hreads.split_eq hescape hfeed
    rw [extract_append_drop t he, hsplit] at hother
    have hlength := congrArg (List.length ∘ Prod.snd) hother
    simp only [Function.comp_apply, List.length_drop] at hlength
    omega

/-- Behind a double quote, a quote, a line feed and a backslash are protected, and a single quote
stands for itself. The literal ends with the next quote, although the protected one and the end of
the text look like ends. -/
theorem endIndex_of_protected_quote :
    let t := "x\"a\\\"'\\\n\\\\\"b\"".toList
    t[1]? = some '"' ∧ endIndex t 1 = 11 ∧
      (∃! reading : List (Piece '"') × Close,
        Reads '"' (t.extract 2 11) (t.drop 11) reading.1 reading.2) ∧
      ∀ e, 1 < e → e ≤ 13 →
        (∃ units close, Reads '"' (t.extract 2 e) (t.drop e) units close) → e = 11 := by
  intro t
  have hend : endIndex t 1 = 11 := by decide
  have hquote : t[1]? = some '"' := by decide
  obtain ⟨-, -, hreading, hunique⟩ := endIndex_unique hquote (by decide) (by decide)
  rw [hend] at hreading hunique
  exact ⟨hquote, hend, hreading, hunique⟩

end Literal

end PrototypeGate

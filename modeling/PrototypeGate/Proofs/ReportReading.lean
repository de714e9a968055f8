import Mathlib.Algebra.Group.Nat.Defs
import Mathlib.Data.List.Forall2
import PrototypeGate.Report.Finding

/-!
# Reading back a report

A report is of use if a reader of JSON finds in it what was put there. This file has such a
reader, which knows nothing of how reports are laid out: it takes a text apart into tokens and
builds a value from them. It does without fractions, truth values and nulls, of which reports
have none. The text of a value is read as that value, so a report on conflicts is read as a list
with an entry for each. The file also says in full what the diagnostics of a conflict are, and
that only a line number with too many digits keeps either from being printed.
-/

namespace PrototypeGate

/-! ### Numerals -/

/-- The decimal text of an integer is its usual one. -/
theorem decimalText_eq_toString (n : Int) : decimalText n = (toString n).toList := by
  cases n with
  | ofNat n =>
    have hshown : toString (Int.ofNat n) = toString n := rfl
    rw [hshown, Nat.toString_eq_ofList_toDigits, String.toList_ofList, decimalText]
  | negSucc n =>
    have hshown : toString (Int.negSucc n) = "-" ++ toString (n + 1) := rfl
    simp [hshown, decimalText]

private theorem length_decimalText_le_iff (n : Nat) :
    (decimalText n).length ≤ numeralLimit ↔ n < 10 ^ numeralLimit :=
  Nat.length_toDigits_le_iff (by decide) (by decide)

/-- An integer is printed as its usual text, unless it has too many digits. -/
theorem numeral?_eq_some_iff {n : Int} {t : Text} :
    numeral? n = some t ↔ n.natAbs < 10 ^ numeralLimit ∧ t = (toString n).toList := by
  rw [numeral?, Option.ite_none_right_eq_some, length_decimalText_le_iff, Option.some.injEq,
    decimalText_eq_toString, eq_comm (a := t)]

/-- An integer is not printed exactly if it has too many digits. -/
theorem numeral?_eq_none_iff {n : Int} : numeral? n = none ↔ 10 ^ numeralLimit ≤ n.natAbs := by
  simp only [numeral?, ite_eq_right_iff, reduceCtorEq, imp_false, length_decimalText_le_iff,
    Nat.not_lt]

namespace Json

/-! ### The reader -/

/-- The tokens of a JSON text. -/
inductive Token where
  | listStart
  | listEnd
  | objectStart
  | objectEnd
  | comma
  | colon
  | string (text : Text)
  | integer (n : Int)

/-- The token that a character stands for by itself. -/
def mark? (c : Char) : Option Token :=
  match c with
  | '[' => some .listStart
  | ']' => some .listEnd
  | '{' => some .objectStart
  | '}' => some .objectEnd
  | ',' => some .comma
  | ':' => some .colon
  | _ => none

/-- The character that a letter stands for behind a backslash. -/
def escapeLetter? (c : Char) : Option Char :=
  match c with
  | '"' => some '"'
  | '\\' => some '\\'
  | '/' => some '/'
  | 'b' => some '\x08'
  | 'f' => some '\x0c'
  | 'n' => some '\n'
  | 'r' => some '\r'
  | 't' => some '\t'
  | _ => none

/-- The number that a hexadecimal digit stands for. -/
def hexDigit? (c : Char) : Option Nat :=
  if '0' ≤ c ∧ c ≤ '9' then some (c.toNat - 0x30)
  else if 'a' ≤ c ∧ c ≤ 'f' then some (c.toNat - 0x61 + 10)
  else if 'A' ≤ c ∧ c ≤ 'F' then some (c.toNat - 0x41 + 10)
  else none

/-- The UTF-16 code units of a character. -/
def unitsOf (c : Char) : List Nat :=
  if c.toNat < 0x10000 then [c.toNat]
  else [0xd800 + (c.toNat - 0x10000) / 0x400, 0xdc00 + (c.toNat - 0x10000) % 0x400]

/-- The text that UTF-16 code units stand for. A unit of a pair has no meaning alone. -/
def textOf? : List Nat → Option Text
  | [] => some []
  | high :: low :: rest =>
    if 0xd800 ≤ high ∧ high < 0xdc00 ∧ 0xdc00 ≤ low ∧ low < 0xe000 then
      (textOf? rest).map (Char.ofNat (0x10000 + (high - 0xd800) * 0x400 + (low - 0xdc00)) :: ·)
    else if 0xd800 ≤ high ∧ high < 0xe000 then none
    else (textOf? (low :: rest)).map (Char.ofNat high :: ·)
  | [unit] => if 0xd800 ≤ unit ∧ unit < 0xe000 then none else some [Char.ofNat unit]

/-- The value of digits with a sign before them. -/
def signedValue : Text → Int
  | '-' :: digits => -(Nat.ofDigitChars 10 digits 0 : Int)
  | digits => (Nat.ofDigitChars 10 digits 0 : Int)

/-- The integer that a text is the usual one of. -/
def integer? (t : Text) : Option Int :=
  if (toString (signedValue t)).toList = t then some (signedValue t) else none

/-- What a reader of characters is in the middle of. -/
inductive Lexing where
  /-- It is between two tokens. -/
  | between
  /-- It is inside a string; the code units so far, last one first. -/
  | string (units : List Nat)
  /-- It is behind a backslash in a string. -/
  | escape (units : List Nat)
  /-- It is in an escaped code unit; `left` digits are to come. -/
  | unit (units : List Nat) (left value : Nat)
  /-- It is in a number; the characters so far, last one first. -/
  | number (digits : Text)

/-- Read a character between two tokens: the tokens that are complete, and what comes next. -/
def beginToken? (c : Char) : Option (List Token × Lexing) :=
  if c = ' ' ∨ c = '\n' ∨ c = '\r' ∨ c = '\t' then some ([], .between)
  else if c = '"' then some ([], .string [])
  else if c = '-' ∨ c.isDigit then some ([], .number [c])
  else (mark? c).map fun token => ([token], .between)

/-- Read a character. -/
def readChar? : Lexing → Char → Option (List Token × Lexing)
  | .between, c => beginToken? c
  | .string units, c =>
    if c = '"' then (textOf? units.reverse).map fun text => ([.string text], .between)
    else if c = '\\' then some ([], .escape units)
    else if c.toNat < 0x20 then none
    else some ([], .string ((unitsOf c).reverse ++ units))
  | .escape units, c =>
    if c = 'u' then some ([], .unit units 4 0)
    else (escapeLetter? c).map fun d => ([], .string (d.toNat :: units))
  | .unit units left value, c =>
    (hexDigit? c).map fun digit =>
      if left ≤ 1 then ([], .string ((16 * value + digit) :: units))
      else ([], .unit units (left - 1) (16 * value + digit))
  | .number digits, c =>
    if c.isDigit then some ([], .number (c :: digits))
    else do
      let n ← integer? digits.reverse
      let (tokens, next) ← beginToken? c
      return (.integer n :: tokens, next)

/-- What is complete at the end of a text. -/
def complete? : Lexing → Option (List Token)
  | .between => some []
  | .number digits => (integer? digits.reverse).map fun n => [.integer n]
  | _ => none

/-- The tokens of a text. -/
def tokens? : Lexing → Text → Option (List Token)
  | s, [] => complete? s
  | s, c :: rest => do
    let (tokens, next) ← readChar? s c
    return tokens ++ (← tokens? next rest)

/-- A list or an object part way through. -/
inductive Frame where
  /-- The items before the one at hand, last one first. -/
  | list (before : List Json)
  /-- The fields before the one at hand, last one first, and its name. -/
  | object (before : List (String × Json)) (name : String)

/-- The value that tokens stand for. `found` is the value just read; without one, a value is to
come. The frames hold what is open around it, innermost first. -/
def build : Option Json → List Frame → List Token → Option Json
  | some value, [], [] => some value
  | some value, .list before :: outer, .comma :: rest =>
    build none (.list (value :: before) :: outer) rest
  | some value, .list before :: outer, .listEnd :: rest =>
    build (some (.array (value :: before).reverse)) outer rest
  | some value, .object before name :: outer, .comma :: .string next :: .colon :: rest =>
    build none (.object ((name, value) :: before) (String.ofList next) :: outer) rest
  | some value, .object before name :: outer, .objectEnd :: rest =>
    build (some (.object ((name, value) :: before).reverse)) outer rest
  | none, frames, .string text :: rest => build (some (.string text)) frames rest
  | none, frames, .integer n :: rest => build (some (.integer n)) frames rest
  | none, frames, .listStart :: .listEnd :: rest => build (some (.array [])) frames rest
  | none, frames, .listStart :: rest => build none (.list [] :: frames) rest
  | none, frames, .objectStart :: .objectEnd :: rest => build (some (.object [])) frames rest
  | none, frames, .objectStart :: .string name :: .colon :: rest =>
    build none (.object [] (String.ofList name) :: frames) rest
  | _, _, _ => none

/-- The value that a JSON text stands for. -/
def read? (t : Text) : Option Json :=
  (tokens? .between t).bind (build none [])

/-! ### Strings -/

/-- The code units of a character stand for it. -/
theorem textOf?_unitsOf_append (c : Char) (rest : List Nat) :
    textOf? (unitsOf c ++ rest) = (textOf? rest).map (c :: ·) := by
  have hvalid := c.valid
  have hchar : Char.ofNat c.toNat = c := Char.ofNat_toNat c
  have hplain : c.toNat < 0xd800 ∨ 0xdfff < c.toNat ∧ c.toNat < 0x110000 := hvalid
  by_cases hsmall : c.toNat < 0x10000
  · rw [unitsOf, if_pos hsmall, List.singleton_append]
    cases rest with
    | nil =>
      have hone : textOf? [c.toNat] = some [c] := by rw [textOf?, if_neg (by omega), hchar]
      rw [hone]
      rfl
    | cons low rest => rw [textOf?, if_neg (by omega), if_neg (by omega), hchar]
  · rw [unitsOf, if_neg hsmall, List.cons_append, List.cons_append, List.nil_append, textOf?,
      if_pos (by omega)]
    have hnumber : 0x10000 + (0xd800 + (c.toNat - 0x10000) / 0x400 - 0xd800) * 0x400 +
        (0xdc00 + (c.toNat - 0x10000) % 0x400 - 0xdc00) = c.toNat := by omega
    rw [hnumber, hchar]

/-- The code units of a text stand for it. -/
theorem textOf?_flatMap_unitsOf (t : Text) : textOf? (t.flatMap unitsOf) = some t := by
  induction t with
  | nil => rfl
  | cons c t ih => rw [List.flatMap_cons, textOf?_unitsOf_append, ih, Option.map_some]

/-- Reading a character comes before reading the others. -/
theorem tokens?_cons (s : Lexing) (c : Char) (rest : Text) :
    tokens? s (c :: rest) = (readChar? s c).bind fun read =>
      (tokens? read.2 rest).map (read.1 ++ ·) := by
  rw [tokens?]
  cases readChar? s c with
  | none => rfl
  | some read => cases htokens : tokens? read.2 rest <;> simp [htokens]

/-- A character that completes no token is read on its own. -/
theorem tokens?_cons_of_readChar? {s : Lexing} (next : Lexing) {c : Char}
    (hread : readChar? s c = some ([], next)) (rest : Text) :
    tokens? s (c :: rest) = tokens? next rest := by
  rw [tokens?_cons, hread, Option.bind_some]
  exact Option.map_id'

private theorem hexDigit?_digitChar {d : Nat} (hd : d < 16) :
    hexDigit? (Nat.digitChar d) = some d := by
  have hall : ∀ d < 16, hexDigit? (Nat.digitChar d) = some d := by decide
  exact hall d hd

private theorem hexText_add_two (width n : Nat) :
    hexText (width + 2) n = hexText (width + 1) (n / 16) ++ [Nat.digitChar (n % 16)] := by
  by_cases hn : n < 16
  · rw [hexText, hexText, Nat.toDigits_of_lt_base hn, Nat.div_eq_of_lt hn, Nat.mod_eq_of_lt hn]
    simp [padZeros, Nat.toDigits_zero, ← List.replicate_succ']
  · rw [hexText, hexText, Nat.toDigits_of_base_le (by decide) (Nat.le_of_not_lt hn), padZeros,
      padZeros, ← List.append_assoc]
    simp

private theorem hexText_one {n : Nat} (hn : n < 16) : hexText 1 n = [Nat.digitChar n] := by
  simp [hexText, padZeros, Nat.toDigits_of_lt_base hn]

/-- An escaped code unit is read as the unit. -/
theorem tokens?_escapeUnit {unit : Nat} (hunit : unit < 0x10000) (units : List Nat)
    (rest : Text) :
    tokens? (.string units) (escapeUnit unit ++ rest) =
      tokens? (.string (unit :: units)) rest := by
  have hdigit (left value : Nat) {d : Nat} (hd : d < 16) (rest : Text) :
      tokens? (.unit units (left + 2) value) (Nat.digitChar d :: rest) =
        tokens? (.unit units (left + 1) (16 * value + d)) rest :=
    tokens?_cons_of_readChar? _ (by simp [readChar?, hexDigit?_digitChar hd]) rest
  have hlast (value : Nat) {d : Nat} (hd : d < 16) :
      tokens? (.unit units 1 value) (Nat.digitChar d :: rest) =
        tokens? (.string ((16 * value + d) :: units)) rest :=
    tokens?_cons_of_readChar? _ (by simp [readChar?, hexDigit?_digitChar hd]) rest
  have hvalue : 16 * (16 * (16 * (16 * 0 + unit / 16 / 16 / 16) + unit / 16 / 16 % 16) +
      unit / 16 % 16) + unit % 16 = unit := by omega
  have hfour : hexText 4 unit = [Nat.digitChar (unit / 16 / 16 / 16),
      Nat.digitChar (unit / 16 / 16 % 16), Nat.digitChar (unit / 16 % 16),
      Nat.digitChar (unit % 16)] := by
    rw [hexText_add_two, hexText_add_two, hexText_add_two, hexText_one (by omega)]
    rfl
  rw [escapeUnit, hfour]
  simp only [List.cons_append, List.nil_append]
  rw [tokens?_cons_of_readChar? (.escape units) rfl,
    tokens?_cons_of_readChar? (.unit units 4 0) rfl, hdigit 2 _ (by omega),
    hdigit 1 _ (by omega), hdigit 0 _ (by omega), hlast _ (by omega), hvalue]

/-- The text of a character in a string is read as its code units. -/
theorem tokens?_escapeChar (c : Char) (units : List Nat) (rest : Text) :
    tokens? (.string units) (escapeChar c ++ rest) =
      tokens? (.string ((unitsOf c).reverse ++ units)) rest := by
  have hletter {letter d : Char} (hletter : escapeLetter? letter = some d) (hu : letter ≠ 'u')
      (hd : unitsOf d = [d.toNat]) :
      tokens? (.string units) ('\\' :: letter :: rest) =
        tokens? (.string ((unitsOf d).reverse ++ units)) rest := by
    rw [tokens?_cons_of_readChar? (.escape units) rfl, hd]
    exact tokens?_cons_of_readChar? _ (by simp [readChar?, hu, hletter]) rest
  unfold escapeChar
  split_ifs with hquote hbackslash hfeed hreturn htab hform hback hplain hsmall
  · exact hquote ▸ hletter rfl (by decide) rfl
  · exact hbackslash ▸ hletter rfl (by decide) rfl
  · exact hfeed ▸ hletter rfl (by decide) rfl
  · exact hreturn ▸ hletter rfl (by decide) rfl
  · exact htab ▸ hletter rfl (by decide) rfl
  · exact hform ▸ hletter rfl (by decide) rfl
  · exact hback ▸ hletter rfl (by decide) rfl
  · refine tokens?_cons_of_readChar? _ ?_ rest
    rw [readChar?, if_neg hquote, if_neg hbackslash, if_neg (by omega)]
  · rw [unitsOf, if_pos hsmall]
    exact tokens?_escapeUnit hsmall units rest
  · have hbound : c.toNat < 0x110000 := by
      have hvalid : c.toNat < 0xd800 ∨ 0xdfff < c.toNat ∧ c.toNat < 0x110000 := c.valid
      omega
    rw [unitsOf, if_neg hsmall, List.append_assoc, tokens?_escapeUnit (by omega),
      tokens?_escapeUnit (by omega)]
    rfl

/-- A quoted text is read as a string token. -/
theorem tokens?_quote (t rest : Text) :
    tokens? .between (quote t ++ rest) = (tokens? .between rest).map (.string t :: ·) := by
  have hinside (units : List Nat) : tokens? (.string units) (t.flatMap escapeChar ++ '"' :: rest) =
      tokens? (.string ((t.flatMap unitsOf).reverse ++ units)) ('"' :: rest) := by
    induction t generalizing units with
    | nil => rfl
    | cons c t ih =>
      rw [List.flatMap_cons, List.append_assoc, tokens?_escapeChar, ih, List.flatMap_cons,
        List.reverse_append, List.append_assoc]
  have hclosed : readChar? (.string (t.flatMap unitsOf).reverse) '"' =
      some ([.string t], .between) := by
    rw [readChar?, if_pos rfl, List.reverse_reverse, textOf?_flatMap_unitsOf]
    rfl
  rw [quote, List.cons_append, List.cons_append, List.append_assoc, List.singleton_append,
    tokens?_cons_of_readChar? (.string []) rfl, hinside, List.append_nil, tokens?_cons,
    hclosed]
  rfl

/-! ### Values -/

/-- A text is read as tokens, whatever follows it that does not go on with a number. -/
def Lexes (text : Text) (tokens : List Token) : Prop :=
  ∀ rest : Text, (∀ c ∈ rest.head?, ¬c.isDigit) →
    tokens? .between (text ++ rest) = (tokens? .between rest).map (tokens ++ ·)

theorem lexes_quote (t : Text) : Lexes (quote t) [.string t] :=
  fun rest _ => tokens?_quote t rest

private theorem isDigit_of_mem_toDigits {n : Nat} {c : Char} (hc : c ∈ Nat.toDigits 10 n) :
    c.isDigit :=
  Nat.isDigit_of_mem_toDigits (by decide) (by decide) hc

private theorem signedValue_toDigits (n : Nat) : signedValue (Nat.toDigits 10 n) = n := by
  have hvalue : (Nat.ofDigitChars 10 (Nat.toDigits 10 n) 0 : Int) = n := by
    rw [Nat.ofDigitChars_ten_toDigits]
  rw [signedValue, hvalue]
  rintro digits hminus
  exact absurd (isDigit_of_mem_toDigits (hminus ▸ List.mem_cons_self)) (by decide : ¬ '-'.isDigit)

/-- An integer is read from its usual text. -/
theorem integer?_toString (n : Int) : integer? (toString n).toList = some n := by
  have hvalue : signedValue (toString n).toList = n := by
    rw [← decimalText_eq_toString]
    cases n with
    | ofNat n => exact signedValue_toDigits n
    | negSucc n =>
      rw [decimalText, signedValue, Nat.ofDigitChars_ten_toDigits]
      rfl
  rw [integer?, hvalue, if_pos rfl]

private theorem tokens?_number {digits : Text} (hdigits : ∀ c ∈ digits, c.isDigit)
    (before rest : Text) :
    tokens? (.number before) (digits ++ rest) =
      tokens? (.number (digits.reverse ++ before)) rest := by
  induction digits generalizing before with
  | nil => rfl
  | cons c digits ih =>
    obtain ⟨hc, hdigits⟩ := List.forall_mem_cons.mp hdigits
    have hread : readChar? (.number before) c = some ([], .number (c :: before)) := by
      rw [readChar?, if_pos hc]
    rw [List.cons_append, tokens?_cons_of_readChar? _ hread, ih hdigits, List.reverse_cons,
      List.append_assoc, List.singleton_append]

/-- The usual text of an integer is read as an integer token. -/
theorem lexes_integer (n : Int) : Lexes (toString n).toList [.integer n] := by
  intro rest hrest
  obtain ⟨first, digits, htext, hfirst, hdigits⟩ : ∃ first digits,
      (toString n).toList = first :: digits ∧ (first = '-' ∨ first.isDigit) ∧
        ∀ c ∈ digits, c.isDigit := by
    rw [← decimalText_eq_toString]
    cases n with
    | ofNat n =>
      obtain ⟨first, digits, htext⟩ := List.exists_cons_of_ne_nil (Nat.toDigits_ne_nil (n := n))
      refine ⟨first, digits, htext, .inr ?_, fun c hc => ?_⟩
      · exact isDigit_of_mem_toDigits (htext ▸ List.mem_cons_self)
      · exact isDigit_of_mem_toDigits (htext ▸ List.mem_cons_of_mem first hc)
    | negSucc n => exact ⟨'-', _, rfl, .inl rfl, fun c hc => isDigit_of_mem_toDigits hc⟩
  have hread : integer? (digits.reverse ++ [first]).reverse = some n := by
    rw [List.reverse_append, List.reverse_reverse, List.reverse_singleton, List.singleton_append,
      ← htext, integer?_toString]
  have hbegin : readChar? .between first = some ([], .number [first]) := by
    have hblank : ¬(first = ' ' ∨ first = '\n' ∨ first = '\r' ∨ first = '\t') := by
      rintro (rfl | rfl | rfl | rfl) <;> exact absurd hfirst (by decide)
    have hquote : first ≠ '"' := by
      rintro rfl
      exact absurd hfirst (by decide)
    rw [readChar?, beginToken?, if_neg hblank, if_neg hquote, if_pos hfirst]
  rw [htext, List.cons_append, tokens?_cons_of_readChar? _ hbegin, tokens?_number hdigits]
  cases rest with
  | nil => rw [tokens?, complete?, hread]; rfl
  | cons c rest =>
    have hc : ¬c.isDigit := hrest c rfl
    have hended : readChar? (.number (digits.reverse ++ [first])) c =
        (beginToken? c).map fun read => (.integer n :: read.1, read.2) := by
      rw [readChar?, if_neg hc, hread]
      cases beginToken? c <;> simp
    rw [tokens?_cons, tokens?_cons, hended, show readChar? .between c = beginToken? c from rfl]
    cases beginToken? c with
    | none => rfl
    | some read => cases hrest : tokens? read.2 rest <;> simp [hrest]

mutual

/-- The tokens of a value. -/
def tokensOf : Json → List Token
  | .string t => [.string t]
  | .integer n => [.integer n]
  | .array items => .listStart :: [.comma].intercalate (tokensOfItems items) ++ [.listEnd]
  | .object fields =>
    .objectStart :: [.comma].intercalate (tokensOfFields fields) ++ [.objectEnd]

/-- The tokens of each item of a list. -/
def tokensOfItems : List Json → List (List Token)
  | [] => []
  | item :: rest => tokensOf item :: tokensOfItems rest

/-- The tokens of each field of an object. -/
def tokensOfFields : List (String × Json) → List (List Token)
  | [] => []
  | (name, value) :: rest =>
    (.string name.toList :: .colon :: tokensOf value) :: tokensOfFields rest

end

/-- A mark is read as its token. -/
theorem tokens?_mark {c : Char} {token : Token}
    (hmark : readChar? .between c = some ([token], .between)) (rest : Text) :
    tokens? .between (c :: rest) = (tokens? .between rest).map (token :: ·) := by
  rw [tokens?_cons, hmark]
  rfl

/-- A line break and the indentation behind it are no tokens. -/
theorem tokens?_lineBreak (level : Nat) (rest : Text) :
    tokens? .between (lineBreak level ++ rest) = tokens? .between rest := by
  have hspaces (n : Nat) :
      tokens? .between (List.replicate n ' ' ++ rest) = tokens? .between rest := by
    induction n with
    | zero => rfl
    | succ n ih =>
      rw [List.replicate_succ, List.cons_append,
        tokens?_cons_of_readChar? .between rfl, ih]
  rw [lineBreak, List.cons_append, tokens?_cons_of_readChar? .between rfl, hspaces]

/-- Items that are read as tokens are read with a comma between them, one per line. -/
theorem lexes_intercalate (level : Nat) {items : List Text} {tokens : List (List Token)}
    (hitems : List.Forall₂ Lexes items tokens) :
    Lexes ((',' :: lineBreak level).intercalate items) ([.comma].intercalate tokens) := by
  induction hitems with
  | nil => exact fun rest _ => Option.map_id'.symm
  | cons hitem hrest ih =>
    cases hrest with
    | nil => simpa using hitem
    | cons hnext hrest =>
      intro rest hstop
      rw [List.intercalate_cons_cons, List.intercalate_cons_cons, List.append_assoc,
        List.append_assoc, hitem _ (by simp), List.cons_append, tokens?_mark rfl,
        tokens?_lineBreak, ih rest hstop]
      simp [Function.comp_def]

/-- Items that are read as tokens are read so when they stand in brackets. -/
theorem lexes_bracket {opening closing : Char} {first last : Token}
    (hopening : readChar? .between opening = some ([first], .between))
    (hclosing : readChar? .between closing = some ([last], .between)) (level : Nat)
    {items : List Text} {tokens : List (List Token)} (hitems : List.Forall₂ Lexes items tokens) :
    Lexes (bracket opening closing level items)
      (first :: [.comma].intercalate tokens ++ [last]) := by
  intro rest _
  cases hitems with
  | nil =>
    rw [bracket, List.cons_append, tokens?_mark hopening, List.singleton_append,
      tokens?_mark hclosing]
    simp [Function.comp_def]
  | cons hitem hrest =>
    have hline := lexes_intercalate (level + 1) (.cons hitem hrest)
    rw [bracket]
    · simp only [List.cons_append, List.append_assoc]
      rw [tokens?_mark hopening, tokens?_lineBreak, hline _ (by simp [lineBreak]),
        tokens?_lineBreak, List.nil_append, tokens?_mark hclosing]
      simp [Function.comp_def]
    · exact List.cons_ne_nil _ _

mutual

/-- The text of a value is read as its tokens. -/
theorem lexes_renderAt? {level : Nat} : {value : Json} → {text : Text} →
    renderAt? level value = some text → Lexes text (tokensOf value)
  | .string t, text, h => by
    obtain rfl : quote t = text := Option.some.inj h
    exact lexes_quote t
  | .integer n, text, h => by
    obtain ⟨-, rfl⟩ := numeral?_eq_some_iff.mp h
    exact lexes_integer n
  | .array items, text, h => by
    obtain ⟨texts, htexts, rfl⟩ := Option.map_eq_some_iff.mp h
    exact lexes_bracket rfl rfl level (lexes_renderItems? htexts)
  | .object fields, text, h => by
    obtain ⟨texts, htexts, rfl⟩ := Option.map_eq_some_iff.mp h
    exact lexes_bracket rfl rfl level (lexes_renderFields? htexts)

/-- The texts of the items of a list are read as their tokens. -/
theorem lexes_renderItems? {level : Nat} : {items : List Json} → {texts : List Text} →
    renderItems? level items = some texts → List.Forall₂ Lexes texts (tokensOfItems items)
  | [], texts, h => by
    obtain rfl : [] = texts := Option.some.inj h
    exact .nil
  | item :: rest, texts, h => by
    obtain ⟨text, htext, h⟩ := Option.bind_eq_some_iff.mp h
    obtain ⟨others, hothers, h⟩ := Option.bind_eq_some_iff.mp h
    obtain rfl : text :: others = texts := Option.some.inj h
    exact .cons (lexes_renderAt? htext) (lexes_renderItems? hothers)

/-- The texts of the fields of an object are read as their tokens. -/
theorem lexes_renderFields? {level : Nat} : {fields : List (String × Json)} →
    {texts : List Text} → renderFields? level fields = some texts →
      List.Forall₂ Lexes texts (tokensOfFields fields)
  | [], texts, h => by
    obtain rfl : [] = texts := Option.some.inj h
    exact .nil
  | (name, value) :: rest, texts, h => by
    obtain ⟨text, htext, h⟩ := Option.bind_eq_some_iff.mp h
    obtain ⟨others, hothers, h⟩ := Option.bind_eq_some_iff.mp h
    obtain rfl : _ :: others = texts := Option.some.inj h
    refine .cons (fun rest hrest => ?_) (lexes_renderFields? hothers)
    rw [List.append_assoc, tokens?_quote, List.cons_append, tokens?_mark rfl, List.cons_append,
      tokens?_cons_of_readChar? .between rfl, lexes_renderAt? htext rest hrest]
    simp [Function.comp_def]

end

/-! ### Building values -/

/-- The tokens of a value do not begin with the end of a list. -/
private theorem exists_tokensOf_eq_cons (value : Json) :
    ∃ token rest, tokensOf value = token :: rest ∧ token ≠ .listEnd := by
  cases value <;> exact ⟨_, _, rfl, nofun⟩

/-- The tokens of some items do not begin with the end of a list. -/
private theorem exists_tokensOfItems_eq_cons (item : Json) (items : List Json) :
    ∃ token rest, [Token.comma].intercalate (tokensOfItems (item :: items)) = token :: rest ∧
      token ≠ .listEnd := by
  obtain ⟨token, own, htokens, htoken⟩ := exists_tokensOf_eq_cons item
  cases items with
  | nil => exact ⟨token, own, by simp [tokensOfItems, htokens], htoken⟩
  | cons next more =>
    rw [tokensOfItems, tokensOfItems, List.intercalate_cons_cons, htokens, List.cons_append,
      List.cons_append]
    exact ⟨token, _, rfl, htoken⟩

/-- A value is to come behind the start of a list that is not empty. -/
private theorem build_listStart {token : Token} (htoken : token ≠ .listEnd) (frames : List Frame)
    (rest : List Token) :
    build none frames (.listStart :: token :: rest) =
      build none (.list [] :: frames) (token :: rest) := by
  cases token with
  | listEnd => exact absurd rfl htoken
  | _ => rfl

mutual

/-- A value is built from its tokens. -/
theorem build_tokensOf : (value : Json) → (frames : List Frame) → (rest : List Token) →
    build none frames (tokensOf value ++ rest) = build (some value) frames rest
  | .string t, frames, rest => rfl
  | .integer n, frames, rest => rfl
  | .array [], frames, rest => rfl
  | .array (item :: items), frames, rest => by
    have hitems := build_tokensOfItems (item :: items) (List.cons_ne_nil _ _) [] frames rest
    obtain ⟨token, own, htokens, htoken⟩ := exists_tokensOfItems_eq_cons item items
    rw [htokens, List.cons_append] at hitems
    simp only [tokensOf, htokens, List.cons_append, List.append_assoc, List.nil_append]
    rw [build_listStart htoken, hitems]
    rfl
  | .object [], frames, rest => rfl
  | .object (field :: fields), frames, rest => by
    have hfields := build_tokensOfFields (field :: fields) (List.cons_ne_nil _ _) [] frames rest
      (build none frames ∘ (.objectStart :: ·)) fun _ _ => rfl
    simp only [tokensOf, List.cons_append, List.append_assoc, List.nil_append]
    exact hfields

/-- A list is built from the tokens of its items. -/
theorem build_tokensOfItems : (items : List Json) → items ≠ [] → (before : List Json) →
    (frames : List Frame) → (rest : List Token) →
      build none (.list before :: frames)
          ([.comma].intercalate (tokensOfItems items) ++ .listEnd :: rest) =
        build (some (.array (before.reverse ++ items))) frames rest
  | [item], _, before, frames, rest => by
    rw [tokensOfItems, tokensOfItems, List.intercalate_singleton, build_tokensOf item, build,
      List.reverse_cons]
  | item :: next :: items, _, before, frames, rest => by
    have hmore := build_tokensOfItems (next :: items) (List.cons_ne_nil _ _) (item :: before)
      frames rest
    rw [List.reverse_cons, List.append_assoc, List.singleton_append] at hmore
    rw [tokensOfItems, tokensOfItems, List.intercalate_cons_cons, List.append_assoc,
      List.append_assoc, build_tokensOf item, ← hmore, tokensOfItems]
    rfl

/-- An object is built from the tokens of its fields, whatever goes on with the name of a field
and a colon to the value of the field. -/
theorem build_tokensOfFields : (fields : List (String × Json)) → fields ≠ [] →
    (before : List (String × Json)) → (frames : List Frame) → (rest : List Token) →
    (go : List Token → Option Json) →
    (∀ name more, go (.string name :: .colon :: more) =
      build none (.object before (String.ofList name) :: frames) more) →
      go ([.comma].intercalate (tokensOfFields fields) ++ .objectEnd :: rest) =
        build (some (.object (before.reverse ++ fields))) frames rest
  | [(name, value)], _, before, frames, rest, go, hgo => by
    rw [tokensOfFields, tokensOfFields, List.intercalate_singleton, List.cons_append,
      List.cons_append, hgo, String.ofList_toList, build_tokensOf value, build, List.reverse_cons]
  | (name, value) :: next :: fields, _, before, frames, rest, go, hgo => by
    have hmore := build_tokensOfFields (next :: fields) (List.cons_ne_nil _ _)
      ((name, value) :: before) frames rest
      (build (some value) (.object before name :: frames) ∘ (.comma :: ·)) fun _ _ => rfl
    rw [List.reverse_cons, List.append_assoc, List.singleton_append] at hmore
    simp only [tokensOfFields, List.intercalate_cons_cons, List.cons_append, List.append_assoc,
      List.nil_append, hgo, String.ofList_toList, build_tokensOf value] at hmore ⊢
    exact hmore

end

/-- The text of a value, with the line feed that ends a report, is read as the value. -/
theorem read?_of_render? {value : Json} {text : Text} (htext : render? value = some text) :
    read? (text ++ ['\n']) = some value := by
  have hend : tokens? .between ['\n'] = some [] := rfl
  have hbuild := build_tokensOf value [] []
  rw [List.append_nil] at hbuild
  rw [read?, lexes_renderAt? htext ['\n'] (by simp), hend, Option.map_some, List.append_nil,
    Option.bind_some, hbuild]
  rfl

/-! ### Integers -/

mutual

/-- The integers in a value. -/
def integers : Json → List Int
  | .string _ => []
  | .integer n => [n]
  | .array items => integersOfItems items
  | .object fields => integersOfFields fields

/-- The integers in the items of a list. -/
def integersOfItems : List Json → List Int
  | [] => []
  | item :: rest => integers item ++ integersOfItems rest

/-- The integers in the fields of an object. -/
def integersOfFields : List (String × Json) → List Int
  | [] => []
  | (_, value) :: rest => integers value ++ integersOfFields rest

end

mutual

/-- A value has a text exactly if its integers are printed. -/
theorem isSome_renderAt?_iff (level : Nat) : (value : Json) →
    ((renderAt? level value).isSome ↔ ∀ n ∈ value.integers, (numeral? n).isSome)
  | .string t => by simp [renderAt?, integers]
  | .integer n => by simp [renderAt?, integers]
  | .array items => by
    rw [renderAt?, Option.isSome_map, integers, isSome_renderItems?_iff _ items]
  | .object fields => by
    rw [renderAt?, Option.isSome_map, integers, isSome_renderFields?_iff _ fields]

/-- The items of a list have texts exactly if their integers are printed. -/
theorem isSome_renderItems?_iff (level : Nat) : (items : List Json) →
    ((renderItems? level items).isSome ↔ ∀ n ∈ integersOfItems items, (numeral? n).isSome)
  | [] => by simp [renderItems?, integersOfItems]
  | item :: rest => by
    rw [integersOfItems, List.forall_mem_append, ← isSome_renderAt?_iff level item,
      ← isSome_renderItems?_iff level rest, renderItems?]
    cases renderAt? level item <;> cases renderItems? level rest <;> simp

/-- The fields of an object have texts exactly if their integers are printed. -/
theorem isSome_renderFields?_iff (level : Nat) : (fields : List (String × Json)) →
    ((renderFields? level fields).isSome ↔ ∀ n ∈ integersOfFields fields, (numeral? n).isSome)
  | [] => by simp [renderFields?, integersOfFields]
  | (name, value) :: rest => by
    rw [integersOfFields, List.forall_mem_append, ← isSome_renderAt?_iff level value,
      ← isSome_renderFields?_iff level rest, renderFields?]
    cases renderAt? level value <;> cases renderFields? level rest <;> simp

end

end Json

/-! ### Diagnostics -/

namespace Conflict

/-- The line numbers of a conflict have few enough digits to be printed. -/
def Printable (c : Conflict) : Prop :=
  c.record.line.natAbs < 10 ^ numeralLimit ∧ c.prior.line.natAbs < 10 ^ numeralLimit

/-- The diagnostics of a conflict: the place of the declaration and what is wrong with it, then
the place of the earlier one and what it is called. -/
def diagnosis (c : Conflict) : Text :=
  (s!"{String.ofList c.record.file}:{c.record.line}: {c.condition.message}: " ++
    s!"{String.ofList c.record.signature}\n" ++
    s!"{String.ofList c.prior.file}:{c.prior.line}: {c.priorLabel}: " ++
    s!"{String.ofList c.prior.signature}\n").toList

/-- The diagnostics of a conflict are printed exactly if its line numbers are. -/
theorem diagnosticText?_finding_eq_some_iff {c : Conflict} {text : Text} :
    c.finding.diagnosticText? = some text ↔ c.Printable ∧ text = c.diagnosis := by
  cases hrecord : numeral? c.record.line with
  | none =>
    have hlong := numeral?_eq_none_iff.mp hrecord
    have hnone : c.finding.diagnosticText? = none := by
      simp [Finding.diagnosticText?, Finding.diagnostics?, finding, Record.diagnostic?, hrecord]
    rw [hnone]
    exact iff_of_false nofun fun h => Nat.not_lt_of_le hlong h.1.1
  | some first =>
    obtain ⟨hfirst, rfl⟩ := numeral?_eq_some_iff.mp hrecord
    cases hprior : numeral? c.prior.line with
    | none =>
      have hlong := numeral?_eq_none_iff.mp hprior
      have hnone : c.finding.diagnosticText? = none := by
        simp [Finding.diagnosticText?, Finding.diagnostics?, finding, Record.diagnostic?, hrecord,
          hprior]
      rw [hnone]
      exact iff_of_false nofun fun h => Nat.not_lt_of_le hlong h.1.2
    | some second =>
      obtain ⟨hsecond, rfl⟩ := numeral?_eq_some_iff.mp hprior
      have htext (s : String) : toString s = s := rfl
      have hsome : c.finding.diagnosticText? = some c.diagnosis := by
        simp [Finding.diagnosticText?, Finding.diagnostics?, finding, Record.diagnostic?, hrecord,
          hprior, diagnosis, htext]
      rw [hsome]
      exact ⟨fun h => ⟨⟨hfirst, hsecond⟩, (Option.some.inj h).symm⟩, fun h => h.2 ▸ rfl⟩

end Conflict

/-! ### Entries -/

/-- What a report says of a declaration. -/
def Record.entry (r : Record) : Json :=
  .object [("name", .string r.name), ("signature", .string r.signature),
    ("file", .string r.file), ("line", .integer r.line)]

/-- What a report says of a conflict. -/
def Conflict.entry (c : Conflict) : Json :=
  .object [("condition", .string c.condition.name.toList), ("code", .integer c.condition.code),
    ("message", .string c.condition.message.toList), ("record", c.record.entry),
    ("prior", c.prior.entry), ("tool", .string "protocheck".toList),
    ("version", .string "0.1.0".toList)]

/-- A text is a report on some conflicts: it ends in a line feed, and a reader of JSON finds a
list with an entry for each of them. -/
def IsReport (conflicts : List Conflict) (text : Text) : Prop :=
  text.getLast? = some '\n' ∧ Json.read? text = some (.array (conflicts.map Conflict.entry))

/-- Every conflict has an entry. -/
theorem Conflict.toJson?_finding (c : Conflict) : c.finding.toJson? = some c.entry := by
  have hcode : Condition.ofCode? c.condition.code = some c.condition := by
    cases c.condition <;> rfl
  rw [Finding.toJson?, show c.finding.code = c.condition.code from rfl, hcode]
  rfl

private theorem report_eq (conflicts : List Conflict) :
    Finding.report (conflicts.map Conflict.finding) =
      match Json.render? (.array (conflicts.map Conflict.entry)) with
      | some text => .ok (text ++ ['\n'])
      | none => .error .longNumeral := by
  have hentries : ((conflicts.map Conflict.finding).mapM fun f =>
      (f.toJson?).elim (.error (.unknownCode f.code)) .ok) =
        (.ok (conflicts.map Conflict.entry) : Except Finding.ReportProblem (List Json)) := by
    induction conflicts with
    | nil => rfl
    | cons c rest ih =>
      rw [List.map_cons, List.mapM_cons, c.toJson?_finding, ih]
      rfl
  rw [Finding.report, hentries]
  rfl

/-- The text that is made for some conflicts is a report on them. -/
theorem isReport_of_report {conflicts : List Conflict} {text : Text}
    (htext : Finding.report (conflicts.map Conflict.finding) = .ok text) :
    IsReport conflicts text := by
  rw [report_eq] at htext
  split at htext
  · next json hjson =>
    obtain rfl : json ++ ['\n'] = text := Except.ok.inj htext
    exact ⟨List.getLast?_concat, Json.read?_of_render? hjson⟩
  · cases htext

/-- There is a report on conflicts whose line numbers are printed. -/
theorem exists_report {conflicts : List Conflict} (hprint : ∀ c ∈ conflicts, c.Printable) :
    ∃ text, Finding.report (conflicts.map Conflict.finding) = .ok text := by
  have hsome {n : Int} (hn : n.natAbs < 10 ^ numeralLimit) : (numeral? n).isSome :=
    Option.isSome_iff_exists.mpr ⟨_, numeral?_eq_some_iff.mpr ⟨hn, rfl⟩⟩
  have hintegers : ∀ n ∈ Json.integersOfItems (conflicts.map Conflict.entry),
      (numeral? n).isSome := by
    induction conflicts with
    | nil => simp [Json.integersOfItems]
    | cons c rest ih =>
      obtain ⟨⟨hrecord, hprior⟩, hprint⟩ := List.forall_mem_cons.mp hprint
      have hcode : (numeral? c.condition.code).isSome := by cases c.condition <;> rfl
      rw [List.map_cons, Json.integersOfItems, List.forall_mem_append]
      refine ⟨?_, ih hprint⟩
      simp [Conflict.entry, Record.entry, Json.integers, Json.integersOfFields, hcode,
        hsome hrecord, hsome hprior]
  obtain ⟨text, htext⟩ := Option.isSome_iff_exists.mp
    ((Json.isSome_renderAt?_iff 0 (.array (conflicts.map Conflict.entry))).mpr hintegers)
  exact ⟨text ++ ['\n'], by rw [report_eq, Json.render?, htext]⟩

end PrototypeGate

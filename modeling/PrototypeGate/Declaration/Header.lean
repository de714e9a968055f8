import PrototypeGate.Text.Blank
import PrototypeGate.Text.Word

/-!
# Function headers

A function header is two or more words separated by white space or pointer stars, a
parenthesised parameter list without a semicolon, and trailing qualifiers such as an
interrupt number in parentheses. The last word before the parameter list is the
function's name. A header is read from a text piece by piece; every piece but the end
of the parameter list is the longest one possible, and the parameter list ends at the
first parenthesis after which the rest of the line is acceptable.
-/

namespace PrototypeGate

/-- White space and pointer stars, which separate the words of a header. -/
def isSeparator (c : Char) : Bool :=
  isBlank c || c == '*'

/-- A function header, cut into its parts. -/
structure Header where
  /-- The words before the name, each with the separators that follow it. -/
  lead : Text
  /-- The name of the function. -/
  name : Text
  /-- White space between the name and the parameter list. -/
  gap : Text
  /-- The parameter list without its outer parentheses. -/
  params : Text
  /-- The qualifiers after the parameter list, with the white space around them. -/
  qualifiers : Text
  deriving DecidableEq, Repr

namespace Header

/-- The header as written. -/
def text (h : Header) : Text :=
  h.lead ++ h.name ++ h.gap ++ '(' :: h.params ++ ')' :: h.qualifiers

/-- Whether each word of the text begins like a name. The flag tells whether the next
character begins a word. -/
def wordsAreNames : Bool → Text → Bool
  | _, [] => true
  | fresh, c :: rest =>
    if isSeparator c then wordsAreNames true rest
    else (!fresh || isNameStart c) && wordsAreNames false rest

/-- Split the words before a parameter list into the leading words, the name and the
white space after it. -/
def splitWords? (region : Text) : Option (Text × Text × Text) :=
  let gap := (region.reverse.takeWhile isBlank).reverse
  let stem := region.reverse.dropWhile isBlank
  let name := (stem.takeWhile isWord).reverse
  let lead := (stem.dropWhile isWord).reverse
  if lead.head?.any isNameStart && name.head?.any isNameStart && wordsAreNames true lead then
    some (lead, name, gap)
  else none

/-- Split off the parenthesised group that may follow a qualifier. It holds no
parentheses of its own. -/
def splitGroup (t : Text) : Text × Text :=
  let blanks := t.takeWhile isBlank
  match t.dropWhile isBlank with
  | '(' :: inner =>
    let body := inner.takeWhile fun c => c != '(' && c != ')'
    match inner.dropWhile fun c => c != '(' && c != ')' with
    | ')' :: rest => (blanks ++ '(' :: body ++ [')'], rest)
    | _ => ([], t)
  | _ => ([], t)

/-- What follows a group is no longer than the text it was split from. -/
theorem length_splitGroup_le (t : Text) : (splitGroup t).2.length ≤ t.length := by
  have hblank := (List.dropWhile_suffix isBlank : _ <:+ t).length_le
  unfold splitGroup
  split
  · rename_i inner hopen
    have hinner := (List.dropWhile_suffix (fun c => c != '(' && c != ')') :
      _ <:+ inner).length_le
    rw [hopen, List.length_cons] at hblank
    dsimp only
    split
    · rename_i rest hclose
      rw [hclose, List.length_cons] at hinner
      dsimp only
      omega
    · exact Nat.le_refl _
  · exact Nat.le_refl _

/-- Split off the longest run of qualifiers: words after white space, each with an
optional group, and white space at the end. -/
def splitQualifiers (t : Text) : Text × Text :=
  let blanks := t.takeWhile isBlank
  let after := t.dropWhile isBlank
  if blanks ≠ [] ∧ after.head?.any isNameStart then
    let group := splitGroup (after.dropWhile isWord)
    (splitQualifiers group.2).map (blanks ++ after.takeWhile isWord ++ group.1 ++ ·) id
  else (blanks, after)
termination_by t.length
decreasing_by
  rename_i hqualifier
  have hblank : 0 < (t.takeWhile isBlank).length := List.length_pos_iff.mpr hqualifier.1
  have hsplit := congrArg List.length (List.takeWhile_append_dropWhile (p := isBlank) (l := t))
  have hword := (List.dropWhile_suffix isWord : _ <:+ t.dropWhile isBlank).length_le
  have hgroup := length_splitGroup_le ((t.dropWhile isBlank).dropWhile isWord)
  rw [List.length_append] at hsplit
  omega

/-- Split the text after an opening parenthesis at the first closing one such that no
semicolon stands before it and the text after the qualifiers is accepted. -/
def splitParams? (accepts : Text → Bool) : Text → Option (Text × Text)
  | [] => none
  | c :: rest =>
    if c = ';' then none
    else if c = ')' && accepts (splitQualifiers rest).2 then some ([], rest)
    else (splitParams? accepts rest).map fun split => (c :: split.1, split.2)

/-- Read a header at the start of the text, such that the text after it is accepted. -/
def read? (accepts : Text → Bool) (t : Text) : Option (Header × Text) :=
  match t.dropWhile fun c => isWord c || isSeparator c with
  | '(' :: afterParen => do
    let (lead, name, gap) ← splitWords? (t.takeWhile fun c => isWord c || isSeparator c)
    let (params, afterParams) ← splitParams? accepts afterParen
    let (qualifiers, rest) := splitQualifiers afterParams
    return (⟨lead, name, gap, params, qualifiers⟩, rest)
  | _ => none

/-- Find the leftmost header in the text that ends at a semicolon. The result holds the
text before the header, the header, and the text after the semicolon. -/
def search? : Text → Option (Text × Header × Text)
  | [] => none
  | c :: rest =>
    match read? (fun t => t.head? == some ';') (c :: rest) with
    | some (header, after) => some ([], header, after.tail)
    | none => (search? rest).map fun (before, found) => (c :: before, found)

/-- The header that takes up the whole text, if it has that form. -/
def ofLine? (t : Text) : Option Header :=
  (read? List.isEmpty t).map Prod.fst

end Header

end PrototypeGate

import PrototypeGate.Text.Blank

/-!
# String and character literals

A literal runs from its opening quote to the next unescaped quote of the same kind.
A literal that is not closed on its line ends before the line feed, and a backslash
protects whatever character follows it, a line feed included.
-/

namespace PrototypeGate.Literal

/-- Split the text after an opening quote into the rest of the literal, its closing
quote included, and what follows the literal. -/
def split (quote : Char) : Text → Text × Text
  | [] => ([], [])
  | [c] => if c = '\n' ∧ c ≠ quote then ([], [c]) else ([c], [])
  | c :: d :: rest =>
    if c = '\\' then (split quote rest).map (c :: d :: ·) id
    else if c = quote then ([c], d :: rest)
    else if c = '\n' then ([], c :: d :: rest)
    else (split quote (d :: rest)).map (c :: ·) id

/-- Splitting loses nothing. -/
theorem split_append (quote : Char) (t : Text) :
    (split quote t).1 ++ (split quote t).2 = t := by
  fun_induction split quote t <;> simp_all

/-- What follows a literal is no longer than the text it was split from. -/
theorem length_split_le (quote : Char) (t : Text) :
    (split quote t).2.length ≤ t.length := by
  have h := congrArg List.length (split_append quote t)
  simp only [List.length_append] at h
  omega

/-- Index just past the literal whose opening quote stands at `start`; zero when the
text has no character there. -/
def endIndex (t : Text) (start : Nat) : Nat :=
  match t.drop start with
  | [] => 0
  | quote :: rest => start + 1 + (split quote rest).1.length

end PrototypeGate.Literal

import PrototypeGate.Text.Blank

/-!
# Comments and directives

Both run over line feeds under rules of their own: a block comment to its first
closing mark, a directive to the first line feed that is neither spliced nor inside a
block comment. Each splitting function returns what it consumed and what follows.
-/

namespace PrototypeGate

/-- Split the text after the opening mark of a block comment into the rest of the
comment and what follows it. An unclosed comment takes the whole text. -/
def splitComment : Text → Text × Text
  | [] => ([], [])
  | '*' :: '/' :: rest => (['*', '/'], rest)
  | c :: rest => (splitComment rest).map (c :: ·) id

/-- Splitting off a comment loses nothing. -/
theorem splitComment_append (t : Text) : (splitComment t).1 ++ (splitComment t).2 = t := by
  fun_induction splitComment t <;> simp_all

/-- What follows a comment is no longer than the text it was split from. -/
theorem length_splitComment_le (t : Text) : (splitComment t).2.length ≤ t.length := by
  have h := congrArg List.length (splitComment_append t)
  simp only [List.length_append] at h
  omega

/-- Split the text after the mark of a directive into the rest of the directive and
what follows, which is empty or begins with the line feed that ends the directive.
The flag tells whether a block comment is open. -/
def splitDirective : Bool → Text → Text × Text
  | _, [] => ([], [])
  | true, '*' :: '/' :: rest =>
    (splitDirective false rest).map ('*' :: '/' :: ·) id
  | true, c :: rest =>
    (splitDirective true rest).map (c :: ·) id
  | false, '\\' :: '\n' :: rest =>
    (splitDirective false rest).map ('\\' :: '\n' :: ·) id
  | false, '/' :: '*' :: rest =>
    (splitDirective true rest).map ('/' :: '*' :: ·) id
  | false, '\n' :: rest => ([], '\n' :: rest)
  | false, c :: rest =>
    (splitDirective false rest).map (c :: ·) id

/-- Splitting off a directive loses nothing. -/
theorem splitDirective_append (inComment : Bool) (t : Text) :
    (splitDirective inComment t).1 ++ (splitDirective inComment t).2 = t := by
  fun_induction splitDirective inComment t <;> simp_all

/-- What follows a directive is no longer than the text it was split from. -/
theorem length_splitDirective_le (inComment : Bool) (t : Text) :
    (splitDirective inComment t).2.length ≤ t.length := by
  have h := congrArg List.length (splitDirective_append inComment t)
  simp only [List.length_append] at h
  omega

end PrototypeGate

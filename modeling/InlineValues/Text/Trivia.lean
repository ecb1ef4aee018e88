import InlineValues.Text.CharClass
import InlineValues.Text.LineMap
import InlineValues.Text.Source

/-!
# Skipping trivia

A node of the tree begins with the trivia in front of its first token.  `skipTrivia` is the offset
at which the token itself starts: it passes blanks, line breaks and comments, and at the very start
of the text a line that begins with `#!`.

The functions on lists of characters below give back what is left of the text together with the
number of bytes that they have passed.
-/

namespace InlineValues

/-- What is left of a text, and how many bytes were passed. -/
abbrev Passed := List Char × Nat

/-- Pass the rest of a line, without the characters that end it. -/
def passLine : List Char → Nat → Passed
  | [], n => ([], n)
  | c :: cs, n => if endsLine c then (c :: cs, n) else passLine cs (n + c.utf8Size)

/-- Pass the text of a block comment and its end, or everything if it has none. -/
def passBlockComment : List Char → Nat → Passed
  | [], n => ([], n)
  | '*' :: '/' :: cs, n => (cs, n + 2)
  | c :: cs, n => passBlockComment cs (n + c.utf8Size)

theorem length_passLine_le (cs : List Char) (n : Nat) : (passLine cs n).1.length ≤ cs.length := by
  fun_induction passLine cs n <;> simp_all
  omega

theorem length_passBlockComment_le (cs : List Char) (n : Nat) :
    (passBlockComment cs n).1.length ≤ cs.length := by
  fun_induction passBlockComment cs n <;> simp_all <;> omega

/-- Pass blanks, line breaks and comments. -/
def passTrivia (cs : List Char) (n : Nat) : Passed :=
  match cs with
  | '/' :: '/' :: rest =>
    have := length_passLine_le rest (n + 2)
    passTrivia (passLine rest (n + 2)).1 (passLine rest (n + 2)).2
  | '/' :: '*' :: rest =>
    have := length_passBlockComment_le rest (n + 2)
    passTrivia (passBlockComment rest (n + 2)).1 (passBlockComment rest (n + 2)).2
  | c :: rest =>
    if isLineBreak c || isBlank c then passTrivia rest (n + c.utf8Size) else (c :: rest, n)
  | [] => ([], n)
termination_by cs.length
decreasing_by all_goals simp_all <;> omega

/-- Pass a first line that begins with `#!`. -/
def passShebang : List Char → Passed
  | '#' :: '!' :: cs => passLine cs 2
  | cs => (cs, 0)

/-- The first offset from `pos` on that is not trivia. -/
def skipTrivia (s : Source) (pos : Nat) : Nat :=
  let pos := min pos s.size
  let (rest, n) := if pos == 0 then passShebang s.chars else (s.suffix pos, 0)
  pos + (passTrivia rest n).2

end InlineValues

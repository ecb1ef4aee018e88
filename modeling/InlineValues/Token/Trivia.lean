import InlineValues.Text.CharClass
import InlineValues.Text.LineMap
import InlineValues.Token.Cursor

/-!
# The trivia in front of a token

Blanks, line breaks and comments separate tokens.  `Trivia.before` passes all of them in one walk
over the characters, whose three states are the space between comments, a line comment and a block
comment.  It reports where the token starts, whether a line break lies in front of it, and whether
the text ended inside a block comment.

Only a line feed or a carriage return ends a line comment, and only these two count as line breaks
inside a block comment.  Between comments the two separator characters count as well.
-/

namespace InlineValues

/-- What stands in front of a token. -/
structure Trivia where
  stop : Cursor
  lineBreak : Bool
  unclosed : Bool
  deriving DecidableEq, Repr

namespace Trivia

/-- Where a walk over trivia is. -/
inductive Place where
  | between
  | lineComment
  | blockComment
  deriving DecidableEq, Repr

/-- Pass trivia from `pos` on.  `lineBreak` says whether a line break has been passed. -/
def walk : Place → (lineBreak : Bool) → (rest : List Char) → (pos : Nat) → Trivia
  | place, lineBreak, [], pos => ⟨⟨[], pos⟩, lineBreak, place == .blockComment⟩
  | .between, lineBreak, '/' :: '/' :: rest, pos => walk .lineComment lineBreak rest (pos + 2)
  | .between, lineBreak, '/' :: '*' :: rest, pos => walk .blockComment lineBreak rest (pos + 2)
  | .between, lineBreak, c :: rest, pos =>
    if isLineBreak c then walk .between true rest (pos + c.utf8Size)
    else if isBlank c then walk .between lineBreak rest (pos + c.utf8Size)
    else ⟨⟨c :: rest, pos⟩, lineBreak, false⟩
  | .lineComment, lineBreak, c :: rest, pos =>
    if endsLine c then walk .between true rest (pos + c.utf8Size)
    else walk .lineComment lineBreak rest (pos + c.utf8Size)
  | .blockComment, lineBreak, '*' :: '/' :: rest, pos => walk .between lineBreak rest (pos + 2)
  | .blockComment, lineBreak, c :: rest, pos =>
    walk .blockComment (lineBreak || endsLine c) rest (pos + c.utf8Size)

/-- The trivia at a cursor. -/
def before (c : Cursor) : Trivia := walk .between false c.rest c.pos

end Trivia

end InlineValues

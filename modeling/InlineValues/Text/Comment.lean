import InlineValues.Text.LineMap
import InlineValues.Text.Trivia

/-!
# Comments in front of a node

A printer that keeps comments asks for those in front of a node.  `leadingComments` lists them in
order.  It looks past line ends and the ASCII blanks and stops at anything else, and it notes for
each comment whether a line ends between it and what follows.
-/

namespace InlineValues

/-- The two forms of comments. -/
inductive CommentForm where
  | line
  | block
  deriving DecidableEq, Repr

/-- A comment of a source text, and whether a line ends behind it. -/
structure Comment where
  start : Nat
  stop : Nat
  form : CommentForm
  endsWithLine : Bool
  deriving DecidableEq, Repr

/-- A blank of the ASCII range. -/
def isAsciiBlank (c : Char) : Bool := c == ' ' || c == '\t' || c == '\x0b' || c == '\x0c'

/-- Note that a line ends behind the last comment, the first of `found`. -/
def noteLineEnd : (found : List Comment) → List Comment
  | [] => []
  | last :: earlier => { last with endsWithLine := true } :: earlier

/-- The comments of `cs`, which starts at offset `pos`, behind those of `found`, last one first. -/
def commentsFrom (found : List Comment) (cs : List Char) (pos : Nat) : List Comment :=
  match cs with
  | '/' :: '/' :: rest =>
    let stop := passLine rest (pos + 2)
    have := length_passLine_le rest (pos + 2)
    commentsFrom (⟨pos, stop.2, .line, false⟩ :: found) stop.1 stop.2
  | '/' :: '*' :: rest =>
    let stop := passBlockComment rest (pos + 2)
    have := length_passBlockComment_le rest (pos + 2)
    commentsFrom (⟨pos, stop.2, .block, false⟩ :: found) stop.1 stop.2
  | c :: rest =>
    if isAsciiBlank c then commentsFrom found rest (pos + c.utf8Size)
    else if endsLine c then commentsFrom (noteLineEnd found) rest (pos + c.utf8Size)
    else found.reverse
  | [] => found.reverse
termination_by cs.length
decreasing_by all_goals simp_all <;> omega

/-- The comments in front of the token at or behind an offset, in order. -/
def leadingComments (s : Source) (pos : Nat) : List Comment :=
  let pos := min pos s.size
  let (rest, n) := if pos == 0 then passShebang s.chars else (s.suffix pos, 0)
  commentsFrom [] rest (pos + n)

end InlineValues

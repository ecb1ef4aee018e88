/-!
# A line of output

Whatever the printer writes ends up on one line.  A line break of the layout becomes a single
blank, and a semicolon is written only when something follows it, so that the last one of the
output can be dropped while those inside are kept.

`Line.text` is what stands on the line, and `Line.settle` is the only operation that turns a
deferred semicolon into text.
-/

namespace InlineValues

/-- A line under construction. -/
structure Line where
  /-- What is written, the last character first. -/
  reversed : List Char := []
  /-- Whether a semicolon is to be written before anything else is. -/
  owesSemicolon : Bool := false
  deriving DecidableEq, Repr

namespace Line

/-- What is written. -/
def text (w : Line) : List Char := w.reversed.reverse

/-- Whether nothing is written. -/
def isEmpty (w : Line) : Bool := w.reversed.isEmpty

/-- Write the semicolon that was deferred. -/
def settle (w : Line) : Line :=
  if w.owesSemicolon then ⟨';' :: w.reversed, false⟩ else w

/-- Write a character. -/
def push (w : Line) (c : Char) : Line := { w.settle with reversed := c :: w.settle.reversed }

/-- Write a text.  An empty text leaves a deferred semicolon deferred. -/
def append (w : Line) (cs : List Char) : Line :=
  if cs.isEmpty then w
  else { w.settle with reversed := cs.reverse ++ w.settle.reversed }

/-- Write a line break: a blank, unless the line is empty or ends with one already. -/
def breakLine (w : Line) : Line :=
  match w.settle.reversed with
  | [] | ' ' :: _ => w.settle
  | _ => w.settle.push ' '

/-- Write a semicolon that is dropped if nothing follows. -/
def semicolon (w : Line) : Line := { w.settle with owesSemicolon := true }

/-- What the line comes to: without a deferred semicolon and without blanks at the end. -/
def finish (w : Line) : List Char := (w.reversed.dropWhile (· == ' ')).reverse

@[simp] theorem append_nil (w : Line) : w.append [] = w := rfl

end Line

end InlineValues

import InlineValues.Printer.Line

/-!
# Marks

The printer does not write: it turns a tree into a list of marks, and `layOut` writes these onto a
line.  Whether the last semicolon is dropped is thereby a matter of the layout alone, and the marks
of a tree do not depend on it.
-/

namespace InlineValues

/-- What a printer puts out. -/
inductive Mark where
  /-- A text, written as it is. -/
  | text (cs : List Char)
  /-- A line break, which becomes a blank. -/
  | line
  /-- A semicolon that ends a statement or a member. -/
  | semicolon
  /-- A part of the tree that was left out, because it lies too deep. -/
  | cut
  deriving DecidableEq, Repr

/-- The marks of a text. -/
def write (s : String) : List Mark := [.text s.toList]

namespace Line

/-- Write a mark.  With `defer`, a semicolon is written only when something follows. -/
def mark (defer : Bool) (w : Line) : Mark → Line
  | .text cs => w.append cs
  | .line => w.breakLine
  | .semicolon => if defer then w.semicolon else w.push ';'
  | .cut => w

/-- Write marks one after the other. -/
def marks (defer : Bool) (w : Line) (marks : List Mark) : Line := marks.foldl (mark defer) w

@[simp] theorem marks_nil (defer : Bool) (w : Line) : w.marks defer [] = w := rfl

@[simp] theorem marks_cons (defer : Bool) (w : Line) (m : Mark) (ms : List Mark) :
    w.marks defer (m :: ms) = (w.mark defer m).marks defer ms := rfl

@[simp] theorem marks_append (defer : Bool) (w : Line) (ms ns : List Mark) :
    w.marks defer (ms ++ ns) = (w.marks defer ms).marks defer ns := by
  simp [marks]

end Line

/-- The text of a list of marks. -/
def layOut (defer : Bool) (marks : List Mark) : List Char := (Line.marks defer {} marks).finish

end InlineValues

import InlineValues.Text.Source
import InlineValues.Text.Utf16

/-!
# Lines and columns

A `LineMap` lists the byte offset at which each line of a text starts.  A line feed, a carriage
return, and the two together each end one line.  Positions are a line and a UTF-16 column, both
counted from zero.

`LineMap.position` sends an offset past the end to the end of the last line.  `LineMap.offset?`
holds a column past its line's text at the end of that text, before the characters that end the
line, and refuses a line that does not exist.
-/

namespace InlineValues

/-- A line and a UTF-16 column, both counted from zero. -/
structure Position where
  line : Nat
  column : Nat
  deriving DecidableEq, Repr, Inhabited

/-- The characters that end a line of a text. -/
def endsLine (c : Char) : Bool := c == '\n' || c == '\r'

/-- A text without the characters at its end that end a line. -/
def withoutLineEnd (cs : List Char) : List Char := (cs.reverse.dropWhile endsLine).reverse

/-- The offsets just past each line end of `cs`, where `cs` starts at offset `pos`. -/
def lineStartsFrom (pos : Nat) : List Char → List Nat
  | [] => []
  | '\r' :: '\n' :: cs => (pos + 2) :: lineStartsFrom (pos + 2) cs
  | c :: cs =>
    if endsLine c then (pos + 1) :: lineStartsFrom (pos + 1) cs
    else lineStartsFrom (pos + c.utf8Size) cs

/-- The offsets at which the lines of a text start. -/
structure LineMap where
  starts : List Nat
  deriving DecidableEq, Repr, Inhabited

namespace LineMap

/-- The lines of a text.  The first one starts at zero, also in an empty text. -/
def ofSource (s : Source) : LineMap := ⟨0 :: lineStartsFrom 0 s.chars⟩

/-- The number of lines. -/
def lineCount (m : LineMap) : Nat := m.starts.length

/-- The offset at which a line starts. -/
def lineStart? (m : LineMap) (line : Nat) : Option Nat := m.starts[line]?

/-- The line that holds an offset: the last one that starts at or before it. -/
def lineOf (m : LineMap) (offset : Nat) : Nat :=
  (m.starts.takeWhile (· ≤ offset)).length - 1

/-- Line and column of a byte offset of `s`, held at the end of the text. -/
def position (m : LineMap) (s : Source) (offset : Nat) : Position :=
  let offset := min offset s.size
  let line := m.lineOf offset
  let start := (m.lineStart? line).getD 0
  ⟨line, utf16OfByte (s.suffix start) (offset - start)⟩

/-- The byte offset of a position of `s`, if its line exists.  The last line goes to the end of the
text, and any other one to the start of the next. -/
def offset? (m : LineMap) (s : Source) (p : Position) : Option Nat :=
  (m.lineStart? p.line).map fun start =>
    let stop := (m.lineStart? (p.line + 1)).getD s.size
    start + byteOfUtf16 (withoutLineEnd (s.slice start stop)) p.column

end LineMap

end InlineValues

import InlineValues.Text.Source

/-!
# Cursors into a source text

Tokens are read from the front of what is left of the text, and the bytes that were passed are
counted.  A `Cursor` is these two together.  Every movement below passes whole characters, so a
cursor that starts between two characters stays between two characters.
-/

namespace InlineValues

/-- A place in a source text: what is left of the text, and the offset at which that starts. -/
structure Cursor where
  rest : List Char
  pos : Nat
  deriving DecidableEq, Repr, Inhabited

/-- The cursor at an offset.  Inside a character, and past the end, nothing is left to read. -/
def Source.cursor (s : Source) (pos : Nat) : Cursor := ⟨s.suffix pos, pos⟩

namespace Cursor

/-- The character at the cursor. -/
def peek? (c : Cursor) : Option Char := c.rest.head?

/-- Whether the character at the cursor passes a test. -/
def sees (c : Cursor) (test : Char → Bool) : Bool := c.peek?.any test

/-- The cursor behind the next character, or `c` at the end. -/
def advance (c : Cursor) : Cursor :=
  match c.rest with
  | [] => c
  | a :: rest => ⟨rest, c.pos + a.utf8Size⟩

/-- The cursor behind the next `n` characters. -/
def skip (c : Cursor) : Nat → Cursor
  | 0 => c
  | n + 1 => c.advance.skip n

/-- The cursor behind the next character if that passes a test. -/
def skipIf (c : Cursor) (test : Char → Bool) : Cursor := if c.sees test then c.advance else c

/-- The end of the longest run of characters that pass a test, in `rest` from offset `pos`. -/
def runFrom (test : Char → Bool) : (rest : List Char) → (pos : Nat) → Cursor
  | [], pos => ⟨[], pos⟩
  | a :: rest, pos => if test a then runFrom test rest (pos + a.utf8Size) else ⟨a :: rest, pos⟩

/-- The cursor behind the longest run of characters that pass a test. -/
def skipWhile (c : Cursor) (test : Char → Bool) : Cursor := runFrom test c.rest c.pos

/-- The text between two cursors. -/
def textTo (c d : Cursor) : List Char := takeBytes c.rest (d.pos - c.pos)

end Cursor

end InlineValues

import InlineValues.Text.Bytes
import InlineValues.Text.CharClass

/-!
# Byte offsets and UTF-16 offsets

Editors count UTF-16 code units, the tree counts bytes.  Both conversions walk the characters once
and agree on character boundaries.  Elsewhere they round in opposite directions: a UTF-16 offset
inside a surrogate pair falls back to the byte at which its character starts, and a byte offset
inside a character counts that character whole.  Offsets past the end are held at the end.

In a text of ASCII characters the two units are the same, and neither conversion walks.
-/

namespace InlineValues

/-- The number of UTF-16 code units of a character: two from the first supplementary plane on. -/
def utf16Size (c : Char) : Nat := if c.val < 0x10000 then 1 else 2

/-- The byte offset of UTF-16 offset `n` in `cs`, counted from byte `start`. -/
def byteOfUtf16From (start : Nat) : List Char → Nat → Nat
  | [], _ => start
  | c :: cs, n =>
    if n < utf16Size c then start else byteOfUtf16From (start + c.utf8Size) cs (n - utf16Size c)

/-- The byte offset of UTF-16 offset `n`. -/
def byteOfUtf16 (cs : List Char) (n : Nat) : Nat :=
  if cs.all isAscii then min n (byteLength cs) else byteOfUtf16From 0 cs n

/-- The UTF-16 offset of byte offset `p` in `cs`, counted from UTF-16 offset `start`. -/
def utf16OfByteFrom (start : Nat) : List Char → Nat → Nat
  | [], _ => start
  | c :: cs, p =>
    if p = 0 then start else utf16OfByteFrom (start + utf16Size c) cs (p - c.utf8Size)

/-- The UTF-16 offset of byte offset `p`. -/
def utf16OfByte (cs : List Char) (p : Nat) : Nat :=
  if cs.all isAscii then min p (byteLength cs) else utf16OfByteFrom 0 cs p

end InlineValues

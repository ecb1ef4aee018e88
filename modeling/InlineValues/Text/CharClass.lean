import InlineValues.Text.Alphabetic
import InlineValues.Text.Numeric

/-!
# Character classes

The classes the lexer tells apart.  Line breaks and blanks are fixed sets; blanks include the
zero-width space, the byte order mark and the next-line control character, none of which ends a
line.  Identifiers may use every alphabetic character, and every numeric one after the first
character.
-/

namespace InlineValues

/-- A character that ends a line of code. -/
def isLineBreak (c : Char) : Bool :=
  c == '\n' || c == '\r' || c == '\u2028' || c == '\u2029'

/-- White space that does not end a line. -/
def isBlank (c : Char) : Bool :=
  c == ' ' || c == '\t' || c == '\x0b' || c == '\x0c' || c == '\u00a0' || c == '\u0085' ||
    c == '\u1680' || ('\u2000' ≤ c && c ≤ '\u200b') || c == '\u202f' || c == '\u205f' ||
    c == '\u3000' || c == '\ufeff'

/-- A character that may be trimmed from the ends of a text, among them every line break. -/
def isWhiteSpace (c : Char) : Bool :=
  ('\t' ≤ c && c ≤ '\r') || c == ' ' || c == '\u0085' || c == '\u00a0' || c == '\u1680' ||
    ('\u2000' ≤ c && c ≤ '\u200a') || c == '\u2028' || c == '\u2029' || c == '\u202f' ||
    c == '\u205f' || c == '\u3000'

/-- A character of the ASCII range. -/
def isAscii (c : Char) : Bool := c.val < 128

/-- `0` to `9`. -/
def isDecimalDigit (c : Char) : Bool := '0' ≤ c && c ≤ '9'

/-- `0` to `7`. -/
def isOctalDigit (c : Char) : Bool := '0' ≤ c && c ≤ '7'

/-- `0` or `1`. -/
def isBinaryDigit (c : Char) : Bool := c == '0' || c == '1'

/-- `0` to `9`, `a` to `f` in either case. -/
def isHexDigit (c : Char) : Bool :=
  isDecimalDigit c || ('a' ≤ c && c ≤ 'f') || ('A' ≤ c && c ≤ 'F')

/-- A Latin letter of the ASCII range. -/
def isAsciiLetter (c : Char) : Bool := ('a' ≤ c && c ≤ 'z') || ('A' ≤ c && c ≤ 'Z')

/-- A character that can begin an identifier. -/
def isIdentifierStart (c : Char) : Bool :=
  if isAscii c then isAsciiLetter c || c == '$' || c == '_' else isWideAlphabetic c

/-- A character that can continue an identifier; the zero-width joiners count. -/
def isIdentifierPart (c : Char) : Bool :=
  if isAscii c then isAsciiLetter c || isDecimalDigit c || c == '$' || c == '_'
  else c == '\u200c' || c == '\u200d' || isWideAlphabetic c || isWideNumeric c

end InlineValues

import InlineValues.Json.Basic
import InlineValues.Json.Magnitude

/-!
# Reading JSON

`Json.parse?` reads a text that holds one value and nothing else but blanks.  The grammar is the
strict one: no comments, no trailing commas, no control characters in strings, no leading zeros.

Values are read by descent.  Each call takes at least one character before it descends, so the
number of characters of the text is fuel enough; the wrapper supplies it.
-/

namespace InlineValues
namespace Json

/-- Pass blanks. -/
def skipBlanks : List Char → List Char
  | [] => []
  | c :: cs => if c == ' ' || c == '\n' || c == '\t' || c == '\r' then skipBlanks cs else c :: cs

/-! ## Strings -/

/-- The value of a hexadecimal digit. -/
def hexValue? (c : Char) : Option Nat :=
  if '0' ≤ c && c ≤ '9' then some (c.toNat - '0'.toNat)
  else if 'a' ≤ c && c ≤ 'f' then some (c.toNat - 'a'.toNat + 10)
  else if 'A' ≤ c && c ≤ 'F' then some (c.toNat - 'A'.toNat + 10)
  else none

/-- The number that four hexadecimal digits write. -/
def codeUnit? (a b c d : Char) : Option Nat := do
  return (((← hexValue? a) * 16 + (← hexValue? b)) * 16 + (← hexValue? c)) * 16 + (← hexValue? d)

/-- The character that a letter behind a backslash stands for. -/
def unescape? : Char → Option Char
  | '\x22' => some '\x22'
  | '\\' => some '\\'
  | '/' => some '/'
  | 'b' => some '\x08'
  | 'f' => some '\x0c'
  | 'n' => some '\n'
  | 'r' => some '\r'
  | 't' => some '\t'
  | _ => none

/-- The text of a string so far: its characters, last one first, the first half of a surrogate pair
that waits for its second half, and whether all halves have found each other. -/
structure Spelled where
  chars : List Char
  half : Option Nat
  paired : Bool

namespace Spelled

/-- Add a character. -/
def push (s : Spelled) (c : Char) : Spelled := ⟨c :: s.chars, none, s.paired && s.half.isNone⟩

/-- Add a code unit that was written as an escape. -/
def pushUnit (s : Spelled) (unit : Nat) : Spelled :=
  if 0xD800 ≤ unit && unit < 0xDC00 then ⟨s.chars, some unit, s.paired && s.half.isNone⟩
  else if 0xDC00 ≤ unit && unit < 0xE000 then
    match s.half with
    | some half =>
      ⟨Char.ofNat (0x10000 + (half - 0xD800) * 0x400 + (unit - 0xDC00)) :: s.chars, none, s.paired⟩
    | none => { s with paired := false }
  else s.push (Char.ofNat unit)

/-- The string, if every half of a surrogate pair has found the other. -/
def finish? (s : Spelled) : Option String :=
  if s.paired && s.half.isNone then some (String.ofList s.chars.reverse) else none

end Spelled

/-- Read a string from behind its opening quote.  The result has no text if a half of a surrogate
pair stands alone. -/
def readString (s : Spelled) : List Char → Option (Option String × List Char)
  | [] => none
  | '\x22' :: rest => some (s.finish?, rest)
  | '\\' :: 'u' :: a :: b :: c :: d :: rest =>
    match codeUnit? a b c d with
    | some unit => readString (s.pushUnit unit) rest
    | none => none
  | '\\' :: c :: rest =>
    match unescape? c with
    | some a => readString (s.push a) rest
    | none => none
  | c :: rest => if c.val < 0x20 || c == '\\' then none else readString (s.push c) rest

/-! ## Numbers -/

/-- Split off the digits at the front of a text. -/
def spanDigits (cs : List Char) : List Char × List Char := cs.span isDecimalDigit

/-- Read the digits of an integer, without leading zeros. -/
def readWhole (cs : List Char) : Option (List Char × List Char) :=
  match cs with
  | '0' :: rest => some (['0'], rest)
  | _ =>
    match spanDigits cs with
    | ([], _) => none
    | split => some split

/-- Read a fraction, if there is one. -/
def readFraction : List Char → Option (List Char × List Char)
  | '.' :: rest =>
    match spanDigits rest with
    | ([], _) => none
    | split => some split
  | rest => some ([], rest)

/-- Read an exponent, if there is one: the text that stands before its digits, and its digits. -/
def readExponent : List Char → Option (List Char × List Char × List Char)
  | e :: rest =>
    if e == 'e' || e == 'E' then
      let (sign, rest) := match rest with
        | '+' :: rest => (['+'], rest)
        | '-' :: rest => (['-'], rest)
        | rest => ([], rest)
      match spanDigits rest with
      | ([], _) => none
      | (digits, rest) => some (e :: sign, digits, rest)
    else some ([], [], e :: rest)
  | [] => some ([], [], [])

/-- Read a number. -/
def readNumber (cs : List Char) : Option (Json × List Char) := do
  let (minus, rest) := match cs with
    | '-' :: rest => (['-'], rest)
    | rest => ([], rest)
  let (whole, rest) ← readWhole rest
  let (fraction, rest) ← readFraction rest
  let (mark, exponent, rest) ← readExponent rest
  if minus.isEmpty && fraction.isEmpty && mark.isEmpty && digitsValue whole < Nat.pow 2 64 then
    return (natural (digitsValue whole), rest)
  let power : Int := if mark.contains '-' then -digitsValue exponent else digitsValue exponent
  if !(Decimal.ofDigits whole fraction power).isFinite then
    return (unrepresentable, rest)
  let fractionText := if fraction.isEmpty then [] else '.' :: fraction
  return (number (String.ofList (minus ++ whole ++ fractionText ++ mark ++ exponent)), rest)

/-! ## Values -/

/-- What stands behind a word, if the text begins with it. -/
def afterWord? : (word : List Char) → List Char → Option (List Char)
  | [], cs => some cs
  | w :: word, c :: cs => if w == c then afterWord? word cs else none
  | _ :: _, [] => none

mutual

/-- Read a value.  Blanks in front of it are passed. -/
def readValue : (fuel : Nat) → List Char → Option (Json × List Char)
  | 0, _ => none
  | fuel + 1, cs =>
    match skipBlanks cs with
    | '\x7b' :: rest =>
      match skipBlanks rest with
      | '\x7d' :: rest => some (object [], rest)
      | rest => readMembers fuel true [] rest
    | '[' :: rest =>
      match skipBlanks rest with
      | ']' :: rest => some (array [], rest)
      | rest => readItems fuel [] rest
    | '\x22' :: rest =>
      match readString ⟨[], none, true⟩ rest with
      | some (some text, rest) => some (string text, rest)
      | some (none, rest) => some (unrepresentable, rest)
      | none => none
    | 't' :: rest => (afterWord? ['r', 'u', 'e'] rest).map fun rest => (bool true, rest)
    | 'f' :: rest => (afterWord? ['a', 'l', 's', 'e'] rest).map fun rest => (bool false, rest)
    | 'n' :: rest => (afterWord? ['u', 'l', 'l'] rest).map fun rest => (null, rest)
    | rest => readNumber rest

/-- Read the items of an array behind those of `items`, last one first, and its end. -/
def readItems : (fuel : Nat) → (items : List Json) → List Char → Option (Json × List Char)
  | 0, _, _ => none
  | fuel + 1, items, cs =>
    match readValue fuel cs with
    | none => none
    | some (item, rest) =>
      match skipBlanks rest with
      | ',' :: rest => readItems fuel (item :: items) rest
      | ']' :: rest => some (array (item :: items).reverse, rest)
      | _ => none

/-- Read the members of an object behind those of `members`, last one first, and its end.  `named`
says whether every name so far denotes a text. -/
def readMembers : (fuel : Nat) → (named : Bool) → (members : List (String × Json)) → List Char →
    Option (Json × List Char)
  | 0, _, _, _ => none
  | fuel + 1, named, members, cs =>
    match skipBlanks cs with
    | '\x22' :: rest =>
      match readString ⟨[], none, true⟩ rest with
      | none => none
      | some (name, rest) =>
        match skipBlanks rest with
        | ':' :: rest =>
          match readValue fuel rest with
          | none => none
          | some (value, rest) =>
            let named := named && name.isSome
            let members := (name.getD "", value) :: members
            match skipBlanks rest with
            | ',' :: rest => readMembers fuel named members rest
            | '\x7d' :: rest =>
              some (if named then object members.reverse else unrepresentable, rest)
            | _ => none
        | _ => none
    | _ => none

end

/-- The value that a text writes, if it writes one and nothing else. -/
def parse? (text : String) : Option Json :=
  let cs := text.toList
  match readValue (2 * cs.length + 2) cs with
  | some (value, rest) => if (skipBlanks rest).isEmpty then some value else none
  | none => none

end Json
end InlineValues

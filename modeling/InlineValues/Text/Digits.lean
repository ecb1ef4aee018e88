import InlineValues.Text.CharClass
import InlineValues.Text.Span

/-!
# Numbers in decimal digits

Lengths, lines and limits reach the program as decimal numerals, in headers and on the command line.
A numeral may have a sign in front.  White space, separators and digits of other scripts are
refused.
-/

namespace InlineValues

/-- The number that decimal digits write. -/
def digitsValue (cs : List Char) : Nat := cs.foldl (fun n c => n * 10 + (c.toNat - '0'.toNat)) 0

/-- The number that decimal digits write, unless there are none or other characters. -/
def readDigits? (cs : List Char) : Option Nat :=
  if cs.isEmpty || !cs.all isDecimalDigit then none else some (digitsValue cs)

/-- A number below `limit`, perhaps with a plus sign. -/
def readBelow? (limit : Nat) (cs : List Char) : Option Nat :=
  let digits := match cs with
    | '+' :: digits => digits
    | digits => digits
  (readDigits? digits).filter (· < limit)

/-- A 64-bit count. -/
def readCount? (cs : List Char) : Option Nat := readBelow? (Nat.pow 2 64) cs

/-- A 32-bit offset.  Zero may have a minus sign. -/
def readOffset? (cs : List Char) : Option Nat :=
  match cs with
  | '-' :: digits => (readDigits? digits).filter (· == 0)
  | _ => readBelow? (maxOffset + 1) cs

end InlineValues

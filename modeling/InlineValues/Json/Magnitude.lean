import InlineValues.Text.Digits

/-!
# The size of numbers

A JSON number denotes a double, and one that is too large denotes no value.  The double is worked
out in steps.  The leading digits that 64 bits hold make a whole number; this number and the power
of ten that it is to be multiplied by are rounded to doubles, and so is their product.  Near the
largest double the three roundings can lift a number over the limit that is itself below it.

All of this is arithmetic on whole numbers.  Where the power of ten is negative, the number is
divided, which makes it smaller, and nothing has to be worked out.

Main statements: `roundDouble_near` (a number moves by at most half of the distance between doubles)
and `roundDouble_eq_self` (a number of 53 bits does not move).
-/

namespace InlineValues
namespace Json

/-! ## Leading digits -/

/-- Add digits to the number `n` while it stays below `2 ^ 64`: the number, and the digits that do
not fit. -/
def gatherDigits (n : Nat) : List Char → Nat × List Char
  | [] => (n, [])
  | c :: cs =>
    let next := n * 10 + digitsValue [c]
    if next < Nat.pow 2 64 then gatherDigits next cs else (n, c :: cs)

/-- A number as its leading digits and the power of ten that they are multiplied by. -/
structure Decimal where
  significand : Nat
  exponent : Int
  deriving DecidableEq, Repr

/-- The number that digits before and behind a point and a power of ten write.  Digits before the
point that do not fit keep their places, and those behind it are dropped. -/
def Decimal.ofDigits (whole fraction : List Char) (power : Int) : Decimal :=
  let (n, unread) := gatherDigits 0 whole
  let (n, dropped) := gatherDigits n fraction
  ⟨n, power + unread.length - (fraction.length - dropped.length : Nat)⟩

/-! ## Rounding to a double -/

/-- The distance between doubles, of 53 bits, at the size of a whole number.  It is one where they
are closer than whole numbers are. -/
def doubleSpacing (n : Nat) : Nat := Nat.pow 2 (n.log2 - 52)

/-- The double that is nearest to a whole number, the even one of two. -/
def roundDouble (n : Nat) : Nat :=
  let spacing := doubleSpacing n
  let steps := n / spacing
  let rest := n % spacing
  if 2 * rest < spacing || (2 * rest == spacing && steps % 2 == 0) then steps * spacing
  else (steps + 1) * spacing

theorem roundDouble_near (n : Nat) :
    2 * (roundDouble n - n) ≤ doubleSpacing n ∧ 2 * (n - roundDouble n) ≤ doubleSpacing n := by
  have hpos : 0 < doubleSpacing n := Nat.pow_pos (by decide)
  unfold roundDouble
  generalize doubleSpacing n = spacing at hpos
  have hsplit := Nat.div_add_mod' n spacing
  have hrest := Nat.mod_lt n hpos
  have hnext : (n / spacing + 1) * spacing = n / spacing * spacing + spacing := Nat.succ_mul _ _
  simp only [Bool.or_eq_true, Bool.and_eq_true, decide_eq_true_eq, beq_iff_eq, hnext]
  split <;> omega

theorem roundDouble_eq_self {n : Nat} (h : n < Nat.pow 2 53) : roundDouble n = n := by
  have hspacing : doubleSpacing n = 1 := by
    have hlog : n.log2 - 52 = 0 := by
      by_cases hn : n = 0
      · simp [hn]
      · have := (Nat.log2_lt hn).2 h
        omega
    simp [doubleSpacing, hlog]
  simp [roundDouble, hspacing, Nat.mod_one]

/-! ## The limit -/

/-- The largest power of ten that is below the limit of doubles. -/
def maxDoublePower : Int := 308

/-- Whether the double of a number is finite. -/
def Decimal.isFinite (d : Decimal) : Bool :=
  d.significand == 0 || d.exponent < 0 ||
    (d.exponent ≤ maxDoublePower &&
      roundDouble (roundDouble d.significand * roundDouble (Nat.pow 10 d.exponent.toNat)) <
        Nat.pow 2 1024)

end Json
end InlineValues

import InlineValues.Grammar.Expression
import Mathlib.Tactic.Lemma

/-!
# Operators and their operands

What it means for the tree of an operation to follow the precedences.  A form is loose if it binds
more loosely than every operator between two operands, and tight if nothing that binds more loosely
than a unary operator stands at its top.  Between the two are the operations, each with the operator
at its top (`Form.operator?`).

An operator joins two operands by the precedences (`TokenKind.Joins`) if neither is loose and the
operators in them are tight enough.  This is so if the right one was read at the precedence of the
operator, which does not continue what the left one ends with (`TokenKind.Joins.of_binds`).
-/

namespace InlineValues

/-! ## Forms and their operators -/

namespace Form

variable {α : Type}

/-- Two operands with an operator between them, or the first one alone. -/
def isBinary : Form α → Bool
  | .binary .. => true
  | _ => false

lemma exists_of_isBinary {f : Form α} (h : f.isBinary = true) :
    ∃ left operator right, f = .binary left operator right := by
  cases f
  case binary left operator right => exact ⟨left, operator, right, rfl⟩
  all_goals cases h

/-- The operator at the top of a form.  The words in front of a type count as well. -/
def operator? : Form α → Option TokenKind
  | .binary _ operator _ => some operator
  | .asExpression .. => some .asKeyword
  | .satisfies .. => some .satisfiesKeyword
  | _ => none

/-- Assignments, expressions with commas, conditional expressions, arrow functions and `yield`. -/
def isLoose : Form α → Bool
  | .binary _ operator _ => operator.isAssignmentOperator || operator == .comma
  | .conditional .. | .arrowFunction _ | .yield .. => true
  | _ => false

/-- The forms that an operator takes as operands whatever its precedence is. -/
def isTight (f : Form α) : Bool := !f.isLoose && f.operator?.isNone

/-- An operand that is read at a precedence: it is not loose, and an operator at its top continues
an operand at that precedence. -/
structure Binds (precedence : Nat) (f : Form α) : Prop where
  loose : f.isLoose = false
  operator : ∀ k, f.operator? = some k → k.continues precedence = true

lemma isTight_iff {f : Form α} :
    f.isTight = true ↔ f.isLoose = false ∧ f.operator? = none := by
  simp [isTight]

lemma isBinary_of_isTight {f : Form α} (h : f.isTight = true) : f.isBinary = false := by
  cases f
  case binary => cases (isTight_iff.mp h).2
  all_goals rfl

lemma Binds.of_isTight {f : Form α} (h : f.isTight = true) (precedence : Nat) :
    f.Binds precedence := by
  obtain ⟨hloose, hnone⟩ := isTight_iff.mp h
  refine ⟨hloose, fun k hk => ?_⟩
  rw [hnone] at hk
  cases hk

/-- A form with an operator at its top binds as the operator does. -/
lemma Binds.of_continues {f : Form α} {k : TokenKind} {precedence : Nat}
    (hoperator : f.operator? = some k) (hloose : f.isLoose = false)
    (h : k.continues precedence = true) : f.Binds precedence := by
  refine ⟨hloose, fun k' hk' => ?_⟩
  rw [hoperator] at hk'
  cases hk'
  exact h

end Form

/-! ## Operations -/

namespace TokenKind

lemma continues_iff {k : TokenKind} {precedence : Nat} :
    k.continues precedence = true ↔ 0 < k.precedence ∧
      (precedence < k.precedence ∨ (k = asteriskAsterisk ∧ precedence = k.precedence)) := by
  simp [continues]

/-- An operator between two operands neither assigns nor lists. -/
lemma not_loose_of_precedence {k : TokenKind} (h : 0 < k.precedence) :
    (k.isAssignmentOperator || k == .comma) = false := by
  revert h
  cases k <;> decide

/-- Only `**` is as tight as `**`. -/
theorem eq_asteriskAsterisk {k : TokenKind} (h : k.precedence = asteriskAsterisk.precedence) :
    k = asteriskAsterisk := by
  revert h
  cases k <;> decide

/-- The operands stand on their sides of an operator by the precedences.  Neither is loose.  An
operator at the top of the right operand is tighter, and so is that of the left operand or as tight,
if this is an operation with both of its operands.  For `**` the right one may be as tight and the
left one may not. -/
structure Joins (operator : TokenKind) (left : Node) (right : Option Node) : Prop where
  loose : ∀ operand ∈ left :: right.toList, operand.form.isLoose = false
  right : ∀ r k, right = some r → r.form.operator? = some k →
    if operator = asteriskAsterisk then operator.precedence ≤ k.precedence
    else operator.precedence < k.precedence
  left : ∀ l k r, left.form = .binary l k (some r) →
    if operator = asteriskAsterisk then operator.precedence < k.precedence
    else operator.precedence ≤ k.precedence

/-- An operator joins two operands if the right one was read at its precedence, and the left one
ends with an operand that it does not continue. -/
theorem Joins.of_binds {operator : TokenKind} {left : Node} {right : Option Node}
    (hpos : 0 < operator.precedence) (hloose : left.form.isLoose = false)
    (hright : ∀ r ∈ right, r.form.Binds operator.precedence)
    (hleft : ∀ l k r, left.form = .binary l k (some r) → operator.continues k.precedence = false) :
    operator.Joins left right := by
  constructor
  case loose =>
    intro operand hoperand
    rcases List.mem_cons.mp hoperand with rfl | hmem
    · exact hloose
    · exact (hright operand (Option.mem_toList.mp hmem)).loose
  case right =>
    intro r k hr hk
    have hbinds := (continues_iff.mp ((hright r hr).operator k hk)).2
    split
    case isTrue => omega
    case isFalse hne =>
      rcases hbinds with hlt | ⟨rfl, heq⟩
      · exact hlt
      · exact absurd (eq_asteriskAsterisk heq) hne
  case left =>
    intro l k r hform
    have hends : ¬ operator.continues k.precedence = true := by simp [hleft l k r hform]
    rw [continues_iff] at hends
    have hle : operator.precedence ≤ k.precedence :=
      Nat.le_of_not_lt fun hlt => hends ⟨hpos, .inl hlt⟩
    split
    case isTrue hpower =>
      exact Nat.lt_of_le_of_ne hle fun hsame => hends ⟨hpos, .inr ⟨hpower, hsame.symm⟩⟩
    case isFalse => exact hle

end TokenKind

/-- If the form is an operation with an operator between operands, these stand on their sides by the
precedences. -/
def Form.Graded (f : Form Node) : Prop :=
  ∀ left operator right, f = .binary left operator right → 0 < operator.precedence →
    operator.Joins left right

lemma Form.Graded.of_isBinary {f : Form Node} (h : f.isBinary = false) : f.Graded := by
  rintro left operator right rfl
  cases h

/-- Assignments and expressions with commas have no precedence to follow. -/
lemma Form.Graded.of_isLoose {f : Form Node} (h : f.isLoose = true) : f.Graded := by
  rintro left operator right rfl hpos
  have hloose : (operator.isAssignmentOperator || operator == .comma) = true := h
  rw [TokenKind.not_loose_of_precedence hpos] at hloose
  cases hloose

lemma Form.Graded.of_joins {operator : TokenKind} {left : Node} {right : Option Node}
    (h : operator.Joins left right) : (Form.binary left operator right).Graded := by
  intro left' operator' right' heq _
  cases heq
  exact h

end InlineValues

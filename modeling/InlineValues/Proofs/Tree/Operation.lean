import InlineValues.Proofs.Token.Operand
import InlineValues.Proofs.Tree.Layout
import InlineValues.Tree.Map
import Mathlib.Data.List.Forall2

/-!
# Trees of operators

`Node.IsOperation` holds of the expressions that are built from names, literals and parentheses by
operators in front of an operand, behind one and between two, and by conditional expressions.
`Node.IsEvaluable` holds of the evaluable ones, which may consist of accesses to members, calls and
lists besides, but not of numbers in front of a point.

`Node.levels` counts the guarded productions that the grammar opens at a time for such an
expression, and `Node.Alike` compares trees up to the places where they were read.
-/

namespace InlineValues

/-- The forms that expressions of operators are built from.  A name is none of the keywords. -/
def Form.isOperation {α : Type} : Form α → Bool
  | .identifier text => (TokenKind.ofWord? text).isNone
  | .token kind =>
    kind == .thisKeyword || kind == .nullKeyword || kind == .trueKeyword || kind == .falseKeyword
  | .literal kind _ =>
    kind == .numericLiteral || kind == .bigIntLiteral || kind == .stringLiteral
  | .parenthesized _ | .prefixUnary _ _ | .postfixUnary _ _ | .binary _ _ _
  | .conditional _ _ _ => true
  | _ => false

/-- An expression of operators. -/
def Node.IsOperation (n : Node) : Prop := ∀ m : Node, m.Within n → m.form.isOperation = true

lemma Node.IsOperation.form {n : Node} (h : n.IsOperation) : n.form.isOperation = true :=
  h n .refl

lemma Node.IsOperation.child {n c : Node} (h : n.IsOperation) (hc : c ∈ n.children) :
    c.IsOperation := fun m hm => h m (.child hc hm)

lemma Node.IsOperation.intro {n : Node} (hform : n.form.isOperation = true)
    (hchildren : ∀ c ∈ n.children, c.IsOperation) : n.IsOperation := by
  intro m hm
  cases hm with
  | refl => exact hform
  | child hc hm => exact hchildren _ hc m hm

/-! ## Accesses -/

/-- The parts of a form that are expressions of their own.  The name of a member is none. -/
def Form.operands {α : Type} : Form α → List α
  | .propertyAccess object _ _ => [object]
  | form => form.children

/-- Whether a form is a number. -/
def Form.isNumber {α : Type} : Form α → Bool
  | .literal kind _ => kind.isNumber
  | _ => false

/-- The forms that evaluable expressions are built from: operators, accesses, calls without type
arguments and lists.  No number stands in front of a point, which would be taken for a part of it,
and no comma behind the last argument of a call, which would not be printed. -/
def Form.isEvaluable : Form Node → Bool
  | .propertyAccess object optional (some _) => optional || !object.form.isNumber
  | .elementAccess _ _ (some _) | .arrayLiteral _ _ => true
  | .call _ _ none arguments => !arguments.trailingComma
  | form => form.isOperation

/-- An evaluable expression.  The name of a member may be any word. -/
inductive Node.IsEvaluable : Node → Prop
  | intro {n : Node} (form : n.form.isEvaluable = true)
      (operands : ∀ c ∈ n.form.operands, c.IsEvaluable) : n.IsEvaluable

lemma Node.IsEvaluable.form {n : Node} (h : n.IsEvaluable) : n.form.isEvaluable = true := by
  cases h with
  | intro form => exact form

lemma Node.IsEvaluable.operand {n c : Node} (h : n.IsEvaluable) (hc : c ∈ n.form.operands) :
    c.IsEvaluable := by
  cases h with
  | intro _ operands => exact operands c hc

lemma Form.isEvaluable_of_isOperation {form : Form Node} (h : form.isOperation = true) :
    form.isEvaluable = true ∧ form.operands = form.children := by
  cases form
  case propertyAccess | elementAccess | call | arrayLiteral => cases h
  all_goals exact ⟨h, rfl⟩

/-- An expression of operators is evaluable. -/
lemma Node.IsOperation.isEvaluable {n : Node} (h : n.IsOperation) : n.IsEvaluable := by
  obtain ⟨hform, hoperands⟩ := Form.isEvaluable_of_isOperation h.form
  refine .intro hform fun c hc => ?_
  have hchild : c ∈ n.children := by rwa [hoperands] at hc
  exact (h.child hchild).isEvaluable
termination_by sizeOf n
decreasing_by exact Node.sizeOf_lt_of_mem_children hchild

/-- A node that is no evaluable expression. -/
def Node.IsForeign (n : Node) : Prop := ¬ n.IsEvaluable

lemma Node.IsForeign.of_form {n : Node} (h : n.form.isEvaluable = false) : n.IsForeign := by
  intro hevaluable
  have hform := hevaluable.form
  rw [h] at hform
  cases hform

/-! ## Levels -/

mutual

/-- How many guarded productions are open at a time while an evaluable expression is read: two for
an operand, one more inside of every sign and every right side of an assignment, and two more inside
of parentheses and brackets. -/
def Node.levels : Node → Nat
  | ⟨_, _, .parenthesized (some e)⟩ => e.levels + 2
  | ⟨_, _, .propertyAccess object _ _⟩ => object.levels
  | ⟨_, _, .elementAccess object _ (some index)⟩ => max object.levels (index.levels + 2)
  | ⟨_, _, .call callee _ _ ⟨arguments, _, _, _⟩⟩ => max callee.levels (Node.levelsWithin arguments)
  | ⟨_, _, .arrayLiteral ⟨elements, _, _, _⟩ _⟩ => Node.levelsWithin elements
  | ⟨_, _, .prefixUnary k (some e)⟩ =>
    if k == .plusPlus || k == .minusMinus then e.levels else e.levels + 1
  | ⟨_, _, .postfixUnary e _⟩ => e.levels
  | ⟨_, _, .binary l k (some r)⟩ =>
    max l.levels (if k.isAssignmentOperator then r.levels + 1 else r.levels)
  | ⟨_, _, .conditional e (some a) (some b)⟩ => max e.levels (max a.levels b.levels + 1)
  | _ => 2

/-- The guarded productions of a list in brackets, which has two at least. -/
def Node.levelsWithin : List Node → Nat
  | [] => 2
  | e :: es => max (e.levels + 2) (Node.levelsWithin es)

end

namespace Node

variable {n e l r a b : Node} {k : TokenKind}

lemma levelsWithin_nil : levelsWithin [] = 2 := rfl

lemma levelsWithin_cons (e : Node) (es : List Node) :
    levelsWithin (e :: es) = max (e.levels + 2) (levelsWithin es) := rfl

lemma two_le_levelsWithin (es : List Node) : 2 ≤ levelsWithin es := by
  cases es with
  | nil => exact Nat.le_refl 2
  | cons e es =>
    rw [levelsWithin_cons]
    omega

lemma levels_le_levelsWithin {es : List Node} (h : e ∈ es) : e.levels + 2 ≤ levelsWithin es := by
  induction es with
  | nil => cases h
  | cons e' es ih =>
    rw [levelsWithin_cons]
    rcases List.mem_cons.mp h with rfl | h
    · omega
    · have := ih h
      omega

lemma levelsWithin_le {es : List Node} {m : Nat} (h : ∀ e ∈ es, e.levels + 2 ≤ m) (hm : 2 ≤ m) :
    levelsWithin es ≤ m := by
  induction es with
  | nil => rwa [levelsWithin_nil]
  | cons e es ih =>
    obtain ⟨he, hothers⟩ := List.forall_mem_cons.mp h
    rw [levelsWithin_cons]
    exact Nat.max_le.mpr ⟨he, ih hothers⟩

lemma two_le_levels (n : Node) : 2 ≤ n.levels := by
  -- Of a list it is known anyway.
  apply levels.induct (fun n => 2 ≤ n.levels) fun _ => True
  all_goals intros
  all_goals first
    | trivial
    | rw [levels] <;> first | assumption | omega | exact two_le_levelsWithin _ | split <;> omega

lemma levels_parenthesized (h : n.form = .parenthesized (some e)) :
    n.levels = e.levels + 2 := by
  obtain ⟨_, _, form⟩ := n
  cases h
  rfl

lemma levels_propertyAccess {object : Node} {optional : Bool} {name : Option Node}
    (h : n.form = .propertyAccess object optional name) : n.levels = object.levels := by
  obtain ⟨_, _, form⟩ := n
  cases h
  rfl

lemma levels_elementAccess {object index : Node} {optional : Bool}
    (h : n.form = .elementAccess object optional (some index)) :
    n.levels = max object.levels (index.levels + 2) := by
  obtain ⟨_, _, form⟩ := n
  cases h
  rfl

lemma levels_call {callee : Node} {optional : Bool} {typeArguments : Option (Sequence Node)}
    {arguments : Sequence Node} (h : n.form = .call callee optional typeArguments arguments) :
    n.levels = max callee.levels (levelsWithin arguments.items) := by
  obtain ⟨_, _, form⟩ := n
  cases h
  rfl

lemma levels_arrayLiteral {elements : Sequence Node} {multiLine : Bool}
    (h : n.form = .arrayLiteral elements multiLine) : n.levels = levelsWithin elements.items := by
  obtain ⟨_, _, form⟩ := n
  cases h
  rfl

lemma levels_prefixUnary (h : n.form = .prefixUnary k (some e)) :
    n.levels = if k == .plusPlus || k == .minusMinus then e.levels else e.levels + 1 := by
  obtain ⟨_, _, form⟩ := n
  cases h
  rfl

lemma levels_postfixUnary (h : n.form = .postfixUnary e k) : n.levels = e.levels := by
  obtain ⟨_, _, form⟩ := n
  cases h
  rfl

lemma levels_binary (h : n.form = .binary l k (some r)) :
    n.levels = max l.levels (if k.isAssignmentOperator then r.levels + 1 else r.levels) := by
  obtain ⟨_, _, form⟩ := n
  cases h
  rfl

lemma levels_conditional (h : n.form = .conditional e (some a) (some b)) :
    n.levels = max e.levels (max a.levels b.levels + 1) := by
  obtain ⟨_, _, form⟩ := n
  cases h
  rfl

end Node

/-! ## Trees that are alike -/

/-- A list without its place. -/
def Sequence.unplaced {α : Type} (s : Sequence α) : Sequence α := { s with pos := 0, stop := 0 }

/-- What a form is apart from its parts.  The arguments of a call and the elements of an array may
stand anywhere, on one line or on several; of every other form all that it holds counts. -/
def Form.shape {α : Type} (form : Form α) : Form Unit :=
  match form.map fun _ => () with
  | .call callee optional typeArguments arguments =>
    .call callee optional typeArguments arguments.unplaced
  | .arrayLiteral elements _ => .arrayLiteral elements.unplaced false
  | form => form

/-- Two trees that differ at most in the places of their nodes and lists. -/
inductive Node.Alike : Node → Node → Prop
  | intro {n n' : Node} (form : n.form.shape = n'.form.shape)
      (children : List.Forall₂ Node.Alike n.children n'.children) : Node.Alike n n'

namespace Node.Alike

variable {n n' : Node}

lemma form (h : n.Alike n') : n.form.shape = n'.form.shape := by
  cases h with
  | intro form => exact form

lemma children (h : n.Alike n') : List.Forall₂ Node.Alike n.children n'.children := by
  cases h with
  | intro _ children => exact children

/-- Leaves are alike if they have the same form. -/
lemma of_leaf (hform : n'.form = n.form) (hchildren : n.form.children = []) : n.Alike n' := by
  refine .intro (by rw [hform]) ?_
  rw [show n.children = [] from hchildren, show n'.children = [] by
    rw [Node.children, hform]
    exact hchildren]
  exact .nil

end Node.Alike

/-- Two lists that differ at most in places. -/
structure Sequence.Alike (q q' : Sequence Node) : Prop where
  items : List.Forall₂ Node.Alike q.items q'.items
  trailingComma : q.trailingComma = q'.trailingComma

namespace Sequence.Alike

variable {q q' : Sequence Node}

lemma unplaced_eq (h : q.Alike q') :
    (q.map fun _ => ()).unplaced = (q'.map fun _ => ()).unplaced := by
  obtain ⟨items, _, _, trailing⟩ := q
  obtain ⟨items', _, _, trailing'⟩ := q'
  obtain ⟨hitems, rfl⟩ := h
  have hlength : items.map (fun _ => ()) = items'.map fun _ => () := by
    rw [List.map_const', List.map_const', hitems.length_eq]
  simp only [Sequence.map, Sequence.unplaced, hlength]

/-- Calls of callees that are alike, with arguments that are alike. -/
lemma call (h : q.Alike q') {n callee callee' : Node} {optional : Bool}
    (hform : n.form = .call callee optional none q) (halike : callee.Alike callee')
    (origin : Origin) (stop : Nat) :
    n.Alike ⟨origin, stop, .call callee' optional none q'⟩ := by
  refine .intro ?_ ?_
  · rw [hform]
    exact congrArg (Form.call () optional none) h.unplaced_eq
  · rw [Node.children, hform]
    exact .cons halike h.items

lemma arrayLiteral (h : q.Alike q') {n : Node} {multiLine : Bool}
    (hform : n.form = .arrayLiteral q multiLine) (origin : Origin) (stop : Nat)
    (multiLine' : Bool) : n.Alike ⟨origin, stop, .arrayLiteral q' multiLine'⟩ := by
  refine .intro ?_ ?_
  · rw [hform]
    exact congrArg (Form.arrayLiteral · false) h.unplaced_eq
  · rw [Node.children, hform]
    exact h.items

end Sequence.Alike

end InlineValues

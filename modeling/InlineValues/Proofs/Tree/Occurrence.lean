import InlineValues.Proofs.Tree.Layout

/-!
# Ranges tell nodes apart

Functions, classes, loops, branches and blocks are known by their kind and their range
(`Node.LaidOut.eq_of_range`).  Two of them side by side share no text.  One inside the other cannot
have the same range, since the outer one has a token of its own, or is a block and starts earlier.
A decorator that fills a class has a token of its own as well, so that it does not help.

A node that is not empty has one way up to the root: what stands around it inside a node stands
around it inside one child (`Node.LaidOut.within_child`).
-/

namespace InlineValues

/-! ## Nodes are smaller than what is around them -/

lemma Node.Within.sizeOf_le {m n : Node} (h : m.Within n) : sizeOf m ≤ sizeOf n := by
  induction h with
  | refl => exact Nat.le_refl _
  | child hc _ ih =>
    have := Node.sizeOf_lt_of_mem_children hc
    omega

lemma Node.Below.sizeOf_lt {m n : Node} (h : m.Below n) : sizeOf m < sizeOf n := by
  obtain ⟨c, hc, hm⟩ := h
  have := Node.sizeOf_lt_of_mem_children hc
  have := hm.sizeOf_le
  omega

/-- No node stands both inside another one and around it. -/
lemma Node.Below.not_within {m n : Node} (h : m.Below n) : ¬n.Within m := by
  intro hn
  have := h.sizeOf_lt
  have := hn.sizeOf_le
  omega

/-! ## Kinds of nodes with a token of their own -/

/-- The kinds of the forms with a token of their own. -/
def NodeKind.ownsToken : NodeKind → Bool
  | .functionDeclaration | .functionExpression | .arrowFunction | .classDeclaration
  | .classExpression | .ifStatement | .doStatement | .whileStatement | .forStatement
  | .forInStatement | .forOfStatement | .switchStatement | .catchClause | .decorator => true
  | _ => false

/-- Whether a form has a token of its own can be told from its kind. -/
lemma Form.ownsToken_eq (f : Form Node) : f.ownsToken = match f.kind with
    | .node kind => kind.ownsToken
    | .token _ => false := by
  cases f
  case keywordUnary operator operand => cases operator <;> rfl
  all_goals rfl

lemma Form.isBlock_eq (f : Form Node) : f.isBlock = (f.kind == .node .block) := by
  cases f
  case keywordUnary operator operand => cases operator <;> rfl
  all_goals rfl

/-- The forms that are known by their kind and their range. -/
def Form.isGate (f : Form Node) : Bool :=
  f.isBlock || (f.ownsToken && f.kind != .node .decorator)

lemma Form.isGate_of_kind {f g : Form Node} (h : f.kind = g.kind) : f.isGate = g.isGate := by
  simp only [isGate, isBlock_eq, ownsToken_eq, h]

namespace Node.LaidOut

variable {s : Source} {m n root : Node}

/-- What fills a decorator is a decorator. -/
lemma decorator_of_range (h : n.LaidOut s) (hdecorator : ∃ inner, n.form = .decorator inner)
    (hm : m.Within n) (hpos : m.pos = n.pos) (hstop : m.stop = n.stop) :
    ∃ inner, m.form = .decorator inner := by
  induction hm with
  | refl => exact hdecorator
  | @child c n hc hm ih =>
    obtain ⟨inner, hinner⟩ := hdecorator
    have hchild := h.placed.children.of_mem hc
    have hrange := (h.child hc).range_within hm
    have hown := h.placed.solid.own (by rw [hinner]; rfl)
    refine ih (h.child hc) (hown.2 c hc ?_ ?_) ?_ ?_
    all_goals omega

/-- No such node has another one of its kind and its range inside. -/
lemma not_below_of_range (h : n.LaidOut s) (hgate : n.form.isGate = true) (hm : m.Below n)
    (hkind : m.kind = n.kind) (hpos : m.pos = n.pos) (hstop : m.stop = n.stop) : False := by
  simp only [Form.isGate, Bool.or_eq_true, Bool.and_eq_true] at hgate
  rcases hgate with hblock | ⟨hown, hne⟩
  · have hblock' : m.form.isBlock = true := by
      rw [Form.isBlock_eq] at hblock ⊢
      rwa [← Node.kind, hkind]
    have := h.placed.solid.block hblock m hm hblock'
    omega
  · obtain ⟨c, hc, hm⟩ := hm
    have hchild := h.placed.children.of_mem hc
    have hrange := (h.child hc).range_within hm
    have hdecorator := (h.placed.solid.own hown).2 c hc (by omega) (by omega)
    obtain ⟨inner, hinner⟩ := (h.child hc).decorator_of_range hdecorator hm (by omega) (by omega)
    rw [← Node.kind, ← hkind, Node.kind, hinner] at hne
    simp [Form.kind] at hne

/-- Nodes that are known by their kind and their range. -/
theorem eq_of_range (h : root.LaidOut s) (hm : m.Within root) (hn : n.Within root)
    (hgate : n.form.isGate = true) (hkind : m.kind = n.kind) (hpos : m.pos = n.pos)
    (hstop : m.stop = n.stop) (hlt : n.pos < n.stop) : m = n := by
  induction hm with
  | refl =>
    rcases hn.eq_or_below with rfl | hn
    · rfl
    · have hgate' : m.form.isGate = true := by rwa [Form.isGate_of_kind hkind]
      exact (h.not_below_of_range hgate' hn hkind.symm hpos.symm hstop.symm).elim
  | @child c root hc hm ih =>
    rcases hn.eq_or_below with rfl | ⟨d, hd, hn⟩
    · exact (h.not_below_of_range hgate ⟨c, hc, hm⟩ hkind hpos hstop).elim
    · have hcrange := (h.child hc).range_within hm
      have hdrange := (h.child hd).range_within hn
      have hcd : c = d :=
        h.placed.children.eq_of_shared hc hd (p := n.pos) (by omega) (by omega)
      subst hcd
      exact ih (h.child hc) hn

/-- What stands around a node inside `n` stands around it inside the child that the node is in. -/
theorem within_child {a c : Node} (h : n.LaidOut s) (hc : c ∈ n.children) (hm : m.Within c)
    (hlt : m.pos < m.stop) (ha : a.Within n) (hma : m.Below a) : a = n ∨ a.Within c := by
  rcases ha.eq_or_below with rfl | ⟨d, hd, ha⟩
  · exact .inl rfl
  · have hcrange := (h.child hc).range_within hm
    have hdrange := (h.child hd).range_within (hma.within.trans ha)
    have hcd : c = d :=
      h.placed.children.eq_of_shared hc hd (p := m.pos) (by omega) (by omega)
    subst hcd
    exact .inr ha

end Node.LaidOut

end InlineValues

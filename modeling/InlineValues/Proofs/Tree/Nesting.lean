import InlineValues.Proofs.Tree.Layout
import Mathlib.Data.List.Chain

/-!
# How deep nodes are nested

A way down a tree is a chain of nodes, each a child of the one before it (`Node.ChainFrom`).  The
nodes of one sort on such a way are counted here.

Between a bracket and the next one inside it, and between a sign and the next one behind it, the
grammar opens a guarded level.  `Node.Shallow` bounds both.  A node of any other form is as shallow
as its children are (`Node.Shallow.of_children`), and a bracket or a sign adds one to its own bound.
-/

namespace InlineValues

/-! ## Chains of nodes -/

/-- Nodes that lead down from `n`, each a child of the one before it. -/
def Node.ChainFrom (n : Node) (chain : List Node) : Prop :=
  chain.head? = some n ∧ chain.IsChain fun outer inner => inner ∈ outer.children

lemma Node.ChainFrom.cons {n m : Node} {chain : List Node} (hm : m ∈ n.children)
    (h : m.ChainFrom chain) : n.ChainFrom (n :: chain) := by
  obtain ⟨hhead, hchain⟩ := h
  obtain ⟨rest, rfl⟩ := List.head?_eq_some_iff.mp hhead
  exact ⟨rfl, .cons_cons hm hchain⟩

/-- A chain ends with the node, or goes on from one of its children. -/
lemma Node.ChainFrom.cases {n : Node} {chain : List Node} (h : n.ChainFrom chain) :
    chain = [n] ∨ ∃ m ∈ n.children, ∃ rest, chain = n :: rest ∧ m.ChainFrom rest := by
  obtain ⟨hhead, hchain⟩ := h
  obtain ⟨rest, rfl⟩ := List.head?_eq_some_iff.mp hhead
  cases rest with
  | nil => exact .inl rfl
  | cons m rest =>
    rw [List.isChain_cons_cons] at hchain
    exact .inr ⟨m, hchain.1, m :: rest, rfl, rfl, hchain.2⟩

/-- A chain from inside a node can be led up to the node. -/
lemma Node.Within.exists_chain {m n : Node} {chain : List Node} (h : m.Within n)
    (hchain : m.ChainFrom chain) : ∃ longer, n.ChainFrom longer ∧ chain.length ≤ longer.length := by
  induction h with
  | refl => exact ⟨chain, hchain, Nat.le_refl _⟩
  | child hc _ ih =>
    obtain ⟨longer, hlonger, hle⟩ := ih
    exact ⟨_, hlonger.cons hc, Nat.le_succ_of_le hle⟩

/-! ## Counting nodes on a chain -/

/-- No chain from the node holds more than `bound` nodes that pass a test. -/
def Node.AtMost (test : Node → Bool) (bound : Nat) (n : Node) : Prop :=
  ∀ chain, n.ChainFrom chain → chain.countP test ≤ bound

namespace Node.AtMost

variable {test : Node → Bool} {bound : Nat} {n : Node}

lemma mono {bound' : Nat} (h : n.AtMost test bound) (hle : bound ≤ bound') :
    n.AtMost test bound' := fun chain hchain => Nat.le_trans (h chain hchain) hle

/-- A node adds nothing if it does not pass the test. -/
theorem of_children (htest : test n = false) (h : ∀ c ∈ n.children, c.AtMost test bound) :
    n.AtMost test bound := by
  intro chain hchain
  rcases hchain.cases with rfl | ⟨m, hm, rest, rfl, hrest⟩
  · simp [htest]
  · rw [List.countP_cons_of_neg (by simp [htest])]
    exact h m hm rest hrest

/-- A node adds one at most. -/
lemma succ (h : ∀ c ∈ n.children, c.AtMost test bound) : n.AtMost test (bound + 1) := by
  intro chain hchain
  rcases hchain.cases with rfl | ⟨m, hm, rest, rfl, hrest⟩
  · exact Nat.le_trans List.countP_le_length (by simp)
  · have hcount := h m hm rest hrest
    rw [List.countP_cons]
    split <;> omega

end Node.AtMost

/-! ## Brackets and signs -/

/-- The kinds of nodes whose next level stands behind a guard: expressions and types in parentheses,
arrays and blocks. -/
def NodeKind.isBracket : NodeKind → Bool
  | parenthesizedExpression | arrayLiteralExpression | parenthesizedType | block => true
  | _ => false

/-- Whether a node is a bracket. -/
def Node.isBracket (n : Node) : Bool :=
  match n.kind with
  | .node kind => kind.isBracket
  | .token _ => false

/-- Whether a node is an operand with a sign in front of it. -/
def Node.isSign (n : Node) : Bool := n.is .prefixUnaryExpression

/-- Forms that are neither a bracket nor a sign. -/
def Form.isOpen (f : Form Node) : Bool :=
  match f.kind with
  | .node kind => !kind.isBracket && kind != .prefixUnaryExpression
  | .token _ => true

/-- On no way down from the node stand more than `brackets` brackets, or more than `signs` signs. -/
structure Node.Shallow (brackets signs : Nat) (n : Node) : Prop where
  bracket : n.AtMost isBracket brackets
  sign : n.AtMost isSign signs

namespace Node.Shallow

variable {brackets signs : Nat} {n : Node}

lemma mono {brackets' signs' : Nat} (h : n.Shallow brackets signs) (hle : brackets ≤ brackets')
    (hle' : signs ≤ signs') : n.Shallow brackets' signs' := ⟨h.bracket.mono hle, h.sign.mono hle'⟩

/-- A node of an open form is as shallow as its children are. -/
theorem of_children (hopen : n.form.isOpen = true)
    (h : ∀ c ∈ n.children, c.Shallow brackets signs) : n.Shallow brackets signs := by
  have hplain : n.isBracket = false ∧ n.isSign = false := by
    rw [Form.isOpen] at hopen
    rw [isBracket, isSign, is, kind]
    split at hopen
    case h_1 k hkind => simpa [hkind] using hopen
    case h_2 k hkind => simp [hkind]
  exact ⟨.of_children hplain.1 fun c hc => (h c hc).bracket,
    .of_children hplain.2 fun c hc => (h c hc).sign⟩

/-- A bracket adds one bracket. -/
lemma of_bracket (hbracket : n.isSign = false) (h : ∀ c ∈ n.children, c.Shallow brackets signs) :
    n.Shallow (brackets + 1) signs :=
  ⟨.succ fun c hc => (h c hc).bracket, .of_children hbracket fun c hc => (h c hc).sign⟩

/-- A sign adds one sign. -/
lemma of_sign (hsign : n.isBracket = false) (h : ∀ c ∈ n.children, c.Shallow brackets signs) :
    n.Shallow brackets (signs + 1) :=
  ⟨.of_children hsign fun c hc => (h c hc).bracket, .succ fun c hc => (h c hc).sign⟩

end Node.Shallow

end InlineValues

import InlineValues.Proofs.Token.Lexer
import InlineValues.Proofs.Tree.Precedence

/-!
# How a tree lies on its text

`Fits` says that nodes follow each other inside a range, and `Node.LaidOut` that in a whole tree the
children of every node do so inside the range of the node.  Besides its range a laid out node has
`Node.Solid`: what the grammar spends of its own on certain forms (`Gap`).  A loop has its keyword
and a function its parentheses, so that no child fills the whole range of such a node; what can be
shown as a value is `Node.Proper`, that is never empty, and a name there is the text that it stands
on; inside a block every other block starts later; and an operator joins its operands by the
precedences (`Form.Graded`).  A leaf that is no name stands on a token of its kind
(`Node.StandsOn`).

Ranges then tell nodes apart: two children that share an offset are the same one
(`Fits.eq_of_shared`), and what is inside a node lies inside its range
(`Node.LaidOut.range_within`).
-/

namespace InlineValues

/-! ## Below a node -/

/-- The node `m` is `n` or stands somewhere inside it. -/
inductive Node.Within (m : Node) : Node → Prop
  | refl : Within m m
  | child {c n : Node} : c ∈ n.children → Within m c → Within m n

/-- The node `m` stands inside `n` and is not `n` itself. -/
def Node.Below (m n : Node) : Prop := ∃ c ∈ n.children, m.Within c

lemma Node.Below.within {m n : Node} (h : m.Below n) : m.Within n := by
  obtain ⟨c, hc, hm⟩ := h
  exact .child hc hm

lemma Node.Within.trans {a b c : Node} (h : a.Within b) (h' : b.Within c) : a.Within c := by
  induction h' with
  | refl => exact h
  | child hc _ ih => exact .child hc ih

lemma Node.Within.eq_or_below {m n : Node} (h : m.Within n) : m = n ∨ m.Below n := by
  cases h with
  | refl => exact .inl rfl
  | child hc hm => exact .inr ⟨_, hc, hm⟩

/-! ## Shared parts -/

lemma forall_mem_toList {o : Option Node} {P : Node → Prop} (h : ∀ n ∈ o, P n) :
    ∀ n ∈ o.toList, P n := fun n hn => h n (Option.mem_toList.mp hn)

/-- A function with the parts of a signature. -/
lemma FunctionParts.children_ofSignature {modifiers : Option (Sequence Node)}
    {isAsync isGenerator : Bool} {name body : Option Node} {signature : SignatureParts Node} :
    FunctionParts.children
        { modifiers, isAsync, isGenerator, name, body
          typeParameters := signature.typeParameters
          parameters := signature.parameters
          returnType := signature.returnType } =
      itemsOf modifiers ++ name.toList ++ signature.children ++ body.toList := by
  simp [FunctionParts.children, SignatureParts.children]

/-! ## Nodes in a row -/

/-- The nodes follow each other in `[start, stop]`. -/
def Fits : (start stop : Nat) → List Node → Prop
  | start, stop, [] => start ≤ stop
  | start, stop, n :: ns => start ≤ n.pos ∧ n.pos ≤ n.stop ∧ Fits n.stop stop ns

namespace Fits

variable {a b c d : Nat} {xs ys : List Node}

lemma le (h : Fits a b xs) : a ≤ b := by
  induction xs generalizing a with
  | nil => exact h
  | cons n xs ih =>
    obtain ⟨hpos, hstop, hrest⟩ := h
    have := ih hrest
    omega

lemma append (h : Fits a b xs) (h' : Fits b c ys) : Fits a c (xs ++ ys) := by
  induction xs generalizing a with
  | nil =>
    cases ys with
    | nil => exact Nat.le_trans h h'
    | cons n ys => exact ⟨Nat.le_trans h h'.1, h'.2⟩
  | cons n xs ih =>
    obtain ⟨hpos, hstop, hrest⟩ := h
    exact ⟨hpos, hstop, ih hrest⟩

lemma mono_left (hab : a ≤ b) (h : Fits b c xs) : Fits a c xs := by
  have hnil : Fits a b [] := hab
  exact hnil.append h

/-- A row that is made of two has a place between them. -/
lemma split (h : Fits a c (xs ++ ys)) : ∃ b, Fits a b xs ∧ Fits b c ys := by
  induction xs generalizing a with
  | nil => exact ⟨a, Nat.le_refl a, h⟩
  | cons n xs ih =>
    obtain ⟨hpos, hstop, hrest⟩ := h
    obtain ⟨b, hxs, hys⟩ := ih hrest
    exact ⟨b, ⟨hpos, hstop, hxs⟩, hys⟩

/-- Nodes may be left out of a row. -/
lemma sublist (hsub : ys.Sublist xs) (h : Fits a b xs) : Fits a b ys := by
  induction hsub generalizing a with
  | slnil => exact h
  | cons x _ ih =>
    obtain ⟨hpos, hstop, hrest⟩ := h
    exact ih (hrest.mono_left (Nat.le_trans hpos hstop))
  | cons_cons x _ ih =>
    obtain ⟨hpos, hstop, hrest⟩ := h
    exact ⟨hpos, hstop, ih hrest⟩

lemma of_mem {n : Node} (h : Fits a b xs) (hn : n ∈ xs) :
    a ≤ n.pos ∧ n.pos ≤ n.stop ∧ n.stop ≤ b := by
  induction xs generalizing a with
  | nil => simp at hn
  | cons m xs ih =>
    obtain ⟨hpos, hstop, hrest⟩ := h
    have hle := hrest.le
    rcases List.mem_cons.mp hn with rfl | hn
    · exact ⟨hpos, hstop, hle⟩
    · have := ih hrest hn
      omega

lemma pairwise (h : Fits a b xs) : xs.Pairwise fun m n => m.stop ≤ n.pos := by
  induction xs generalizing a with
  | nil => exact .nil
  | cons m xs ih =>
    obtain ⟨-, -, hrest⟩ := h
    exact .cons (fun n hn => (hrest.of_mem hn).1) (ih hrest)

/-- Two nodes of a row that share the text behind an offset are the same one. -/
theorem eq_of_shared {m n : Node} {p : Nat} (h : Fits a b xs) (hm : m ∈ xs) (hn : n ∈ xs)
    (hmp : m.pos ≤ p ∧ p < m.stop) (hnp : n.pos ≤ p ∧ p < n.stop) : m = n := by
  induction xs generalizing a with
  | nil => simp at hm
  | cons x xs ih =>
    obtain ⟨-, -, hrest⟩ := h
    rcases List.mem_cons.mp hm with rfl | hm' <;> rcases List.mem_cons.mp hn with rfl | hn'
    · rfl
    · have := hrest.of_mem hn'
      omega
    · have := hrest.of_mem hm'
      omega
    · exact ih hrest hm' hn'

end Fits

/-- The nodes follow each other in `[start, stop]`, and some text is left over in front of them,
between two of them or behind them. -/
def Gap (start stop : Nat) (ns : List Node) : Prop :=
  ∃ xs ys p q, xs ++ ys = ns ∧ Fits start p xs ∧ p < q ∧ Fits q stop ys

namespace Gap

variable {a b c : Nat} {xs ys : List Node}

lemma lt (h : Gap a b xs) : a < b := by
  obtain ⟨_, _, _, _, -, hxs, hpq, hys⟩ := h
  exact Nat.lt_of_le_of_lt hxs.le (Nat.lt_of_lt_of_le hpq hys.le)

lemma append_fits (h : Gap a b xs) (h' : Fits b c ys) : Gap a c (xs ++ ys) := by
  obtain ⟨us, vs, p, q, rfl, hus, hpq, hvs⟩ := h
  exact ⟨us, vs ++ ys, p, q, (List.append_assoc ..).symm, hus, hpq, hvs.append h'⟩

lemma append_of_fits (h : Fits a b xs) (h' : Gap b c ys) :
    Gap a c (xs ++ ys) := by
  obtain ⟨us, vs, p, q, rfl, hus, hpq, hvs⟩ := h'
  exact ⟨xs ++ us, vs, p, q, List.append_assoc .., h.append hus, hpq, hvs⟩

/-- Where some text is left over no node fills the whole range. -/
lemma ne_stop {n : Node} (h : Gap a b xs) (hn : n ∈ xs) (hpos : n.pos = a) : n.stop ≠ b := by
  obtain ⟨us, vs, p, q, rfl, hus, hpq, hvs⟩ := h
  have := hus.le
  have := hvs.le
  rcases List.mem_append.mp hn with hn | hn
  · have := hus.of_mem hn
    omega
  · have := hvs.of_mem hn
    omega

end Gap

/-! ## Names -/

/-- A token that is no name holds none. -/
lemma Form.name?_eq_none_of_token {form : Form Node} {kind : TokenKind}
    (h : form.kind = .token kind) (hname : kind.isName = false) : form.name? = none := by
  cases form
  case identifier | privateIdentifier =>
    cases h
    cases hname
  all_goals rfl

/-- If the node holds a name, that is the text of its first token, in which no line ends. -/
def Node.Spelled (s : Source) (n : Node) : Prop :=
  ∀ text, n.form.name? = some text → text = s.slice (n.start s) n.stop ∧ OneLine text

/-- A node that can be shown as a value: it is not empty, and a name is the text that it stands
on. -/
structure Node.Proper (s : Source) (n : Node) : Prop where
  lt : n.pos < n.stop
  spelled : n.Spelled s

lemma Node.Spelled.of_name?_eq_none {s : Source} {n : Node} (h : n.form.name? = none) :
    n.Spelled s := fun text htext => by rw [h] at htext; cases htext

/-- Every name in the tree is one of some names, or no line ends in it. -/
def Node.Named (known : Array (List Char)) (n : Node) : Prop :=
  ∀ m : Node, m.Within n → ∀ text, m.form.name? = some text → OneLine text ∨ text ∈ known

lemma Node.Named.of_children {known : Array (List Char)} {n : Node}
    (h : ∀ text, n.form.name? = some text → OneLine text ∨ text ∈ known)
    (hc : ∀ c ∈ n.children, c.Named known) : n.Named known := by
  intro m hm
  cases hm with
  | refl => exact h
  | child hmem hm => exact hc _ hmem m hm

/-! ## What the grammar spends on a form -/

/-- The forms with a token of their own, which is part of no child. -/
def Form.ownsToken {α : Type} : Form α → Bool
  | .functionDeclaration _ | .functionExpression _ | .arrowFunction _ | .classDeclaration _
  | .classExpression _ | .ifStatement .. | .doStatement .. | .whileStatement .. | .forStatement ..
  | .forInStatement .. | .forOfStatement .. | .switchStatement .. | .catchClause ..
  | .decorator _ => true
  | _ => false

/-- A list of statements in braces. -/
def Form.isBlock {α : Type} : Form α → Bool
  | .block .. => true
  | _ => false

/-- The parts of a form that are shown as a whole: names and changed operands, which are looked up,
and expressions that are evaluated. -/
def Form.evaluated {α : Type} : Form α → List α
  | .ifStatement condition _ _ | .whileStatement condition _ | .doStatement _ condition
  | .switchStatement condition _ | .caseClause condition _ => condition.toList
  | .forInStatement initializer expression _ | .forOfStatement _ initializer expression _ =>
    initializer.toList ++ expression.toList
  | .forStatement initializer condition incrementor _ =>
    initializer.toList ++ condition.toList ++ incrementor.toList
  | .propertyAssignment _ initializer => initializer.toList
  | .shorthandPropertyAssignment name _ => [name]
  | .variableDeclaration name _ _ _ | .bindingElement _ _ name _ => name.toList
  | .parameter parts => parts.name.toList
  | .functionDeclaration parts => parts.name.toList
  | .classDeclaration parts => parts.name.toList
  | .binary left _ _ => [left]
  | .prefixUnary .plusPlus operand | .prefixUnary .minusMinus operand => operand.toList
  | .postfixUnary operand _ => [operand]
  | _ => []

/-- Those of them that may be shown as expressions: conditions, values of properties, what stands in
the head of a loop, and what is assigned to. -/
def Form.shown {α : Type} : Form α → List α
  | .ifStatement condition _ _ | .whileStatement condition _ | .doStatement _ condition
  | .switchStatement condition _ | .caseClause condition _ => condition.toList
  | .forInStatement initializer expression _ | .forOfStatement _ initializer expression _ =>
    initializer.toList ++ expression.toList
  | .forStatement initializer condition incrementor _ =>
    initializer.toList ++ condition.toList ++ incrementor.toList
  | .propertyAssignment _ initializer => initializer.toList
  | .shorthandPropertyAssignment name _ => [name]
  | .binary left operator _ => if operator.isAssignmentOperator then [left] else []
  | .prefixUnary .plusPlus operand | .prefixUnary .minusMinus operand => operand.toList
  | .postfixUnary operand _ => [operand]
  | _ => []

lemma Form.shown_subset_evaluated {α : Type} (f : Form α) : f.shown ⊆ f.evaluated := by
  cases f
  case ifStatement | whileStatement | doStatement | switchStatement | caseClause | forInStatement
    | forOfStatement | forStatement | propertyAssignment | shorthandPropertyAssignment
    | postfixUnary =>
    exact fun _ => id
  case binary left operator right =>
    rw [shown]
    split
    · exact fun _ => id
    · exact List.nil_subset _
  case prefixUnary operator operand =>
    cases operator
    case plusPlus | minusMinus => exact fun _ => id
    all_goals exact List.nil_subset _
  all_goals exact List.nil_subset _

lemma Form.shown_eq_nil {α : Type} {f : Form α} (h : f.evaluated = []) : f.shown = [] :=
  List.eq_nil_of_subset_nil (h ▸ f.shown_subset_evaluated)

lemma Form.shown_subset_children {α : Type} (f : Form α) : f.shown ⊆ f.children := by
  cases f
  case ifStatement | whileStatement | doStatement | switchStatement | caseClause | forInStatement
    | forOfStatement | forStatement | propertyAssignment | shorthandPropertyAssignment
    | postfixUnary =>
    grind [shown, children]
  case binary left operator right =>
    rw [shown]
    split
    · exact List.cons_subset_cons left (List.nil_subset _)
    · exact List.nil_subset _
  case prefixUnary operator operand =>
    cases operator
    case plusPlus | minusMinus => exact fun _ => id
    all_goals exact List.nil_subset _
  all_goals exact List.nil_subset _

/-- The forms that are never empty: names with a text, and accesses to members. -/
def Form.isFilled {α : Type} : Form α → Bool
  | .identifier text | .privateIdentifier text => !text.isEmpty
  | .propertyAccess .. | .elementAccess .. => true
  | _ => false

/-- What the ranges of a node and of its children owe to the tokens of the node itself.  A class in
the place of an expression may be cut off behind a decorator, which then fills its range. -/
structure Node.Solid (s : Source) (n : Node) : Prop where
  own : n.form.ownsToken = true → n.pos < n.stop ∧
    ∀ c ∈ n.children, c.pos = n.pos → c.stop = n.stop → ∃ inner, c.form = .decorator inner
  block : n.form.isBlock = true → ∀ m : Node, m.Below n → m.form.isBlock = true → n.pos < m.pos
  evaluated : ∀ c ∈ n.form.evaluated, c.Proper s
  filled : n.form.isFilled = true → n.pos < n.stop
  graded : n.form.Graded

/-- The forms of which no more is asked than that they are not empty, if even that. -/
def Form.isModest (f : Form Node) : Bool := !f.ownsToken && !f.isBlock && f.evaluated.isEmpty

/-- The forms of which nothing is asked. -/
def Form.isPlain (f : Form Node) : Bool := f.isModest && !f.isFilled

/-- The forms of composite nodes other than blocks and operations with two operands. -/
def Form.isComposite (f : Form Node) : Bool := !f.kind.isToken && !f.isBlock && !f.isBinary

/-- The forms of composite nodes of which no more is asked than that they are not empty. -/
def Form.isModestNode (f : Form Node) : Bool := f.isComposite && f.isModest

/-- The forms of composite nodes of which nothing is asked. -/
def Form.isPlainNode (f : Form Node) : Bool := f.isComposite && f.isPlain

lemma Form.isToken_of_isComposite {f : Form Node} (h : f.isComposite = true) :
    f.kind.isToken = false := by
  simp only [isComposite, Bool.and_eq_true, Bool.not_eq_true'] at h
  exact h.1.1

lemma Form.isBlock_of_isComposite {f : Form Node} (h : f.isComposite = true) :
    f.isBlock = false := by
  simp only [isComposite, Bool.and_eq_true, Bool.not_eq_true'] at h
  exact h.1.2

lemma Form.Graded.of_isComposite {f : Form Node} (h : f.isComposite = true) : f.Graded := by
  simp only [isComposite, Bool.and_eq_true, Bool.not_eq_true'] at h
  exact .of_isBinary h.2

lemma Form.isModest_of_isPlain {f : Form Node} (h : f.isPlain = true) : f.isModest = true :=
  ((Bool.and_eq_true ..).mp h).1

/-- Of a modest form no part is shown. -/
lemma Form.shown_of_isModest {f : Form Node} (h : f.isModest = true) : f.shown = [] := by
  simp only [isModest, Bool.and_eq_true, List.isEmpty_iff] at h
  exact shown_eq_nil h.2

/-- In an operation one operand is evaluated. -/
lemma Form.isBinary_of_isModest {f : Form Node} (h : f.isModest = true) : f.isBinary = false := by
  cases f
  case binary => cases h
  all_goals rfl

/-- A composite node is no token. -/
lemma Form.ne_token {f : Form Node} (h : f.kind.isToken = false) (kind : TokenKind) :
    f.kind ≠ .token kind := by
  intro htoken
  rw [htoken] at h
  cases h

lemma Node.Solid.of_evaluated {s : Source} {n : Node} (hown : n.form.ownsToken = false)
    (hblock : n.form.isBlock = false) (hfilled : n.form.isFilled = false)
    (hgraded : n.form.Graded) (hevaluated : ∀ c ∈ n.form.evaluated, c.Proper s) : n.Solid s where
  own h := by simp [hown] at h
  block h := by simp [hblock] at h
  evaluated := hevaluated
  filled h := by simp [hfilled] at h
  graded := hgraded

lemma Node.Solid.of_isFilled {s : Source} {n : Node} (hmodest : n.form.isModest = true)
    (hfilled : n.form.isFilled = true → n.pos < n.stop) : n.Solid s := by
  have hgraded : n.form.Graded := .of_isBinary (Form.isBinary_of_isModest hmodest)
  simp only [Form.isModest, Bool.and_eq_true, Bool.not_eq_true', List.isEmpty_iff] at hmodest
  obtain ⟨⟨hown, hblock⟩, hevaluated⟩ := hmodest
  refine ⟨?_, ?_, ?_, hfilled, hgraded⟩
  · simp [hown]
  · simp [hblock]
  · simp [hevaluated]

lemma Node.Solid.of_isPlain {s : Source} {n : Node} (h : n.form.isPlain = true) :
    n.Solid s := by
  refine .of_isFilled (Form.isModest_of_isPlain h) ?_
  simp only [Form.isPlain, Bool.and_eq_true, Bool.not_eq_true'] at h
  simp [h.2]

/-- Where some text is left over, little more is asked. -/
lemma Node.Solid.of_gap {s : Source} {n : Node} (hgap : Gap n.pos n.stop n.children)
    (hcomposite : n.form.isComposite = true) (hevaluated : ∀ c ∈ n.form.evaluated, c.Proper s) :
    n.Solid s where
  own _ := ⟨hgap.lt, fun _ hc hpos hstop => absurd hstop (hgap.ne_stop hc hpos)⟩
  block h := by simp [Form.isBlock_of_isComposite hcomposite] at h
  evaluated := hevaluated
  filled _ := hgap.lt
  graded := .of_isComposite hcomposite

/-! ## Trees on a text -/

/-- The node stands on a token that a lexer reads in the text `s`. -/
def Node.StandsOn (s : Source) (n : Node) (kind : TokenKind) : Prop :=
  ∃ l : Lexer, l.Sound s ∧ l.token.kind = kind ∧ n.pos = l.token.fullStart ∧
    n.stop = l.cursor.pos

/-- A node that lies on the text `s`, with its children in a row inside its range.  A leaf stands on
a token, which for a name may be a keyword. -/
structure Node.Placed (s : Source) (n : Node) : Prop where
  pos_cut : s.IsCut n.pos
  stop_cut : s.IsCut n.stop
  children : Fits n.pos n.stop n.children
  begun : n.pos < n.stop → s.tokenStart n.pos ≤ n.stop
  solid : n.Solid s
  token : ∀ kind : TokenKind, n.kind = .token kind → kind.isName = false → n.StandsOn s kind

/-- An end of the file ends there. -/
lemma Node.Placed.ended {s : Source} {n : Node} (h : n.Placed s)
    (hkind : n.kind = .token .endOfFile) : n.stop = s.size := by
  obtain ⟨l, hsound, hend, -, hstop⟩ := h.token _ hkind rfl
  rw [hstop, hsound.stop_of_endOfFile hend]

/-- A tree that lies on the text `s`. -/
def Node.LaidOut (s : Source) (n : Node) : Prop := ∀ m : Node, m.Within n → m.Placed s

namespace Node.LaidOut

variable {s : Source} {m n : Node}

lemma of_children (h : n.Placed s) (hc : ∀ c ∈ n.children, c.LaidOut s) : n.LaidOut s := by
  intro m hm
  cases hm with
  | refl => exact h
  | child hmem hm => exact hc _ hmem m hm

lemma placed (h : n.LaidOut s) : n.Placed s := h n .refl

lemma pos_le_stop (h : n.LaidOut s) : n.pos ≤ n.stop := h.placed.children.le

lemma lt_of_mem_evaluated (h : n.LaidOut s) : ∀ c ∈ n.form.evaluated, c.pos < c.stop :=
  fun c hc => (h.placed.solid.evaluated c hc).lt

lemma within (h : n.LaidOut s) (hm : m.Within n) : m.LaidOut s := fun k hk => h k (hk.trans hm)

lemma child (h : n.LaidOut s) (hm : m ∈ n.children) : m.LaidOut s := h.within (.child hm .refl)

/-- What is inside a node lies inside its range. -/
theorem range_within (h : n.LaidOut s) (hm : m.Within n) : n.pos ≤ m.pos ∧ m.stop ≤ n.stop := by
  induction hm with
  | refl => exact ⟨Nat.le_refl _, Nat.le_refl _⟩
  | child hc _ ih =>
    have := ih (h.child hc)
    have := h.placed.children.of_mem hc
    omega

end Node.LaidOut

/-- A node whose range is well formed on the text `s`, and so are the ranges of its children beside
each other and inside it. -/
structure Node.WellSpanned (s : Source) (n : Node) : Prop where
  ordered : n.pos ≤ n.stop
  inside : n.stop ≤ s.size
  pos_cut : s.IsCut n.pos
  stop_cut : s.IsCut n.stop
  contains : ∀ c ∈ n.children, n.pos ≤ c.pos ∧ c.stop ≤ n.stop
  separated : n.children.Pairwise fun c d => c.stop ≤ d.pos

lemma Node.Placed.wellSpanned {s : Source} {n : Node} (h : n.Placed s) : n.WellSpanned s where
  ordered := h.children.le
  inside := h.stop_cut.le_size
  pos_cut := h.pos_cut
  stop_cut := h.stop_cut
  contains _ hc := ⟨(h.children.of_mem hc).1, (h.children.of_mem hc).2.2⟩
  separated := h.children.pairwise

end InlineValues

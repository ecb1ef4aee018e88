import InlineValues.Token.Lexer
import InlineValues.Tree.Node

/-!
# The token at an offset

The tree holds only the tokens that became leaves.  `Node.tokenAt` goes down to the innermost node
that contains an offset.  There the token is a leaf, or it lies in a gap between two children, and
then the text of the gap is read once more.

Trivia belongs to the token behind it.  An offset past the end of the text belongs to the end of
the file.
-/

namespace InlineValues

/-- A token of a parsed text. -/
structure TokenAt where
  kind : TokenKind
  /-- Where the trivia in front of the token starts. -/
  pos : Nat
  stop : Nat
  /-- The leaf of the tree, unless the token has none. -/
  leaf : Option Node
  /-- The innermost node around the token. -/
  parent : Node
  /-- The nodes around the parent, innermost first. -/
  outer : List Node

/-- The token, if it is a leaf, and the nodes around it, innermost first. -/
def TokenAt.chain (t : TokenAt) : List Node := t.leaf.toList ++ t.parent :: t.outer

/-! ## Gaps -/

/-- Read tokens until one reaches past an offset or the text ends.  With `joined`, a `>` goes on as
far as an operator does. -/
def Lexer.scanPast (offset : Nat) (joined : Bool) : (fuel : Nat) → Lexer → Lexer
  | 0, l => l
  | fuel + 1, l =>
    let l := if joined then l.scan.rescanGreater else l.scan
    if offset < l.stop || l.token.kind == .endOfFile then l else scanPast offset joined fuel l

namespace Node

/-- The children that start at or before an offset. -/
def childrenUpTo (n : Node) (offset : Nat) : List Node := n.children.takeWhile (·.pos ≤ offset)

/-- Whether a node reaches past an offset.  The end of the file also holds the offset behind it. -/
def reaches (n : Node) (offset : Nat) : Bool :=
  offset < n.stop || (offset == n.stop && n.kind == .token .endOfFile)

/-- The child that contains an offset. -/
def childAt? (n : Node) (offset : Nat) : Option Node :=
  (n.childrenUpTo offset).find? (·.reaches offset)

theorem childAt?_mem {n c : Node} {offset : Nat} (h : n.childAt? offset = some c) :
    c ∈ n.children :=
  (List.takeWhile_sublist _).subset (List.mem_of_find?_eq_some h)

/-- Where the gap around an offset starts: behind the children in front of it. -/
def gapStart (n : Node) (offset : Nat) : Nat :=
  (n.childrenUpTo offset).foldl (fun start c => max start c.stop) n.pos

/-- The token at an offset in a gap of a node. -/
def gapToken (s : Source) (offset : Nat) (outer : List Node) (n : Node) : TokenAt :=
  let l := ((Lexer.start s).setPosition (n.gapStart offset)).scanPast offset
    (n.is .binaryExpression) (s.size + 1)
  { kind := l.token.kind, pos := l.token.fullStart, stop := l.stop
    leaf := none, parent := n, outer }

/-- The token at an offset inside a node, which lies inside the nodes of `outer`. -/
def tokenWithin (s : Source) (offset : Nat) (outer : List Node) (n : Node) : TokenAt :=
  match _h : n.childAt? offset with
  | none => n.gapToken s offset outer
  | some c =>
    match c.kind with
    | .token kind => { kind, pos := c.pos, stop := c.stop, leaf := c, parent := n, outer }
    | .node _ => c.tokenWithin s offset (n :: outer)
termination_by sizeOf n
decreasing_by exact Node.sizeOf_lt_of_mem_children (childAt?_mem _h)

/-- The token of a file at an offset.  An offset past the end counts as the end. -/
def tokenAt (root : Node) (s : Source) (offset : Nat) : TokenAt :=
  root.tokenWithin s (min offset s.size) []

end Node

end InlineValues

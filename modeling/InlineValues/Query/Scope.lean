import InlineValues.Query.TokenAt

/-!
# The scopes around a token

The values that matter at a place are those of the code around it.  From the token outward,
`findScopes` takes the nodes that open a scope, up to two limits: one on all scopes, and one on the
strong ones.  A block is no strong scope, since many statements bring one along.
-/

namespace InlineValues

/-- How many scopes are taken. -/
structure ScopeLimits where
  strong : Nat := 2
  all : Nat := 4
  deriving DecidableEq, Repr

/-- The kinds of nodes that are walked for values as scopes of their own. -/
def NodeKind.opensScope (kind : NodeKind) : Bool :=
  kind.isFunctionLike ||
    match kind with
    | .propertyAccessExpression | .elementAccessExpression | .classDeclaration | .classExpression
    | .forInStatement | .forOfStatement | .caseClause | .defaultClause | .sourceFile | .block
    | .staticBlock | .ifStatement | .forStatement | .whileStatement | .doStatement
    | .switchStatement | .moduleDeclaration | .catchClause => true
    | _ => false

/-- Whether a node opens a scope. -/
def Node.opensScope (n : Node) : Bool :=
  match n.kind with
  | .token _ => false
  | .node kind => kind.opensScope

/-- The scopes of a chain of nodes: at most `all` of them, and at most `strong` of them not blocks.
Nothing is taken once either number is used up. -/
def takeScopes : (strong all : Nat) → (chain : List Node) → List Node
  | 0, _, _ => []
  | _, 0, _ => []
  | _, _, [] => []
  | strong + 1, all + 1, n :: outer =>
    if !n.opensScope then takeScopes (strong + 1) (all + 1) outer
    else n :: takeScopes (if n.is .block then strong + 1 else strong) all outer

/-- The scopes around a token, innermost first. -/
def findScopes (limits : ScopeLimits) (t : TokenAt) : List Node :=
  takeScopes limits.strong limits.all t.chain

end InlineValues

import InlineValues.Grammar.SourceFile
import InlineValues.Printer.Print
import InlineValues.Query.Scope
import InlineValues.Query.Value

/-!
# Collecting values

`inlineValues` lists the values that are worth showing while a program is paused at an offset.  It
walks the outermost of the scopes around the token there.

The scopes around the token are entered in full.  Of any other function, class, loop or block at
most the name and the condition count: what such code computes is not known at the paused place.
Types hold no values.  Code behind the token has not run yet, so that nothing of it is shown, apart
from the conditions of the scopes around the token and the labels of cases.
-/

namespace InlineValues

/-- The deepest level of the tree, counted from the outermost scope, that is walked. -/
def maxWalkDepth : Nat := 500

/-- What a walk depends on. -/
structure Walk where
  source : Source
  /-- The scopes around the token. -/
  scopes : List Node
  /-- Where the trivia of the token starts.  Code up to here has run. -/
  tokenPos : Nat
  /-- The part of the text that the editor shows. -/
  visible : Span

/-- How the parts of a node are walked. -/
abbrev Visit := Option Node → List Reported

namespace Walk

/-- Whether a node is one of the scopes around the token.  A scope is known by its kind and its
range: every scope has a token of its own, so that no scope contains another one of its kind and
range. -/
def isLocated (w : Walk) (n : Node) : Bool :=
  w.scopes.any fun scope => scope.kind == n.kind && scope.pos == n.pos && scope.stop == n.stop

/-- Whether a node is walked at all. -/
def enters (w : Walk) (n : Node) : Bool :=
  n.pos < n.stop && (w.isLocated n || (n.pos ≤ w.tokenPos && !n.is .block)) &&
    w.visible.touches (.ofBounds n.pos n.stop) && !n.kind.isType

/-! ## Values -/

/-- Whether a node ends before the token. -/
def isPast (w : Walk) (n : Node) : Bool := n.stop ≤ w.tokenPos

/-- The value of an expression.  One that is too deep to be printed in full has none. -/
def expressionOf (w : Walk) (n : Node) : List Reported :=
  let printed := print w.source {} n
  if printed.text.isEmpty || printed.truncated then []
  else [.expression n printed.text]

/-- The value of an expression, wherever it stands. -/
def expression (w : Walk) : Option Node → List Reported
  | some n => w.expressionOf n
  | none => []

/-- The value of an expression in front of the token. -/
def pastExpression (w : Walk) : Option Node → List Reported
  | some n => if w.isPast n then w.expressionOf n else []
  | none => []

/-- The value of the condition of a statement.  That of a scope around the token is shown wherever
it stands. -/
def condition (w : Walk) (statement : Node) (condition : Option Node) : List Reported :=
  if w.isLocated statement then w.expression condition else w.pastExpression condition

/-- The value of a variable that is named in front of the token. -/
def lookup (w : Walk) : (name : Option Node) → List Reported
  | some n@⟨_, _, .identifier text⟩ | some n@⟨_, _, .privateIdentifier text⟩ =>
    if w.isPast n && !text.isEmpty then [.lookup n text] else []
  | _ => []

/-! ## Declarations -/

/-- A declared name, which may be a pattern, and its initial value. -/
def binding (w : Walk) (visit : Visit) : (name initializer : Option Node) → List Reported
  | none, _ => []
  | some n, initializer =>
    (if n.kind == .token .identifier then w.lookup n else visit n) ++ visit initializer

/-- A variable declaration, a parameter or an element of a pattern. -/
def declaration (w : Walk) (visit : Visit) (n : Node) : List Reported :=
  match n.form with
  | .variableDeclaration name _ _ initializer => w.binding visit name initializer
  | .parameter parts => w.binding visit parts.name parts.initializer
  | .bindingElement _ _ name initializer => w.binding visit name initializer
  | _ => []

/-- The parameters and the body of a function around the token. -/
def function (w : Walk) (visit : Visit) (n : Node) (parts : FunctionParts Node) :
    List Reported :=
  if w.isLocated n then
    parts.parameters.items.flatMap (w.declaration visit) ++ visit parts.body
  else []

/-- The members of a class around the token. -/
def classMembers (w : Walk) (visit : Visit) (n : Node) (parts : ClassParts Node) :
    List Reported :=
  if w.isLocated n then parts.members.items.flatMap fun m => visit (some m) else []

/-! ## Assignments -/

/-- `++` and `--`. -/
def isStep (operator : TokenKind) : Bool := operator == .plusPlus || operator == .minusMinus

/-- Expressions that change a variable. -/
def isAssignment (n : Node) : Bool :=
  match n.form with
  | .binary _ operator _ => operator.isAssignmentOperator
  | .prefixUnary operator _ => isStep operator
  | .postfixUnary _ operator => isStep operator
  | _ => false

/-- Expressions in parentheses that change a variable. -/
def isParenthesizedAssignment : Option Node → Bool
  | some ⟨_, _, .parenthesized (some inner)⟩ => isAssignment inner
  | _ => false

/-- Expressions that a comma divides. -/
def isCommaExpression (n : Node) : Bool :=
  match n.form with
  | .binary _ operator _ => operator == .comma
  | _ => false

/-- What an assignment changes. -/
def target (w : Walk) : Option Node → List Reported
  | some n =>
    if n.kind == .token .identifier then w.lookup n
    else if n.is .propertyAccessExpression || n.is .elementAccessExpression then w.pastExpression n
    else []
  | none => []

/-! ## Statements -/

/-- The initializer of a loop: the variables that it declares, or else an expression. -/
def loopInitializer (w : Walk) (visit : Visit) : Option Node → List Reported
  | some ⟨_, _, .variableDeclarationList _ declarations⟩ =>
    declarations.items.flatMap (w.declaration visit)
  | initializer => w.pastExpression initializer

/-- What a loop does between two rounds.  Steps of several variables count one by one. -/
def incrementor (w : Walk) (visit : Visit) : Option Node → List Reported
  | some n =>
    if isAssignment n || isCommaExpression n then visit n else w.pastExpression n
  | none => []

/-- A clause of a `switch`.  Its label is shown wherever it stands. -/
def clause (w : Walk) (visit : Visit) (n : Node) : List Reported :=
  match n.form with
  | .caseClause expression statements =>
    w.expression expression ++ statements.items.flatMap fun n => visit (some n)
  | .defaultClause statements => statements.items.flatMap fun n => visit (some n)
  | _ => []

/-- The clauses of a `switch`. -/
def clauses (w : Walk) (visit : Visit) (cases : Node) : List Reported :=
  match cases.form with
  | .caseBlock clauses => clauses.items.flatMap (w.clause visit)
  | _ => []

/-- Everything inside a node. -/
def children (visit : Visit) (n : Node) : List Reported :=
  n.children.flatMap fun c => visit (some c)

/-- What is inside a statement, if it is a scope around the token. -/
def within (w : Walk) (n : Node) (values : List Reported) : List Reported :=
  if w.isLocated n then values else []

/-- The values of a node that is walked. -/
def form (w : Walk) (visit : Visit) (n : Node) : List Reported :=
  match n.form with
  | .variableDeclaration .. | .parameter .. | .bindingElement .. => w.declaration visit n
  | .propertyAssignment _ initializer => w.pastExpression initializer
  | .shorthandPropertyAssignment name _ => w.pastExpression name
  | .functionDeclaration parts => w.lookup parts.name ++ w.function visit n parts
  | .functionExpression parts | .arrowFunction parts => w.function visit n parts
  | .classDeclaration parts => w.lookup parts.name ++ w.classMembers visit n parts
  | .classExpression parts => w.classMembers visit n parts
  | .ifStatement condition thenBranch elseBranch =>
    (if isParenthesizedAssignment condition then visit condition
      else w.condition n condition) ++
      w.within n (visit thenBranch ++ visit elseBranch)
  | .forStatement initializer condition incrementor body =>
    w.within n
      (w.loopInitializer visit initializer ++ w.expression condition ++
        w.incrementor visit incrementor ++ visit body)
  | .forInStatement initializer expression body | .forOfStatement _ initializer expression body =>
    w.within n (w.loopInitializer visit initializer ++ w.expression expression ++ visit body)
  | .whileStatement condition body | .doStatement body condition =>
    w.condition n condition ++ w.within n (visit body)
  | .switchStatement expression cases =>
    w.condition n expression ++ w.within n (w.clauses visit cases)
  | .caseClause .. | .defaultClause .. => w.clause visit n
  | .catchClause binding block =>
    w.within n (binding.toList.flatMap (w.declaration visit) ++ visit block)
  | .binary left _ right =>
    if isAssignment n then w.target left ++ visit right else children visit n
  | .prefixUnary _ operand =>
    if isAssignment n then w.target operand else children visit n
  | .postfixUnary operand _ =>
    if isAssignment n then w.target operand else children visit n
  | _ => children visit n

/-- The values of a node, down to a depth. -/
def values (w : Walk) : (depth : Nat) → Option Node → List Reported
  | 0, _ => []
  | _, none => []
  | depth + 1, some n => if w.enters n then w.form (w.values depth) n else []

end Walk

/-- The walk of a file while the program is paused at an offset. -/
def walkAt (limits : ScopeLimits) (file : ParsedFile) (offset : Nat) (visible : Span) : Walk :=
  let token := file.root.tokenAt file.source offset
  { source := file.source, scopes := findScopes limits token, tokenPos := token.pos, visible }

/-- The nodes of a file whose values are worth showing while the program is paused at an offset, as
far as they touch the visible part of the text. -/
def reportedNodes (limits : ScopeLimits) (file : ParsedFile) (offset : Nat) (visible : Span) :
    List Reported :=
  let walk := walkAt limits file offset visible
  walk.values maxWalkDepth walk.scopes.getLast?

/-- The values of these nodes. -/
def inlineValues (limits : ScopeLimits) (file : ParsedFile) (offset : Nat) (visible : Span) :
    List InlineValue :=
  (reportedNodes limits file offset visible).map (·.value file.source)

end InlineValues

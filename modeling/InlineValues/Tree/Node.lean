import InlineValues.Text.Span
import InlineValues.Text.Trivia
import InlineValues.Tree.Children

/-!
# Nodes and their kinds

The form of a node determines its kind, and with it whether the node is a token, a type or a
function.  `Node.start` is where the first token of a node starts, behind its trivia, and
`Node.entries` numbers the nodes of a tree: a node before its children, and these in order.
-/

namespace InlineValues

/-! ## Kinds -/

/-- The kind of an expression that a keyword introduces. -/
def KeywordOperator.kind : KeywordOperator → NodeKind
  | delete => .deleteExpression
  | typeOf => .typeOfExpression
  | void => .voidExpression
  | await => .awaitExpression

/-- The keyword of an operator. -/
def KeywordOperator.token : KeywordOperator → TokenKind
  | delete => .deleteKeyword
  | typeOf => .typeOfKeyword
  | void => .voidKeyword
  | await => .awaitKeyword

/-- The kind of a form. -/
def Form.kind {α : Type} : Form α → Kind
  | .token kind => .token kind
  | .identifier _ => .token .identifier
  | .privateIdentifier _ => .token .privateIdentifier
  | .literal kind _ => .token kind
  | .omittedExpression => .node .omittedExpression
  | .emptyStatement => .node .emptyStatement
  | .debuggerStatement => .node .debuggerStatement
  | .semicolonClassElement => .node .semicolonClassElement
  | .thisType => .node .thisType
  | .qualifiedName .. => .node .qualifiedName
  | .computedPropertyName .. => .node .computedPropertyName
  | .decorator .. => .node .decorator
  | .binary .. => .node .binaryExpression
  | .prefixUnary .. => .node .prefixUnaryExpression
  | .postfixUnary .. => .node .postfixUnaryExpression
  | .keywordUnary operator _ => .node operator.kind
  | .yield .. => .node .yieldExpression
  | .spreadElement .. => .node .spreadElement
  | .nonNull .. => .node .nonNullExpression
  | .call .. => .node .callExpression
  | .new .. => .node .newExpression
  | .propertyAccess .. => .node .propertyAccessExpression
  | .elementAccess .. => .node .elementAccessExpression
  | .conditional .. => .node .conditionalExpression
  | .arrayLiteral .. => .node .arrayLiteralExpression
  | .objectLiteral .. => .node .objectLiteralExpression
  | .parenthesized .. => .node .parenthesizedExpression
  | .typeAssertion .. => .node .typeAssertion
  | .asExpression .. => .node .asExpression
  | .satisfies .. => .node .satisfiesExpression
  | .template .. => .node .templateExpression
  | .templateSpan .. => .node .templateSpan
  | .taggedTemplate .. => .node .taggedTemplateExpression
  | .functionExpression .. => .node .functionExpression
  | .arrowFunction .. => .node .arrowFunction
  | .classExpression .. => .node .classExpression
  | .propertyAssignment .. => .node .propertyAssignment
  | .shorthandPropertyAssignment .. => .node .shorthandPropertyAssignment
  | .spreadAssignment .. => .node .spreadAssignment
  | .functionDeclaration .. => .node .functionDeclaration
  | .classDeclaration .. => .node .classDeclaration
  | .interfaceDeclaration .. => .node .interfaceDeclaration
  | .typeAlias .. => .node .typeAliasDeclaration
  | .enumDeclaration .. => .node .enumDeclaration
  | .enumMember .. => .node .enumMember
  | .moduleDeclaration .. => .node .moduleDeclaration
  | .staticBlock .. => .node .staticBlock
  | .propertyDeclaration .. => .node .propertyDeclaration
  | .methodDeclaration .. => .node .methodDeclaration
  | .constructorDeclaration .. => .node .constructorDeclaration
  | .getAccessor .. => .node .getAccessor
  | .setAccessor .. => .node .setAccessor
  | .propertySignature .. => .node .propertySignature
  | .methodSignature .. => .node .methodSignature
  | .callSignature .. => .node .callSignature
  | .constructSignature .. => .node .constructSignature
  | .indexSignature .. => .node .indexSignature
  | .parameter .. => .node .parameter
  | .typeParameter .. => .node .typeParameter
  | .heritageClause .. => .node .heritageClause
  | .expressionWithTypeArguments .. => .node .expressionWithTypeArguments
  | .block .. => .node .block
  | .moduleBlock .. => .node .moduleBlock
  | .caseBlock .. => .node .caseBlock
  | .variableStatement .. => .node .variableStatement
  | .variableDeclarationList .. => .node .variableDeclarationList
  | .variableDeclaration .. => .node .variableDeclaration
  | .expressionStatement .. => .node .expressionStatement
  | .ifStatement .. => .node .ifStatement
  | .doStatement .. => .node .doStatement
  | .whileStatement .. => .node .whileStatement
  | .forStatement .. => .node .forStatement
  | .forInStatement .. => .node .forInStatement
  | .forOfStatement .. => .node .forOfStatement
  | .breakStatement .. => .node .breakStatement
  | .continueStatement .. => .node .continueStatement
  | .returnStatement .. => .node .returnStatement
  | .throwStatement .. => .node .throwStatement
  | .withStatement .. => .node .withStatement
  | .switchStatement .. => .node .switchStatement
  | .caseClause .. => .node .caseClause
  | .defaultClause .. => .node .defaultClause
  | .labeledStatement .. => .node .labeledStatement
  | .tryStatement .. => .node .tryStatement
  | .catchClause .. => .node .catchClause
  | .objectBindingPattern .. => .node .objectBindingPattern
  | .arrayBindingPattern .. => .node .arrayBindingPattern
  | .bindingElement .. => .node .bindingElement
  | .typeReference .. => .node .typeReference
  | .unionType .. => .node .unionType
  | .intersectionType .. => .node .intersectionType
  | .functionType .. => .node .functionType
  | .constructorType .. => .node .constructorType
  | .typeQuery .. => .node .typeQuery
  | .typeLiteral .. => .node .typeLiteral
  | .arrayType .. => .node .arrayType
  | .tupleType .. => .node .tupleType
  | .optionalType .. => .node .optionalType
  | .restType .. => .node .restType
  | .parenthesizedType .. => .node .parenthesizedType
  | .conditionalType .. => .node .conditionalType
  | .inferType .. => .node .inferType
  | .typeOperator .. => .node .typeOperator
  | .indexedAccessType .. => .node .indexedAccessType
  | .mappedType .. => .node .mappedType
  | .literalType .. => .node .literalType
  | .namedTupleMember .. => .node .namedTupleMember
  | .templateLiteralType .. => .node .templateLiteralType
  | .templateLiteralTypeSpan .. => .node .templateLiteralTypeSpan
  | .typePredicate .. => .node .typePredicate
  | .importDeclaration .. => .node .importDeclaration
  | .importClause .. => .node .importClause
  | .namespaceImport .. => .node .namespaceImport
  | .namedImports .. => .node .namedImports
  | .namedExports .. => .node .namedExports
  | .importSpecifier .. => .node .importSpecifier
  | .exportSpecifier .. => .node .exportSpecifier
  | .exportDeclaration .. => .node .exportDeclaration
  | .exportAssignment .. => .node .exportAssignment
  | .sourceFile .. => .node .sourceFile

/-- The name that a form holds, if it is one. -/
def Form.name? {α : Type} : Form α → Option (List Char)
  | .identifier text | .privateIdentifier text => some text
  | _ => none

/-- The parameters of a form that is a function of some sort. -/
def Form.functionParameters? {α : Type} : Form α → Option (Sequence α)
  | .functionDeclaration parts | .functionExpression parts | .arrowFunction parts =>
    some parts.parameters
  | .methodDeclaration parts => some parts.signature.parameters
  | .constructorDeclaration _ _ parameters _ => some parameters
  | .getAccessor parts | .setAccessor parts => some parts.signature.parameters
  | _ => none

/-! ## Flags -/

/-- The number under which the keyword of a declaration of variables is reported. -/
def VariableKeyword.flags : VariableKeyword → Nat
  | var => 0
  | .let => 1
  | const => 2
  | .using => 4
  | awaitUsing => 6

/-- Whether a form is a link of an optional chain. -/
def Form.isOptionalLink {α : Type} : Form α → Bool
  | .call _ optional _ _ => optional
  | .propertyAccess _ optional _ => optional
  | .elementAccess _ optional _ => optional
  | .taggedTemplate _ _ _ chained => chained
  | _ => false

/-- The number under which the keyword of a form and its part in an optional chain are reported. -/
def Form.flags {α : Type} : Form α → Nat
  | .variableDeclarationList keyword _ => keyword.flags
  | form => if form.isOptionalLink then 32 else 0

/-! ## Nodes -/

namespace Node

/-- The kind of a node. -/
def kind (n : Node) : Kind := n.form.kind

/-- Whether a node is of a composite kind. -/
def is (n : Node) (kind : NodeKind) : Bool := n.kind == .node kind

/-- Where the first token of a node starts, behind its trivia. -/
def start (n : Node) (s : Source) : Nat :=
  if n.pos < s.size then min (skipTrivia s n.pos) (max n.stop n.pos) else n.pos

/-- The range of a node without the trivia in front of it. -/
def span (n : Node) (s : Source) : Span := .ofBounds (n.start s) n.stop

end Node

/-- A node in the list of the nodes of a tree: its place below the root, and the number of its
parent. -/
structure Entry where
  node : Node
  parent : Option Nat
  depth : Nat

/-- Add a node and everything below it to a list of nodes. -/
def Node.entriesOnto (parent : Option Nat) (depth : Nat) (entries : Array Entry) (n : Node) :
    Array Entry :=
  let number := entries.size
  n.children.attach.foldl
    (fun entries c => c.val.entriesOnto (some number) (depth + 1) entries)
    (entries.push ⟨n, parent, depth⟩)
termination_by sizeOf n
decreasing_by exact Node.sizeOf_lt_of_mem_children c.property

/-- The nodes of a tree, each before its children and these in order.  The number of a node is its
place in this list. -/
def Node.entries (root : Node) : Array Entry := root.entriesOnto none 0 #[]

end InlineValues

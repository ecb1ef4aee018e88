import InlineValues.Tree.Children
import InlineValues.Tree.Map
import InlineValues.Tree.Node

/-!
# The arena of the nodes of a text

A parser numbers its nodes in the order in which it makes them, those included that it drops later
on.  The `Arena` keeps under each number what the node is: its kind, its range, its payload and its
parent.

The payload of a node is its form, with the numbers of its parts in the place of the parts.  The
payloads stand in tables, one for each shape that a payload can have, and a node holds the number
of its payload in a table.  Which table was meant is not stored with the number.  When the payload
is read, the kind of the node decides which table is asked (`Arena.payload?`), so that the two have
to agree wherever a node is made.

Nodes are made from the leaves up.  A node that is added becomes the parent of all nodes that its
payload lists (`Arena.add`), whatever their parents were before.
-/

namespace InlineValues

/-! ## Tables -/

/-- The tables of payloads. -/
inductive Pool where
  | identifiers | literals | qualifiedNames | computedProperties | decorators | binaries | unaries
  | keywordUnaries | calls | accesses | conditionals | literalExpressions | parenthesized
  | typeAssertions | templates | templateSpans | taggedTemplates | propertyAssignments
  | shorthandProperties | functions | classes | interfaces | typeAliases | enums | enumMembers
  | modules | staticBlocks | signatures | indexSignatures | propertyDeclarations
  | methodDeclarations | constructors | accessors | parameters | typeParameters | heritageClauses
  | expressionsWithTypeArguments | ifStatements | loops | forInOf | blocks | variables
  | variableDeclarations | returns | expressionStatements | switches | caseClauses | tries
  | catchClauses | labels | jumps | withs | bindingPatterns | bindingElements | typeReferences
  | compositeTypes | functionTypes | typeQueries | typeLiterals | arrayTypes | tupleTypes
  | wrappedTypes | conditionalTypes | inferTypes | typeOperators | indexedAccessTypes
  | mappedTypes | literalTypes | namedTupleMembers | typePredicates | importDeclarations
  | importClauses | namedImports | specifiers | exportDeclarations | exportAssignments
  | sourceFiles
  deriving DecidableEq

/-- The number of tables. -/
def Pool.count : Nat := 77

theorem Pool.ctorIdx_lt (pool : Pool) : pool.ctorIdx < Pool.count := by
  cases pool <;> decide

/-- The table into which the payload of a form is put. -/
def Form.pool? {α : Type} : Form α → Option Pool
  | .identifier _ | .privateIdentifier _ => some .identifiers
  | .literal .. => some .literals
  | .qualifiedName .. => some .qualifiedNames
  | .computedPropertyName _ => some .computedProperties
  | .decorator _ => some .decorators
  | .binary .. => some .binaries
  | .prefixUnary .. | .postfixUnary .. => some .unaries
  | .keywordUnary .. | .yield .. | .spreadElement _ | .nonNull _ | .spreadAssignment _ =>
    some .keywordUnaries
  | .call .. | .new .. => some .calls
  | .propertyAccess .. | .elementAccess .. => some .accesses
  | .conditional .. => some .conditionals
  | .arrayLiteral .. | .objectLiteral .. => some .literalExpressions
  | .parenthesized _ => some .parenthesized
  | .typeAssertion .. | .asExpression .. | .satisfies .. => some .typeAssertions
  | .template .. | .templateLiteralType .. => some .templates
  | .templateSpan .. | .templateLiteralTypeSpan .. => some .templateSpans
  | .taggedTemplate .. => some .taggedTemplates
  | .propertyAssignment .. => some .propertyAssignments
  | .shorthandPropertyAssignment .. => some .shorthandProperties
  | .functionExpression _ | .arrowFunction _ | .functionDeclaration _ => some .functions
  | .classExpression _ | .classDeclaration _ => some .classes
  | .interfaceDeclaration _ => some .interfaces
  | .typeAlias .. => some .typeAliases
  | .enumDeclaration .. => some .enums
  | .enumMember .. => some .enumMembers
  | .moduleDeclaration .. => some .modules
  | .staticBlock _ => some .staticBlocks
  | .propertySignature .. | .methodSignature .. | .callSignature _ | .constructSignature _ =>
    some .signatures
  | .indexSignature .. => some .indexSignatures
  | .propertyDeclaration _ => some .propertyDeclarations
  | .methodDeclaration _ => some .methodDeclarations
  | .constructorDeclaration .. => some .constructors
  | .getAccessor _ | .setAccessor _ => some .accessors
  | .parameter _ => some .parameters
  | .typeParameter .. => some .typeParameters
  | .heritageClause .. => some .heritageClauses
  | .expressionWithTypeArguments .. => some .expressionsWithTypeArguments
  | .ifStatement .. => some .ifStatements
  | .doStatement .. | .whileStatement .. | .forStatement .. => some .loops
  | .forInStatement .. | .forOfStatement .. => some .forInOf
  | .block .. | .moduleBlock _ | .caseBlock _ => some .blocks
  | .variableStatement .. | .variableDeclarationList .. => some .variables
  | .variableDeclaration .. => some .variableDeclarations
  | .returnStatement _ | .throwStatement _ => some .returns
  | .expressionStatement _ => some .expressionStatements
  | .switchStatement .. => some .switches
  | .caseClause .. | .defaultClause _ => some .caseClauses
  | .tryStatement .. => some .tries
  | .catchClause .. => some .catchClauses
  | .labeledStatement .. => some .labels
  | .breakStatement _ | .continueStatement _ => some .jumps
  | .withStatement .. => some .withs
  | .objectBindingPattern _ | .arrayBindingPattern _ => some .bindingPatterns
  | .bindingElement .. => some .bindingElements
  | .typeReference .. => some .typeReferences
  | .unionType _ | .intersectionType _ => some .compositeTypes
  | .functionType _ | .constructorType .. => some .functionTypes
  | .typeQuery .. => some .typeQueries
  | .typeLiteral _ => some .typeLiterals
  | .arrayType _ => some .arrayTypes
  | .tupleType _ => some .tupleTypes
  | .optionalType _ | .restType _ | .parenthesizedType _ => some .wrappedTypes
  | .conditionalType .. => some .conditionalTypes
  | .inferType _ => some .inferTypes
  | .typeOperator .. => some .typeOperators
  | .indexedAccessType .. => some .indexedAccessTypes
  | .mappedType _ => some .mappedTypes
  | .literalType _ => some .literalTypes
  | .namedTupleMember .. => some .namedTupleMembers
  | .typePredicate .. => some .typePredicates
  | .importDeclaration .. => some .importDeclarations
  | .importClause .. => some .importClauses
  | .namespaceImport _ | .namedImports _ | .namedExports _ => some .namedImports
  | .importSpecifier .. | .exportSpecifier .. => some .specifiers
  | .exportDeclaration .. => some .exportDeclarations
  | .exportAssignment .. => some .exportAssignments
  | .sourceFile .. => some .sourceFiles
  | .token _ | .omittedExpression | .emptyStatement | .debuggerStatement | .semicolonClassElement
  | .thisType => none

/-- The table in which the payload of a composite node is looked up. -/
def NodeKind.pool? : NodeKind → Option Pool
  | .qualifiedName => some .qualifiedNames
  | .computedPropertyName => some .computedProperties
  | .decorator => some .decorators
  | .binaryExpression => some .binaries
  | .prefixUnaryExpression | .postfixUnaryExpression => some .unaries
  | .deleteExpression | .typeOfExpression | .voidExpression | .awaitExpression | .yieldExpression
  | .spreadElement | .nonNullExpression | .spreadAssignment => some .keywordUnaries
  | .callExpression | .newExpression => some .calls
  | .propertyAccessExpression | .elementAccessExpression => some .accesses
  | .conditionalExpression => some .conditionals
  | .arrayLiteralExpression | .objectLiteralExpression => some .literalExpressions
  | .parenthesizedExpression => some .parenthesized
  | .typeAssertion | .asExpression | .satisfiesExpression => some .typeAssertions
  | .templateExpression | .templateLiteralType => some .templates
  | .templateSpan | .templateLiteralTypeSpan => some .templateSpans
  | .taggedTemplateExpression => some .taggedTemplates
  | .propertyAssignment => some .propertyAssignments
  | .shorthandPropertyAssignment => some .shorthandProperties
  | .functionExpression | .arrowFunction | .functionDeclaration => some .functions
  | .classExpression | .classDeclaration => some .classes
  | .interfaceDeclaration => some .interfaces
  | .typeAliasDeclaration => some .typeAliases
  | .enumDeclaration => some .enums
  | .enumMember => some .enumMembers
  | .moduleDeclaration => some .modules
  | .staticBlock => some .staticBlocks
  | .propertySignature | .methodSignature | .callSignature | .constructSignature => some .signatures
  | .indexSignature => some .indexSignatures
  | .propertyDeclaration => some .propertyDeclarations
  | .methodDeclaration => some .methodDeclarations
  | .constructorDeclaration => some .constructors
  | .getAccessor | .setAccessor => some .accessors
  | .parameter => some .parameters
  | .typeParameter => some .typeParameters
  | .heritageClause => some .heritageClauses
  | .expressionWithTypeArguments => some .expressionsWithTypeArguments
  | .ifStatement => some .ifStatements
  | .doStatement | .whileStatement | .forStatement => some .loops
  | .forInStatement | .forOfStatement => some .forInOf
  | .block | .moduleBlock | .caseBlock => some .blocks
  | .variableStatement | .variableDeclarationList => some .variables
  | .variableDeclaration => some .variableDeclarations
  | .returnStatement | .throwStatement => some .returns
  | .expressionStatement => some .expressionStatements
  | .switchStatement => some .switches
  | .caseClause | .defaultClause => some .caseClauses
  | .tryStatement => some .tries
  | .catchClause => some .catchClauses
  | .labeledStatement => some .labels
  | .breakStatement | .continueStatement => some .jumps
  | .withStatement => some .withs
  | .objectBindingPattern | .arrayBindingPattern => some .bindingPatterns
  | .bindingElement => some .bindingElements
  | .typeReference => some .typeReferences
  | .unionType | .intersectionType => some .compositeTypes
  | .functionType | .constructorType => some .functionTypes
  | .typeQuery => some .typeQueries
  | .typeLiteral => some .typeLiterals
  | .arrayType => some .arrayTypes
  | .tupleType => some .tupleTypes
  | .optionalType | .restType | .parenthesizedType => some .wrappedTypes
  | .conditionalType => some .conditionalTypes
  | .inferType => some .inferTypes
  | .typeOperator => some .typeOperators
  | .indexedAccessType => some .indexedAccessTypes
  | .mappedType => some .mappedTypes
  | .literalType => some .literalTypes
  | .namedTupleMember => some .namedTupleMembers
  | .typePredicate => some .typePredicates
  | .importDeclaration => some .importDeclarations
  | .importClause => some .importClauses
  | .namespaceImport | .namedImports | .namedExports => some .namedImports
  | .importSpecifier | .exportSpecifier => some .specifiers
  | .exportDeclaration => some .exportDeclarations
  | .exportAssignment => some .exportAssignments
  | .sourceFile => some .sourceFiles
  | .thisType | .omittedExpression | .emptyStatement | .debuggerStatement
  | .semicolonClassElement => none

/-- The table in which the payload of a leaf is looked up. -/
def TokenKind.pool? (kind : TokenKind) : Option Pool :=
  if kind == .identifier || kind == .privateIdentifier then some .identifiers
  else if kind.isLiteral || kind.isTemplatePiece then some .literals
  else none

/-- The table in which the payload of a node of a kind is looked up. -/
def Kind.pool? : Kind → Option Pool
  | .token kind => kind.pool?
  | .node kind => kind.pool?

/-! ## Slots -/

/-- What the arena keeps of a node. -/
structure Slot where
  kind : Kind
  pos : Nat
  stop : Nat
  /-- The table that the payload was put into and its number there, if the node has a payload.  Only
  the number is used to find it again. -/
  data : Option (Pool × Nat)
  parent : Option Nat

/-- The nodes of a text by number, with the tables of their payloads. -/
structure Arena where
  slots : Array Slot := #[]
  pools : Array (Array (Form Nat)) := Array.replicate Pool.count #[]
  pools_size : pools.size = Pool.count := by simp

namespace Arena

/-- The number of nodes. -/
def size (a : Arena) : Nat := a.slots.size

/-- The payloads in a table. -/
def pool (a : Arena) (p : Pool) : Array (Form Nat) :=
  have : p.ctorIdx < a.pools.size := a.pools_size ▸ p.ctorIdx_lt
  a.pools[p.ctorIdx]

/-! ## Adding nodes -/

/-- Make a node the parent of others. -/
def link (parent : Nat) (slots : Array Slot) (children : List Nat) : Array Slot :=
  children.foldl (fun slots c => slots.modify c fun slot => { slot with parent }) slots

/-- Put a payload into its table. -/
def putPayload (pools : Array (Array (Form Nat))) (form : Form Nat) : Array (Array (Form Nat)) :=
  match form.pool? with
  | some p => pools.modify p.ctorIdx (·.push form)
  | none => pools

theorem size_putPayload (pools : Array (Array (Form Nat))) (form : Form Nat) :
    (putPayload pools form).size = pools.size := by
  unfold putPayload
  split <;> simp

/-- Add a node with a range and a form.  Its number is the number of nodes before it. -/
def add (a : Arena) (pos stop : Nat) (form : Form Nat) : Arena where
  slots :=
    link a.slots.size
      (a.slots.push
        { kind := form.kind, pos, stop, data := form.pool?.map fun p => (p, (a.pool p).size)
          parent := none })
      form.children
  pools := putPayload a.pools form
  pools_size := (size_putPayload _ _).trans a.pools_size

/-! ## Reading -/

/-- The parent of a node. -/
def parent? (a : Arena) (i : Nat) : Option Nat := a.slots[i]?.bind Slot.parent

/-- The payload that is found for a node: the one with its number in the table of its kind. -/
def payload? (a : Arena) (i : Nat) : Option (Form Nat) := do
  let slot ← a.slots[i]?
  let (_, number) ← slot.data
  let p ← slot.kind.pool?
  (a.pool p)[number]?

/-- The numbers of the nodes that the payload of a node lists. -/
def children (a : Arena) (i : Nat) : List Nat := ((a.payload? i).map Form.children).getD []

/-- A node and the nodes around it, innermost first, if these are at most `fuel`. -/
def ancestorsWithin (a : Arena) : (fuel : Nat) → Nat → Option (List Nat)
  | 0, _ => none
  | fuel + 1, i =>
    match a.parent? i with
    | none => some [i]
    | some p => (a.ancestorsWithin fuel p).map fun outer => i :: outer

/-- A node and the nodes around it, innermost first.  There is no result where the walk up does not
end, which is to say that it passes more nodes than there are. -/
def ancestors (a : Arena) (i : Nat) : Option (List Nat) := a.ancestorsWithin (a.size + 1) i

/-- The name that a leaf holds. -/
def identifierText? (a : Arena) (i : Nat) : Option (List Char) := (a.payload? i).bind Form.name?

/-- The names that became leaves, in the order of their numbers. -/
def names (a : Arena) : Array (List Char) :=
  (a.pool .identifiers).map fun form => form.name?.getD []

end Arena

end InlineValues

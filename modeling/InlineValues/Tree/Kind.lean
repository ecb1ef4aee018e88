import InlineValues.Token.Kind

/-!
# Kinds of tree nodes

A node of the syntax tree is either a token that became a leaf or a composite node, and its `Kind`
says which.  Both have numbers: a token kind its own, a composite kind one from `160` on in the
order of the constructors, with `199` left free behind the types.  The types are thereby an
interval, to which `Kind.isType` adds the keyword types and the heritage of a class.
-/

namespace InlineValues

/-- The kinds of composite nodes, in the order of their numbers. -/
inductive NodeKind where
  -- Names, members of classes and members of interfaces.
  | qualifiedName | computedPropertyName | typeParameter | parameter | decorator
  | propertySignature | propertyDeclaration | methodSignature | methodDeclaration | staticBlock
  | constructorDeclaration | getAccessor | setAccessor | callSignature | constructSignature
  | indexSignature
  -- Types.
  | typePredicate | typeReference | functionType | constructorType | typeQuery | typeLiteral
  | arrayType | tupleType | optionalType | restType | unionType | intersectionType
  | conditionalType | inferType | parenthesizedType | thisType | typeOperator | indexedAccessType
  | mappedType | literalType | namedTupleMember | templateLiteralType | templateLiteralTypeSpan
  -- Binding patterns.
  | objectBindingPattern | arrayBindingPattern | bindingElement
  -- Expressions.
  | arrayLiteralExpression | objectLiteralExpression | propertyAccessExpression
  | elementAccessExpression | callExpression | newExpression | taggedTemplateExpression
  | typeAssertion | parenthesizedExpression | functionExpression | arrowFunction
  | deleteExpression | typeOfExpression | voidExpression | awaitExpression
  | prefixUnaryExpression | postfixUnaryExpression | binaryExpression | conditionalExpression
  | templateExpression | yieldExpression | spreadElement | classExpression | omittedExpression
  | expressionWithTypeArguments | asExpression | nonNullExpression | satisfiesExpression
  | templateSpan
  -- Statements and declarations.
  | block | emptyStatement | variableStatement | expressionStatement | ifStatement | doStatement
  | whileStatement | forStatement | forInStatement | forOfStatement | continueStatement
  | breakStatement | returnStatement | withStatement | switchStatement | labeledStatement
  | throwStatement | tryStatement | debuggerStatement | variableDeclaration
  | variableDeclarationList | functionDeclaration | classDeclaration | interfaceDeclaration
  | typeAliasDeclaration | enumDeclaration | moduleDeclaration | moduleBlock | caseBlock
  | importDeclaration | importClause | namespaceImport | namedImports | importSpecifier
  | exportAssignment | exportDeclaration | namedExports | exportSpecifier
  -- Clauses.
  | caseClause | defaultClause | heritageClause | catchClause
  -- Members of object literals and enumerations.
  | propertyAssignment | shorthandPropertyAssignment | spreadAssignment | enumMember
  -- The source file, and a stray semicolon of a class body.
  | sourceFile | semicolonClassElement
  deriving DecidableEq, Repr, Inhabited

namespace NodeKind

/-- Every composite kind, in the order of the numbers. -/
def all : List NodeKind :=
  [qualifiedName, computedPropertyName, typeParameter, parameter, decorator, propertySignature,
    propertyDeclaration, methodSignature, methodDeclaration, staticBlock, constructorDeclaration,
    getAccessor, setAccessor, callSignature, constructSignature, indexSignature, typePredicate,
    typeReference, functionType, constructorType, typeQuery, typeLiteral, arrayType, tupleType,
    optionalType, restType, unionType, intersectionType, conditionalType, inferType,
    parenthesizedType, thisType, typeOperator, indexedAccessType, mappedType, literalType,
    namedTupleMember, templateLiteralType, templateLiteralTypeSpan, objectBindingPattern,
    arrayBindingPattern, bindingElement, arrayLiteralExpression, objectLiteralExpression,
    propertyAccessExpression, elementAccessExpression, callExpression, newExpression,
    taggedTemplateExpression, typeAssertion, parenthesizedExpression, functionExpression,
    arrowFunction, deleteExpression, typeOfExpression, voidExpression, awaitExpression,
    prefixUnaryExpression, postfixUnaryExpression, binaryExpression, conditionalExpression,
    templateExpression, yieldExpression, spreadElement, classExpression, omittedExpression,
    expressionWithTypeArguments, asExpression, nonNullExpression, satisfiesExpression,
    templateSpan, block, emptyStatement, variableStatement, expressionStatement, ifStatement,
    doStatement, whileStatement, forStatement, forInStatement, forOfStatement, continueStatement,
    breakStatement, returnStatement, withStatement, switchStatement, labeledStatement,
    throwStatement, tryStatement, debuggerStatement, variableDeclaration, variableDeclarationList,
    functionDeclaration, classDeclaration, interfaceDeclaration, typeAliasDeclaration,
    enumDeclaration, moduleDeclaration, moduleBlock, caseBlock, importDeclaration, importClause,
    namespaceImport, namedImports, importSpecifier, exportAssignment, exportDeclaration,
    namedExports, exportSpecifier, caseClause, defaultClause, heritageClause, catchClause,
    propertyAssignment, shorthandPropertyAssignment, spreadAssignment, enumMember, sourceFile,
    semicolonClassElement]

/-- The number of a composite kind. -/
def code (kind : NodeKind) : Nat :=
  if kind.ctorIdx ≤ templateLiteralTypeSpan.ctorIdx then kind.ctorIdx + 160 else kind.ctorIdx + 161

/-- The composite kind of a number, if it has one. -/
def ofCode? (n : Nat) : Option NodeKind := all.find? fun kind => kind.code == n

/-- The name under which a composite kind is reported. -/
def name : NodeKind → String
  | qualifiedName => "QualifiedName"
  | computedPropertyName => "ComputedPropertyName"
  | typeParameter => "TypeParameter"
  | parameter => "Parameter"
  | decorator => "Decorator"
  | propertySignature => "PropertySignature"
  | propertyDeclaration => "PropertyDeclaration"
  | methodSignature => "MethodSignature"
  | methodDeclaration => "MethodDeclaration"
  | staticBlock => "ClassStaticBlockDeclaration"
  | constructorDeclaration => "Constructor"
  | getAccessor => "GetAccessor"
  | setAccessor => "SetAccessor"
  | callSignature => "CallSignature"
  | constructSignature => "ConstructSignature"
  | indexSignature => "IndexSignature"
  | typePredicate => "TypePredicate"
  | typeReference => "TypeReference"
  | functionType => "FunctionType"
  | constructorType => "ConstructorType"
  | typeQuery => "TypeQuery"
  | typeLiteral => "TypeLiteral"
  | arrayType => "ArrayType"
  | tupleType => "TupleType"
  | optionalType => "OptionalType"
  | restType => "RestType"
  | unionType => "UnionType"
  | intersectionType => "IntersectionType"
  | conditionalType => "ConditionalType"
  | inferType => "InferType"
  | parenthesizedType => "ParenthesizedType"
  | thisType => "ThisType"
  | typeOperator => "TypeOperator"
  | indexedAccessType => "IndexedAccessType"
  | mappedType => "MappedType"
  | literalType => "LiteralType"
  | namedTupleMember => "NamedTupleMember"
  | templateLiteralType => "TemplateLiteralType"
  | templateLiteralTypeSpan => "TemplateLiteralTypeSpan"
  | objectBindingPattern => "ObjectBindingPattern"
  | arrayBindingPattern => "ArrayBindingPattern"
  | bindingElement => "BindingElement"
  | arrayLiteralExpression => "ArrayLiteralExpression"
  | objectLiteralExpression => "ObjectLiteralExpression"
  | propertyAccessExpression => "PropertyAccessExpression"
  | elementAccessExpression => "ElementAccessExpression"
  | callExpression => "CallExpression"
  | newExpression => "NewExpression"
  | taggedTemplateExpression => "TaggedTemplateExpression"
  | typeAssertion => "TypeAssertionExpression"
  | parenthesizedExpression => "ParenthesizedExpression"
  | functionExpression => "FunctionExpression"
  | arrowFunction => "ArrowFunction"
  | deleteExpression => "DeleteExpression"
  | typeOfExpression => "TypeOfExpression"
  | voidExpression => "VoidExpression"
  | awaitExpression => "AwaitExpression"
  | prefixUnaryExpression => "PrefixUnaryExpression"
  | postfixUnaryExpression => "PostfixUnaryExpression"
  | binaryExpression => "BinaryExpression"
  | conditionalExpression => "ConditionalExpression"
  | templateExpression => "TemplateExpression"
  | yieldExpression => "YieldExpression"
  | spreadElement => "SpreadElement"
  | classExpression => "ClassExpression"
  | omittedExpression => "OmittedExpression"
  | expressionWithTypeArguments => "ExpressionWithTypeArguments"
  | asExpression => "AsExpression"
  | nonNullExpression => "NonNullExpression"
  | satisfiesExpression => "SatisfiesExpression"
  | templateSpan => "TemplateSpan"
  | block => "Block"
  | emptyStatement => "EmptyStatement"
  | variableStatement => "VariableStatement"
  | expressionStatement => "ExpressionStatement"
  | ifStatement => "IfStatement"
  | doStatement => "DoStatement"
  | whileStatement => "WhileStatement"
  | forStatement => "ForStatement"
  | forInStatement => "ForInStatement"
  | forOfStatement => "ForOfStatement"
  | continueStatement => "ContinueStatement"
  | breakStatement => "BreakStatement"
  | returnStatement => "ReturnStatement"
  | withStatement => "WithStatement"
  | switchStatement => "SwitchStatement"
  | labeledStatement => "LabeledStatement"
  | throwStatement => "ThrowStatement"
  | tryStatement => "TryStatement"
  | debuggerStatement => "DebuggerStatement"
  | variableDeclaration => "VariableDeclaration"
  | variableDeclarationList => "VariableDeclarationList"
  | functionDeclaration => "FunctionDeclaration"
  | classDeclaration => "ClassDeclaration"
  | interfaceDeclaration => "InterfaceDeclaration"
  | typeAliasDeclaration => "TypeAliasDeclaration"
  | enumDeclaration => "EnumDeclaration"
  | moduleDeclaration => "ModuleDeclaration"
  | moduleBlock => "ModuleBlock"
  | caseBlock => "CaseBlock"
  | importDeclaration => "ImportDeclaration"
  | importClause => "ImportClause"
  | namespaceImport => "NamespaceImport"
  | namedImports => "NamedImports"
  | importSpecifier => "ImportSpecifier"
  | exportAssignment => "ExportAssignment"
  | exportDeclaration => "ExportDeclaration"
  | namedExports => "NamedExports"
  | exportSpecifier => "ExportSpecifier"
  | caseClause => "CaseClause"
  | defaultClause => "DefaultClause"
  | heritageClause => "HeritageClause"
  | catchClause => "CatchClause"
  | propertyAssignment => "PropertyAssignment"
  | shorthandPropertyAssignment => "ShorthandPropertyAssignment"
  | spreadAssignment => "SpreadAssignment"
  | enumMember => "EnumMember"
  | sourceFile => "SourceFile"
  | semicolonClassElement => "SemicolonClassElement"

/-- The kinds between the first and the last of the types. -/
def isTypeForm (kind : NodeKind) : Bool :=
  typePredicate.code ≤ kind.code && kind.code ≤ templateLiteralTypeSpan.code

/-- Functions of every sort, with or without a body. -/
def isFunctionLike : NodeKind → Bool
  | functionDeclaration | functionExpression | arrowFunction | methodDeclaration
  | constructorDeclaration | getAccessor | setAccessor => true
  | _ => false

end NodeKind

/-- The kind of a node: that of a token or that of a composite node. -/
inductive Kind where
  | token (kind : TokenKind)
  | node (kind : NodeKind)
  deriving DecidableEq, Repr, Inhabited

namespace Kind

/-- The number of a kind. -/
def code : Kind → Nat
  | token kind => kind.code
  | node kind => kind.code

/-- The kind of a number, if it has one. -/
def ofCode? (n : Nat) : Option Kind :=
  match TokenKind.ofCode? n with
  | some kind => some (token kind)
  | none => (NodeKind.ofCode? n).map node

/-- The name under which a kind is reported. -/
def name : Kind → String
  | token kind => kind.name
  | node kind => kind.name

/-- The name under which the kind of a number is reported; an unused number is spelled out. -/
def nameOfCode (n : Nat) : String :=
  match ofCode? n with
  | some kind => kind.name
  | none => "Kind(" ++ toString n ++ ")"

/-- Keyword types, such as `number`. -/
def isKeywordType : TokenKind → Bool
  | .anyKeyword | .unknownKeyword | .numberKeyword | .bigIntKeyword | .objectKeyword
  | .booleanKeyword | .stringKeyword | .symbolKeyword | .voidKeyword | .undefinedKeyword
  | .neverKeyword => true
  | _ => false

/-- Nodes in type position, keyword types and heritage included. -/
def isType : Kind → Bool
  | token kind => isKeywordType kind
  | node kind => kind.isTypeForm || kind == .expressionWithTypeArguments

/-- Functions of every sort. -/
def isFunctionLike : Kind → Bool
  | token _ => false
  | node kind => kind.isFunctionLike

/-- Leaves that are tokens. -/
def isToken : Kind → Bool
  | token _ => true
  | node _ => false

end Kind

end InlineValues

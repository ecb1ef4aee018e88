import InlineValues.Tree.Kind

/-!
# Forms of tree nodes

A `Node` of the syntax tree is a range of the source text together with a `Form`: what stands there
and which nodes it is made of.  `Form` takes the type of these parts as a parameter, so that the
same shapes serve for a tree, where the parts are nodes, and for a table of its nodes, where they
are numbers.

The tree is what remains of a text also when the text is not a program.  A part that the grammar
asks for may therefore be missing, which is what `Option` says here as well as for parts that may
be left out.  A part without `Option` is always there.

A range begins with the trivia in front of the first token and ends with the last token.
-/

namespace InlineValues

/-- A list of nodes, with its range and whether a comma follows the last one. -/
structure Sequence (α : Type) where
  items : List α
  pos : Nat
  stop : Nat
  trailingComma : Bool := false

/-- The keywords that are written in front of an operand. -/
inductive KeywordOperator where
  | delete
  | typeOf
  | void
  | await
  deriving DecidableEq, Repr

/-- The keywords that introduce variables. -/
inductive VariableKeyword where
  | var
  | let
  | const
  | using
  | awaitUsing
  deriving DecidableEq, Repr

/-! ## Parts that several forms share -/

/-- The parts of a function. -/
structure FunctionParts (α : Type) where
  modifiers : Option (Sequence α)
  isAsync : Bool
  isGenerator : Bool
  name : Option α
  typeParameters : Option (Sequence α)
  parameters : Sequence α
  returnType : Option α
  body : Option α

/-- The parts of a class or an interface. -/
structure ClassParts (α : Type) where
  modifiers : Option (Sequence α)
  name : Option α
  typeParameters : Option (Sequence α)
  heritage : Option (Sequence α)
  members : Sequence α

/-- The type parameters, parameters and result type of something that can be called. -/
structure SignatureParts (α : Type) where
  typeParameters : Option (Sequence α)
  parameters : Sequence α
  returnType : Option α

/-- The parts of a property of a class. -/
structure PropertyParts (α : Type) where
  modifiers : Option (Sequence α)
  name : α
  optional : Bool
  definite : Bool
  declaredType : Option α
  initializer : Option α

/-- The parts of a method. -/
structure MethodParts (α : Type) where
  modifiers : Option (Sequence α)
  isGenerator : Bool
  name : α
  optional : Bool
  signature : SignatureParts α
  body : Option α

/-- The parts of a getter or a setter. -/
structure AccessorParts (α : Type) where
  modifiers : Option (Sequence α)
  name : Option α
  signature : SignatureParts α
  body : Option α

/-- The parts of a parameter. -/
structure ParameterParts (α : Type) where
  modifiers : Option (Sequence α)
  isRest : Bool
  name : Option α
  optional : Bool
  declaredType : Option α
  initializer : Option α

/-- The parts of a mapped type.  A mark is a sign, or the keyword or `?` itself. -/
structure MappedTypeParts (α : Type) where
  readonlyMark : Option TokenKind
  parameter : α
  nameType : Option α
  optionalMark : Option TokenKind
  valueType : Option α

/-! ## Forms -/

/-- What stands at a place of the source text. -/
inductive Form (α : Type) where
  -- Leaves.
  | token (kind : TokenKind)
  | identifier (text : List Char)
  | privateIdentifier (text : List Char)
  | literal (kind : TokenKind) (text : List Char)
  | omittedExpression
  | emptyStatement
  | debuggerStatement
  | semicolonClassElement
  | thisType
  -- Names.
  | qualifiedName (left : α) (right : Option α)
  | computedPropertyName (expression : Option α)
  | decorator (expression : Option α)
  -- Expressions.
  | binary (left : α) (operator : TokenKind) (right : Option α)
  | prefixUnary (operator : TokenKind) (operand : Option α)
  | postfixUnary (operand : α) (operator : TokenKind)
  | keywordUnary (operator : KeywordOperator) (operand : Option α)
  | yield (delegates : Bool) (expression : Option α)
  | spreadElement (expression : Option α)
  | nonNull (expression : α)
  | call (callee : α) (optional : Bool) (typeArguments : Option (Sequence α))
      (arguments : Sequence α)
  | new (callee : Option α) (typeArguments arguments : Option (Sequence α))
  | propertyAccess (object : α) (optional : Bool) (name : Option α)
  | elementAccess (object : α) (optional : Bool) (index : Option α)
  | conditional (condition : α) (whenTrue whenFalse : Option α)
  | arrayLiteral (elements : Sequence α) (multiLine : Bool)
  | objectLiteral (elements : Sequence α) (multiLine : Bool)
  | parenthesized (expression : Option α)
  | typeAssertion (type expression : Option α)
  | asExpression (expression : α) (type : Option α)
  | satisfies (expression : α) (type : Option α)
  | template (head : α) (spans : Sequence α)
  | templateSpan (expression : Option α) (literal : α)
  | taggedTemplate (tag : α) (typeArguments : Option (Sequence α)) (template : α) (chained : Bool)
  | functionExpression (parts : FunctionParts α)
  | arrowFunction (parts : FunctionParts α)
  | classExpression (parts : ClassParts α)
  -- Members of object literals.
  | propertyAssignment (name : α) (initializer : Option α)
  | shorthandPropertyAssignment (name : α) (initializer : Option α)
  | spreadAssignment (expression : Option α)
  -- Declarations.
  | functionDeclaration (parts : FunctionParts α)
  | classDeclaration (parts : ClassParts α)
  | interfaceDeclaration (parts : ClassParts α)
  | typeAlias (modifiers : Option (Sequence α)) (name : Option α)
      (typeParameters : Option (Sequence α)) (type : Option α)
  | enumDeclaration (modifiers : Option (Sequence α)) (name : Option α) (members : Sequence α)
  | enumMember (name : α) (initializer : Option α)
  | moduleDeclaration (modifiers : Option (Sequence α)) (name body : Option α)
  -- Members of classes and interfaces.
  | staticBlock (body : α)
  | propertyDeclaration (parts : PropertyParts α)
  | methodDeclaration (parts : MethodParts α)
  | constructorDeclaration (modifiers : Option (Sequence α))
      (typeParameters : Option (Sequence α)) (parameters : Sequence α) (body : Option α)
  | getAccessor (parts : AccessorParts α)
  | setAccessor (parts : AccessorParts α)
  | propertySignature (modifiers : Option (Sequence α)) (name : α) (optional : Bool)
      (type : Option α)
  | methodSignature (modifiers : Option (Sequence α)) (name : α) (optional : Bool)
      (signature : SignatureParts α)
  | callSignature (signature : SignatureParts α)
  | constructSignature (signature : SignatureParts α)
  | indexSignature (modifiers : Option (Sequence α)) (parameters : Sequence α) (type : Option α)
  | parameter (parts : ParameterParts α)
  | typeParameter (modifiers : Option (Sequence α)) (name constraint defaultType : Option α)
  | heritageClause (keyword : TokenKind) (types : Sequence α)
  | expressionWithTypeArguments (expression : α) (typeArguments : Option (Sequence α))
  -- Statements.
  | block (statements : Sequence α) (multiLine : Bool)
  | moduleBlock (statements : Sequence α)
  | caseBlock (clauses : Sequence α)
  | variableStatement (modifiers : Option (Sequence α)) (declarations : α)
  | variableDeclarationList (keyword : VariableKeyword) (declarations : Sequence α)
  | variableDeclaration (name : Option α) (definite : Bool) (type initializer : Option α)
  | expressionStatement (expression : α)
  | ifStatement (condition thenBranch elseBranch : Option α)
  | doStatement (body condition : Option α)
  | whileStatement (condition body : Option α)
  | forStatement (initializer condition incrementor body : Option α)
  | forInStatement (initializer expression body : Option α)
  | forOfStatement (isAwait : Bool) (initializer expression body : Option α)
  | breakStatement (label : Option α)
  | continueStatement (label : Option α)
  | returnStatement (expression : Option α)
  | throwStatement (expression : Option α)
  | withStatement (object body : Option α)
  | switchStatement (expression : Option α) (cases : α)
  | caseClause (expression : Option α) (statements : Sequence α)
  | defaultClause (statements : Sequence α)
  | labeledStatement (label : α) (body : Option α)
  | tryStatement (block : α) (catchClause finallyBlock : Option α)
  | catchClause (binding : Option α) (block : α)
  -- Binding patterns.
  | objectBindingPattern (elements : Sequence α)
  | arrayBindingPattern (elements : Sequence α)
  | bindingElement (isRest : Bool) (propertyName name initializer : Option α)
  -- Types.
  | typeReference (name : Option α) (typeArguments : Option (Sequence α))
  | unionType (types : Sequence (Option α))
  | intersectionType (types : Sequence (Option α))
  | functionType (signature : SignatureParts α)
  | constructorType (isAbstract : Bool) (signature : SignatureParts α)
  | typeQuery (name : Option α) (typeArguments : Option (Sequence α))
  | typeLiteral (members : Sequence α)
  | arrayType (element : α)
  | tupleType (elements : Sequence α)
  | optionalType (type : α)
  | restType (type : Option α)
  | parenthesizedType (type : Option α)
  | conditionalType (check : α) (bound whenTrue whenFalse : Option α)
  | inferType (parameter : α)
  | typeOperator (operator : TokenKind) (type : Option α)
  | indexedAccessType (object : α) (index : Option α)
  | mappedType (parts : MappedTypeParts α)
  | literalType (literal : α)
  | namedTupleMember (isRest : Bool) (name : Option α) (optional : Bool) (type : Option α)
  | templateLiteralType (head : α) (spans : Sequence α)
  | templateLiteralTypeSpan (type : Option α) (literal : α)
  | typePredicate (asserts : Bool) (parameter type : Option α)
  -- Imports and exports.
  | importDeclaration (clause specifier : Option α)
  | importClause (typeOnly : Bool) (name bindings : Option α)
  | namespaceImport (name : Option α)
  | namedImports (elements : Sequence α)
  | namedExports (elements : Sequence α)
  | importSpecifier (typeOnly : Bool) (propertyName name : Option α)
  | exportSpecifier (typeOnly : Bool) (propertyName name : Option α)
  | exportDeclaration (modifiers : Option (Sequence α)) (typeOnly : Bool)
      (clause specifier : Option α)
  | exportAssignment (modifiers : Option (Sequence α)) (isEquals : Bool) (expression : Option α)
  -- The whole text.
  | sourceFile (fileName : String) (statements : Sequence α) (endOfFile : α)

/-- Where a node comes from: the offset at which it starts, and its number among the nodes of the
text. -/
structure Origin where
  pos : Nat
  index : Nat
  deriving DecidableEq, Repr

/-- The origin of a node that belongs to no text. -/
instance (pos : Nat) : OfNat Origin pos := ⟨⟨pos, 0⟩⟩

/-- A node of the syntax tree: a range of the source text and what stands there. -/
structure Node extends Origin where
  stop : Nat
  form : Form Node

end InlineValues

import InlineValues.Tree.Form

/-!
# Forms over other parts

`Form.map` puts another part in the place of every part of a form and keeps everything else.  With
it the form of a node becomes the record of a table, where the parts are the numbers of the nodes.
-/

namespace InlineValues

variable {α β : Type}

/-! ## The shared parts -/

/-- Replace a part that may be missing. -/
@[noinline] def mapPart (f : α → β) (o : Option α) : Option β := o.map f

/-- Replace the items of a list. -/
@[noinline] def Sequence.map (f : α → β) (s : Sequence α) : Sequence β :=
  { s with items := s.items.map f }

/-- Replace the items of a list that may be left out. -/
@[noinline] def mapItems (f : α → β) (o : Option (Sequence α)) : Option (Sequence β) :=
  o.map (Sequence.map f)

/-- Replace the parts of a function. -/
@[noinline] def FunctionParts.map (f : α → β) (p : FunctionParts α) : FunctionParts β where
  modifiers := mapItems f p.modifiers
  isAsync := p.isAsync
  isGenerator := p.isGenerator
  name := mapPart f p.name
  typeParameters := mapItems f p.typeParameters
  parameters := p.parameters.map f
  returnType := mapPart f p.returnType
  body := mapPart f p.body

/-- Replace the parts of a class. -/
@[noinline] def ClassParts.map (f : α → β) (p : ClassParts α) : ClassParts β where
  modifiers := mapItems f p.modifiers
  name := mapPart f p.name
  typeParameters := mapItems f p.typeParameters
  heritage := mapItems f p.heritage
  members := p.members.map f

/-- Replace the parts of a signature. -/
@[noinline] def SignatureParts.map (f : α → β) (p : SignatureParts α) : SignatureParts β where
  typeParameters := mapItems f p.typeParameters
  parameters := p.parameters.map f
  returnType := mapPart f p.returnType

/-- Replace the parts of a property. -/
@[noinline] def PropertyParts.map (f : α → β) (p : PropertyParts α) : PropertyParts β where
  modifiers := mapItems f p.modifiers
  name := f p.name
  optional := p.optional
  definite := p.definite
  declaredType := mapPart f p.declaredType
  initializer := mapPart f p.initializer

/-- Replace the parts of a method. -/
@[noinline] def MethodParts.map (f : α → β) (p : MethodParts α) : MethodParts β where
  modifiers := mapItems f p.modifiers
  isGenerator := p.isGenerator
  name := f p.name
  optional := p.optional
  signature := p.signature.map f
  body := mapPart f p.body

/-- Replace the parts of an accessor. -/
@[noinline] def AccessorParts.map (f : α → β) (p : AccessorParts α) : AccessorParts β where
  modifiers := mapItems f p.modifiers
  name := mapPart f p.name
  signature := p.signature.map f
  body := mapPart f p.body

/-- Replace the parts of a parameter. -/
@[noinline] def ParameterParts.map (f : α → β) (p : ParameterParts α) : ParameterParts β where
  modifiers := mapItems f p.modifiers
  isRest := p.isRest
  name := mapPart f p.name
  optional := p.optional
  declaredType := mapPart f p.declaredType
  initializer := mapPart f p.initializer

/-- Replace the parts of a mapped type. -/
@[noinline] def MappedTypeParts.map (f : α → β) (p : MappedTypeParts α) : MappedTypeParts β where
  readonlyMark := p.readonlyMark
  parameter := f p.parameter
  nameType := mapPart f p.nameType
  optionalMark := p.optionalMark
  valueType := mapPart f p.valueType

/-! ## Forms -/

/-- Replace the parts of a form. -/
def Form.map (f : α → β) : Form α → Form β
  | .token kind => .token kind
  | .identifier text => .identifier text
  | .privateIdentifier text => .privateIdentifier text
  | .literal kind text => .literal kind text
  | .omittedExpression => .omittedExpression
  | .emptyStatement => .emptyStatement
  | .debuggerStatement => .debuggerStatement
  | .semicolonClassElement => .semicolonClassElement
  | .thisType => .thisType
  | .qualifiedName left right => .qualifiedName (f left) (mapPart f right)
  | .computedPropertyName expression => .computedPropertyName (mapPart f expression)
  | .decorator expression => .decorator (mapPart f expression)
  | .binary left operator right => .binary (f left) operator (mapPart f right)
  | .prefixUnary operator operand => .prefixUnary operator (mapPart f operand)
  | .postfixUnary operand operator => .postfixUnary (f operand) operator
  | .keywordUnary operator operand => .keywordUnary operator (mapPart f operand)
  | .yield delegates expression => .yield delegates (mapPart f expression)
  | .spreadElement expression => .spreadElement (mapPart f expression)
  | .nonNull expression => .nonNull (f expression)
  | .call callee optional typeArguments arguments =>
    .call (f callee) optional (mapItems f typeArguments) (arguments.map f)
  | .new callee typeArguments arguments =>
    .new (mapPart f callee) (mapItems f typeArguments) (mapItems f arguments)
  | .propertyAccess object optional name => .propertyAccess (f object) optional (mapPart f name)
  | .elementAccess object optional index => .elementAccess (f object) optional (mapPart f index)
  | .conditional condition whenTrue whenFalse =>
    .conditional (f condition) (mapPart f whenTrue) (mapPart f whenFalse)
  | .arrayLiteral elements multiLine => .arrayLiteral (elements.map f) multiLine
  | .objectLiteral elements multiLine => .objectLiteral (elements.map f) multiLine
  | .parenthesized expression => .parenthesized (mapPart f expression)
  | .typeAssertion type expression => .typeAssertion (mapPart f type) (mapPart f expression)
  | .asExpression expression type => .asExpression (f expression) (mapPart f type)
  | .satisfies expression type => .satisfies (f expression) (mapPart f type)
  | .template head spans => .template (f head) (spans.map f)
  | .templateSpan expression piece => .templateSpan (mapPart f expression) (f piece)
  | .taggedTemplate tag typeArguments body chained =>
    .taggedTemplate (f tag) (mapItems f typeArguments) (f body) chained
  | .functionExpression parts => .functionExpression (parts.map f)
  | .arrowFunction parts => .arrowFunction (parts.map f)
  | .classExpression parts => .classExpression (parts.map f)
  | .propertyAssignment name initializer => .propertyAssignment (f name) (mapPart f initializer)
  | .shorthandPropertyAssignment name initializer =>
    .shorthandPropertyAssignment (f name) (mapPart f initializer)
  | .spreadAssignment expression => .spreadAssignment (mapPart f expression)
  | .functionDeclaration parts => .functionDeclaration (parts.map f)
  | .classDeclaration parts => .classDeclaration (parts.map f)
  | .interfaceDeclaration parts => .interfaceDeclaration (parts.map f)
  | .typeAlias modifiers name typeParameters type =>
    .typeAlias (mapItems f modifiers) (mapPart f name) (mapItems f typeParameters) (mapPart f type)
  | .enumDeclaration modifiers name members =>
    .enumDeclaration (mapItems f modifiers) (mapPart f name) (members.map f)
  | .enumMember name initializer => .enumMember (f name) (mapPart f initializer)
  | .moduleDeclaration modifiers name body =>
    .moduleDeclaration (mapItems f modifiers) (mapPart f name) (mapPart f body)
  | .staticBlock body => .staticBlock (f body)
  | .propertyDeclaration parts => .propertyDeclaration (parts.map f)
  | .methodDeclaration parts => .methodDeclaration (parts.map f)
  | .constructorDeclaration modifiers typeParameters parameters body =>
    .constructorDeclaration (mapItems f modifiers) (mapItems f typeParameters) (parameters.map f)
      (mapPart f body)
  | .getAccessor parts => .getAccessor (parts.map f)
  | .setAccessor parts => .setAccessor (parts.map f)
  | .propertySignature modifiers name optional type =>
    .propertySignature (mapItems f modifiers) (f name) optional (mapPart f type)
  | .methodSignature modifiers name optional signature =>
    .methodSignature (mapItems f modifiers) (f name) optional (signature.map f)
  | .callSignature signature => .callSignature (signature.map f)
  | .constructSignature signature => .constructSignature (signature.map f)
  | .indexSignature modifiers parameters type =>
    .indexSignature (mapItems f modifiers) (parameters.map f) (mapPart f type)
  | .parameter parts => .parameter (parts.map f)
  | .typeParameter modifiers name constraint defaultType =>
    .typeParameter (mapItems f modifiers) (mapPart f name) (mapPart f constraint)
      (mapPart f defaultType)
  | .heritageClause keyword types => .heritageClause keyword (types.map f)
  | .expressionWithTypeArguments expression typeArguments =>
    .expressionWithTypeArguments (f expression) (mapItems f typeArguments)
  | .block statements multiLine => .block (statements.map f) multiLine
  | .moduleBlock statements => .moduleBlock (statements.map f)
  | .caseBlock clauses => .caseBlock (clauses.map f)
  | .variableStatement modifiers declarations =>
    .variableStatement (mapItems f modifiers) (f declarations)
  | .variableDeclarationList keyword declarations =>
    .variableDeclarationList keyword (declarations.map f)
  | .variableDeclaration name definite type initializer =>
    .variableDeclaration (mapPart f name) definite (mapPart f type) (mapPart f initializer)
  | .expressionStatement expression => .expressionStatement (f expression)
  | .ifStatement condition thenBranch elseBranch =>
    .ifStatement (mapPart f condition) (mapPart f thenBranch) (mapPart f elseBranch)
  | .doStatement body condition => .doStatement (mapPart f body) (mapPart f condition)
  | .whileStatement condition body => .whileStatement (mapPart f condition) (mapPart f body)
  | .forStatement initializer condition incrementor body =>
    .forStatement (mapPart f initializer) (mapPart f condition) (mapPart f incrementor)
      (mapPart f body)
  | .forInStatement initializer expression body =>
    .forInStatement (mapPart f initializer) (mapPart f expression) (mapPart f body)
  | .forOfStatement isAwait initializer expression body =>
    .forOfStatement isAwait (mapPart f initializer) (mapPart f expression) (mapPart f body)
  | .breakStatement label => .breakStatement (mapPart f label)
  | .continueStatement label => .continueStatement (mapPart f label)
  | .returnStatement expression => .returnStatement (mapPart f expression)
  | .throwStatement expression => .throwStatement (mapPart f expression)
  | .withStatement object body => .withStatement (mapPart f object) (mapPart f body)
  | .switchStatement expression cases => .switchStatement (mapPart f expression) (f cases)
  | .caseClause expression statements => .caseClause (mapPart f expression) (statements.map f)
  | .defaultClause statements => .defaultClause (statements.map f)
  | .labeledStatement label body => .labeledStatement (f label) (mapPart f body)
  | .tryStatement body handler finallyBlock =>
    .tryStatement (f body) (mapPart f handler) (mapPart f finallyBlock)
  | .catchClause binding body => .catchClause (mapPart f binding) (f body)
  | .objectBindingPattern elements => .objectBindingPattern (elements.map f)
  | .arrayBindingPattern elements => .arrayBindingPattern (elements.map f)
  | .bindingElement isRest propertyName name initializer =>
    .bindingElement isRest (mapPart f propertyName) (mapPart f name) (mapPart f initializer)
  | .typeReference name typeArguments => .typeReference (mapPart f name) (mapItems f typeArguments)
  | .unionType types => .unionType (types.map (mapPart f))
  | .intersectionType types => .intersectionType (types.map (mapPart f))
  | .functionType signature => .functionType (signature.map f)
  | .constructorType isAbstract signature => .constructorType isAbstract (signature.map f)
  | .typeQuery name typeArguments => .typeQuery (mapPart f name) (mapItems f typeArguments)
  | .typeLiteral members => .typeLiteral (members.map f)
  | .arrayType element => .arrayType (f element)
  | .tupleType elements => .tupleType (elements.map f)
  | .optionalType type => .optionalType (f type)
  | .restType type => .restType (mapPart f type)
  | .parenthesizedType type => .parenthesizedType (mapPart f type)
  | .conditionalType check bound whenTrue whenFalse =>
    .conditionalType (f check) (mapPart f bound) (mapPart f whenTrue) (mapPart f whenFalse)
  | .inferType bound => .inferType (f bound)
  | .typeOperator operator type => .typeOperator operator (mapPart f type)
  | .indexedAccessType object index => .indexedAccessType (f object) (mapPart f index)
  | .mappedType parts => .mappedType (parts.map f)
  | .literalType piece => .literalType (f piece)
  | .namedTupleMember isRest name optional type =>
    .namedTupleMember isRest (mapPart f name) optional (mapPart f type)
  | .templateLiteralType head spans => .templateLiteralType (f head) (spans.map f)
  | .templateLiteralTypeSpan type piece => .templateLiteralTypeSpan (mapPart f type) (f piece)
  | .typePredicate asserts bound type => .typePredicate asserts (mapPart f bound) (mapPart f type)
  | .importDeclaration clause specifier =>
    .importDeclaration (mapPart f clause) (mapPart f specifier)
  | .importClause typeOnly name bindings =>
    .importClause typeOnly (mapPart f name) (mapPart f bindings)
  | .namespaceImport name => .namespaceImport (mapPart f name)
  | .namedImports elements => .namedImports (elements.map f)
  | .namedExports elements => .namedExports (elements.map f)
  | .importSpecifier typeOnly propertyName name =>
    .importSpecifier typeOnly (mapPart f propertyName) (mapPart f name)
  | .exportSpecifier typeOnly propertyName name =>
    .exportSpecifier typeOnly (mapPart f propertyName) (mapPart f name)
  | .exportDeclaration modifiers typeOnly clause specifier =>
    .exportDeclaration (mapItems f modifiers) typeOnly (mapPart f clause) (mapPart f specifier)
  | .exportAssignment modifiers isEquals expression =>
    .exportAssignment (mapItems f modifiers) isEquals (mapPart f expression)
  | .sourceFile fileName statements endOfFile =>
    .sourceFile fileName (statements.map f) (f endOfFile)

end InlineValues

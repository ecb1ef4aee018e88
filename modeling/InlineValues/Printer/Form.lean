import InlineValues.Printer.Declaration
import InlineValues.Printer.Function
import InlineValues.Printer.Literal

/-!
# Printing every form

`printNode` says how a node is printed, given how its parts are.  Spacing is canonical and does not
follow the source text.  Brackets are printed where the source has them, which is what parenthesized
nodes are for, so that nothing is said here about precedence; only two signs that would fuse with
each other are kept apart.
-/

namespace InlineValues

/-- The keyword or keywords that introduce variables. -/
def VariableKeyword.spelling : VariableKeyword → String
  | var => "var"
  | .let => "let"
  | const => "const"
  | .using => "using"
  | awaitUsing => "await using"

/-- Whether a sign would fuse with the sign that its operand starts with. -/
def fuses (operator : TokenKind) : (operand : Option Node) → Bool
  | some ⟨_, _, .prefixUnary inner _⟩ =>
    match operator, inner with
    | .plus, .plus | .plus, .plusPlus | .minus, .minus | .minus, .minusMinus => true
    | _, _ => false
  | _ => false

/-- The operator of a binary expression, with blanks around it; a comma has none in front. -/
def printOperator (operator : TokenKind) : List Mark :=
  if operator == .comma then write ", " else write " " ++ spelled operator ++ write " "

/-- The sign in front of a mark of a mapped type. -/
def printSign (mark : TokenKind) : List Mark :=
  if mark == .plus || mark == .minus then spelled mark else []

/-- What stands in the brackets of a mapped type: a name and what it ranges over. -/
def printMappedParameter (emit : Emit) (parameter : Node) : List Mark :=
  match parameter.form with
  | .typeParameter _ name constraint _ => emit name ++ write " in " ++ emit constraint
  | _ => []

/-- A mapped type. -/
def printMappedType (emit : Emit) (parts : MappedTypeParts Node) : List Mark :=
  write "\x7b " ++
    (match parts.readonlyMark with
      | some mark => printSign mark ++ write "readonly "
      | none => []) ++
    write "[" ++ printMappedParameter emit parts.parameter ++ preceded " as " emit parts.nameType ++
    write "]" ++
    (match parts.optionalMark with
      | some mark => printSign mark ++ write "?"
      | none => []) ++
    annotation emit parts.valueType ++ write "; \x7d"

/-- A type in front of which stand its modifiers and the keyword that makes it a constructor. -/
def printFunctionType (emit : Emit) (keywords : String) (parts : SignatureParts Node) :
    List Mark :=
  write keywords ++ angledList emit parts.typeParameters ++
    parenthesizedList emit parts.parameters ++ write " => " ++ emit parts.returnType

/-- A name in an import or an export. -/
def printSpecifier (emit : Emit) (typeOnly : Bool) (propertyName name : Option Node) : List Mark :=
  writeIf typeOnly "type " ++
    (match propertyName with
      | some n => emit n ++ write " as "
      | none => []) ++
    emit name

/-- A node, given a printer for its parts. -/
def printNode (c : PrintContext) (emit : Emit) (n : Node) : List Mark :=
  match n.form with
  -- Leaves.
  | .token kind => printLeaf c n kind []
  | .identifier text => [.text text]
  | .privateIdentifier text => [.text text]
  | .literal kind text => printLeaf c n kind text
  | .omittedExpression => []
  | .emptyStatement => write ";"
  | .debuggerStatement => write "debugger" ++ [.semicolon]
  | .semicolonClassElement => write ";"
  | .thisType => write "this"
  -- Names.
  | .qualifiedName left right => emit left ++ write "." ++ emit right
  | .computedPropertyName expression => write "[" ++ emit expression ++ write "]"
  | .decorator expression => write "@" ++ emit expression
  -- Expressions.
  | .binary left operator right => emit left ++ printOperator operator ++ emit right
  | .prefixUnary operator operand =>
    spelled operator ++ writeIf (fuses operator operand) " " ++ emit operand
  | .postfixUnary operand operator => emit operand ++ spelled operator
  | .keywordUnary operator operand => spelled operator.token ++ write " " ++ emit operand
  | .yield delegates expression =>
    write "yield" ++ writeIf delegates "*" ++ preceded " " emit expression
  | .spreadElement expression => write "..." ++ emit expression
  | .nonNull expression => emit expression ++ write "!"
  | .call callee optional typeArguments arguments =>
    emit callee ++ writeIf optional "?." ++ angledList emit typeArguments ++
      parenthesizedList emit arguments
  | .new callee typeArguments arguments =>
    write "new " ++ emit callee ++ angledList emit typeArguments ++
      (match arguments with
        | some arguments => parenthesizedList emit arguments
        | none => [])
  | .propertyAccess object optional name =>
    emit object ++ write (if optional then "?." else ".") ++ emit name
  | .elementAccess object optional index =>
    emit object ++ write (if optional then "?.[" else "[") ++ emit index ++ write "]"
  | .conditional condition whenTrue whenFalse =>
    emit condition ++ write " ? " ++ emit whenTrue ++ write " : " ++ emit whenFalse
  | .arrayLiteral elements _ => bracketedList emit elements
  | .objectLiteral elements _ => bracedList emit elements
  | .parenthesized expression => write "(" ++ emit expression ++ write ")"
  | .typeAssertion type expression => write "<" ++ emit type ++ write ">" ++ emit expression
  | .asExpression expression type => emit expression ++ write " as " ++ emit type
  | .satisfies expression type => emit expression ++ write " satisfies " ++ emit type
  | .template head spans => emit head ++ spans.items.flatMap fun n => emit (some n)
  | .templateSpan expression piece => emit expression ++ emit piece
  | .taggedTemplate tag typeArguments body _ =>
    emit tag ++ angledList emit typeArguments ++ emit body
  | .functionExpression parts => printFunction emit parts
  | .arrowFunction parts => printArrow emit n.pos parts
  | .classExpression parts => printClass emit parts
  -- Members of object literals.
  | .propertyAssignment name initializer => emit name ++ write ": " ++ emit initializer
  | .shorthandPropertyAssignment name initializer => emit name ++ initialized emit initializer
  | .spreadAssignment expression => write "..." ++ emit expression
  -- Declarations.
  | .functionDeclaration parts => printFunction emit parts
  | .classDeclaration parts => printClass emit parts
  | .interfaceDeclaration parts => printInterface emit parts
  | .typeAlias modifiers name typeParameters type =>
    modified emit modifiers ++ write "type " ++ emit name ++ angledList emit typeParameters ++
      write " = " ++ emit type ++ [.semicolon]
  | .enumDeclaration modifiers name members =>
    modified emit modifiers ++ write "enum " ++ emit name ++ write " \x7b" ++
      printEnumMembers emit members.trailingComma members.items ++ [.line] ++ write "\x7d"
  | .enumMember name initializer => emit name ++ initialized emit initializer
  | .moduleDeclaration modifiers name body => printModule c emit modifiers name body
  -- Members of classes and interfaces.
  | .staticBlock body => write "static " ++ emit body
  | .propertyDeclaration parts => printProperty emit parts
  | .methodDeclaration parts => printMethod emit parts
  | .constructorDeclaration modifiers typeParameters parameters body =>
    modified emit modifiers ++ write "constructor" ++
      printSignature emit ⟨typeParameters, parameters, none⟩ ++ printBody emit body
  | .getAccessor parts => printAccessor emit "get " parts
  | .setAccessor parts => printAccessor emit "set " parts
  | .propertySignature modifiers name optional type =>
    modified emit modifiers ++ emit name ++ writeIf optional "?" ++ annotation emit type ++
      [.semicolon]
  | .methodSignature modifiers name optional signature =>
    modified emit modifiers ++ emit name ++ writeIf optional "?" ++
      printSignature emit signature ++ [.semicolon]
  | .callSignature signature => printSignature emit signature ++ [.semicolon]
  | .constructSignature signature =>
    write "new " ++ printSignature emit signature ++ [.semicolon]
  | .indexSignature modifiers parameters type =>
    modified emit modifiers ++ write "[" ++ commaSeparated emit parameters.items ++ write "]" ++
      annotation emit type ++ [.semicolon]
  | .parameter parts => printParameter emit parts
  | .typeParameter modifiers name constraint defaultType =>
    modified emit modifiers ++ emit name ++ preceded " extends " emit constraint ++
      preceded " = " emit defaultType
  | .heritageClause keyword types =>
    write (if keyword == .implementsKeyword then "implements " else "extends ") ++
      commaSeparated emit types.items
  | .expressionWithTypeArguments expression typeArguments =>
    emit expression ++ angledList emit typeArguments
  -- Statements.
  | .block statements _ => bracedStatements c emit statements
  | .moduleBlock statements => bracedStatements c emit statements
  | .caseBlock clauses => bracedStatements c emit clauses
  | .variableStatement modifiers declarations =>
    modified emit modifiers ++ emit declarations ++ [.semicolon]
  | .variableDeclarationList keyword declarations =>
    write keyword.spelling ++ write " " ++ commaSeparated emit declarations.items
  | .variableDeclaration name definite type initializer =>
    emit name ++ writeIf definite "!" ++ annotation emit type ++ initialized emit initializer
  | .expressionStatement expression => emit expression ++ [.semicolon]
  | .ifStatement condition thenBranch elseBranch =>
    write "if (" ++ emit condition ++ write ")" ++ embedded emit thenBranch ++
      (match elseBranch with
        | some n => [.line] ++ write "else" ++ embedded emit n
        | none => [])
  | .doStatement body condition =>
    write "do" ++ embedded emit body ++ [.line] ++ write "while (" ++ emit condition ++
      write ")" ++ [.semicolon]
  | .whileStatement condition body =>
    write "while (" ++ emit condition ++ write ")" ++ embedded emit body
  | .forStatement initializer condition incrementor body =>
    write "for (" ++ emit initializer ++ write ";" ++ preceded " " emit condition ++ write ";" ++
      preceded " " emit incrementor ++ write ")" ++ embedded emit body
  | .forInStatement initializer expression body =>
    write "for (" ++ emit initializer ++ write " in " ++ emit expression ++ write ")" ++
      embedded emit body
  | .forOfStatement isAwait initializer expression body =>
    write "for" ++ writeIf isAwait " await" ++ write " (" ++ emit initializer ++ write " of " ++
      emit expression ++ write ")" ++ embedded emit body
  | .breakStatement label => write "break" ++ preceded " " emit label ++ [.semicolon]
  | .continueStatement label => write "continue" ++ preceded " " emit label ++ [.semicolon]
  | .returnStatement expression => write "return" ++ preceded " " emit expression ++ [.semicolon]
  | .throwStatement expression => write "throw" ++ preceded " " emit expression ++ [.semicolon]
  | .withStatement object body =>
    write "with (" ++ emit object ++ write ")" ++ embedded emit body
  | .switchStatement expression cases =>
    write "switch (" ++ emit expression ++ write ") " ++ emit cases
  | .caseClause expression statements =>
    write "case " ++ emit expression ++ write ":" ++ statementLines c emit statements
  | .defaultClause statements => write "default:" ++ statementLines c emit statements
  | .labeledStatement label body => emit label ++ write ":" ++ embedded emit body
  | .tryStatement block catchClause finallyBlock =>
    write "try " ++ emit block ++ preceded " " emit catchClause ++
      preceded " finally " emit finallyBlock
  | .catchClause binding block =>
    write "catch " ++
      (match binding with
        | some n => write "(" ++ emit n ++ write ") "
        | none => []) ++
      emit block
  -- Binding patterns.
  | .objectBindingPattern elements => bracedList emit elements
  | .arrayBindingPattern elements => bracketedList emit elements
  | .bindingElement isRest propertyName name initializer =>
    writeIf isRest "..." ++
      (match propertyName with
        | some n => emit n ++ write ": "
        | none => []) ++
      emit name ++ initialized emit initializer
  -- Types.
  | .typeReference name typeArguments => emit name ++ angledList emit typeArguments
  | .unionType types => (write " | ").intercalate (types.items.map emit)
  | .intersectionType types => (write " & ").intercalate (types.items.map emit)
  | .functionType signature => printFunctionType emit "" signature
  | .constructorType isAbstract signature =>
    printFunctionType emit (if isAbstract then "abstract new " else "new ") signature
  | .typeQuery name typeArguments =>
    write "typeof " ++ emit name ++ angledList emit typeArguments
  | .typeLiteral members =>
    if members.items.isEmpty then write "\x7b\x7d" else bracedMembers emit members
  | .arrayType element => emit element ++ write "[]"
  | .tupleType elements => bracketedList emit elements
  | .optionalType type => emit type ++ write "?"
  | .restType type => write "..." ++ emit type
  | .parenthesizedType type => write "(" ++ emit type ++ write ")"
  | .conditionalType check bound whenTrue whenFalse =>
    emit check ++ write " extends " ++ emit bound ++ write " ? " ++ emit whenTrue ++
      write " : " ++ emit whenFalse
  | .inferType parameter => write "infer " ++ emit parameter
  | .typeOperator operator type => spelled operator ++ write " " ++ emit type
  | .indexedAccessType object index => emit object ++ write "[" ++ emit index ++ write "]"
  | .mappedType parts => printMappedType emit parts
  | .literalType literal => emit literal
  | .namedTupleMember isRest name optional type =>
    writeIf isRest "..." ++ emit name ++ writeIf optional "?" ++ write ": " ++ emit type
  | .templateLiteralType head spans => emit head ++ spans.items.flatMap fun n => emit (some n)
  | .templateLiteralTypeSpan type piece => emit type ++ emit piece
  | .typePredicate asserts bound type =>
    writeIf asserts "asserts " ++ emit bound ++ preceded " is " emit type
  -- Imports and exports.
  | .importDeclaration clause specifier =>
    write "import " ++
      (match clause with
        | some n => emit n ++ write " from "
        | none => []) ++
      emit specifier ++ [.semicolon]
  | .importClause typeOnly name bindings =>
    writeIf typeOnly "type " ++ emit name ++
      writeIf (name.isSome && bindings.isSome) ", " ++ emit bindings
  | .namespaceImport name => write "* as " ++ emit name
  | .namedImports elements => bracedList emit elements
  | .namedExports elements => bracedList emit elements
  | .importSpecifier typeOnly propertyName name => printSpecifier emit typeOnly propertyName name
  | .exportSpecifier typeOnly propertyName name => printSpecifier emit typeOnly propertyName name
  | .exportDeclaration modifiers typeOnly clause specifier =>
    modified emit modifiers ++ write "export " ++ writeIf typeOnly "type " ++
      (match clause with
        | some n => emit n
        | none => write "*") ++
      preceded " from " emit specifier ++ [.semicolon]
  | .exportAssignment modifiers isEquals expression =>
    modified emit modifiers ++ write (if isEquals then "export = " else "export default ") ++
      emit expression ++ [.semicolon]
  -- The whole text.
  | .sourceFile _ statements _ => statementLines c emit statements

end InlineValues

import InlineValues.Grammar.Variable

/-!
# Declarations, imports and exports

A declaration starts with its modifiers, which may include `export` and `default`.  Most of the
words that start one are also names, so that each of them is a declaration only if something
suitable follows on the same line.
-/

namespace InlineValues
namespace Parser

/-! ## Which words declare -/

/-- The tokens that can follow `declare`. -/
def followsDeclare : TokenKind → Bool
  | .varKeyword | .letKeyword | .constKeyword | .functionKeyword | .classKeyword
  | .abstractKeyword | .interfaceKeyword | .typeKeyword | .enumKeyword | .namespaceKeyword
  | .moduleKeyword | .globalKeyword | .asyncKeyword => true
  | _ => false

/-- Whether the `declare` at the current token is a modifier. -/
def declareModifies : Parser Bool := nextOnSameLine do return followsDeclare (← kind)

/-- Whether a kind follows on the same line. -/
def nextOnSameLineIs (k : TokenKind) : Parser Bool := nextOnSameLine (at? k)

/-- Whether the word at the current token declares a module. -/
def moduleDeclares : Parser Bool :=
  nextOnSameLine do
    if ← at? .stringLiteral then return true else atIdentifier

/-- Whether a modifier of a declaration stands here. -/
def atDeclarationModifier : Parser Bool := do
  match ← kind with
  | .declareKeyword => declareModifies
  | .abstractKeyword => nextOnSameLineIs .classKeyword
  | .constKeyword => beforeEnum
  | _ => return false

/-! ## Declarations -/

/-- A function from its keyword on. -/
def functionDeclaration (rules : Rules) (start : Nat) (modifiers : Option (Sequence Node))
    (isAsync : Bool) : Parser Node := do
  expect .functionKeyword
  let isGenerator ← optional .asterisk
  let name ← if ← atIdentifier then some <$> identifierNode else pure none
  let signature ← signature rules isAsync isGenerator
  let body ← functionBody? rules isAsync isGenerator
  finish start (.functionDeclaration
    { modifiers, isAsync, isGenerator, name, body
      typeParameters := signature.typeParameters
      parameters := signature.parameters
      returnType := signature.returnType })

/-- An interface from its keyword on. -/
def interfaceDeclaration (rules : Rules) (start : Nat) (modifiers : Option (Sequence Node)) :
    Parser Node := do
  expect .interfaceKeyword
  let name ← identifier
  let typeParameters ← typeParameters? rules
  let heritage ← heritage rules
  let members ← typeMembers rules
  finish start (.interfaceDeclaration ⟨modifiers, name, typeParameters, heritage, members⟩)

/-- A type alias from its keyword on. -/
def typeAlias (rules : Rules) (start : Nat) (modifiers : Option (Sequence Node)) :
    Parser Node := do
  expect .typeKeyword
  let name ← identifier
  let typeParameters ← typeParameters? rules
  expect .equals
  let type ← rules .type
  semicolon
  finish start (.typeAlias modifiers name typeParameters type)

/-- A member of an enumeration. -/
def enumMember (rules : Rules) : Parser (Option Node) := do
  let start ← pos
  match ← propertyName rules with
  | none => return none
  | some name =>
    let value ← initializer rules
    return some (← finish start (.enumMember name value))

/-- An enumeration from its keyword on. -/
def enumDeclaration (rules : Rules) (start : Nat) (modifiers : Option (Sequence Node)) :
    Parser Node := do
  expect .enumKeyword
  let name ← identifier
  let members ← delimited .openBrace .closeBrace (enumMember rules)
  finish start (.enumDeclaration modifiers name members)

/-- The name of a module: a word or a string. -/
def moduleName : Parser (Option Node) := do
  if ← at? .globalKeyword then identifierName
  else
    advance
    if ← at? .stringLiteral then some <$> literalNode else identifier

/-- The statements of a module in braces, or the end of a module without any. -/
def moduleBody (rules : Rules) : Parser (Option Node) := do
  let start ← pos
  if ← optional .openBrace then
    let statements ← statementsUntil rules endsBlock
    expect .closeBrace
    return some (← finish start (.moduleBlock statements))
  else
    semicolon
    return none

/-- A module from its keyword on.  With points in its name it is a module in a module. -/
def moduleDeclaration (rules : Rules) (start : Nat) (modifiers : Option (Sequence Node)) :
    Parser Node := do
  let name ← moduleName
  let inner ← repeatFrom [] fun inner => do
    if ← optional .dot then
      let start ← pos
      let name ← identifier
      return .yield ((start, name) :: inner)
    return .done inner
  let body ← moduleBody rules
  let body ← inner.foldlM (fun body (start, name) =>
    some <$> finish start (.moduleDeclaration none name body)) body
  finish start (.moduleDeclaration modifiers name body)

/-- A declaration from behind its modifiers on. -/
def declarationRest (rules : Rules) (start : Nat) (modifiers : Option (Sequence Node)) :
    Parser (Option Node) := do
  match ← kind with
  | .functionKeyword => return some (← functionDeclaration rules start modifiers false)
  | .asyncKeyword =>
    advance
    return some (← functionDeclaration rules start modifiers true)
  | .classKeyword => return some (← finish start (.classDeclaration (← classParts rules modifiers)))
  | .interfaceKeyword => return some (← interfaceDeclaration rules start modifiers)
  | .typeKeyword => return some (← typeAlias rules start modifiers)
  | .enumKeyword => return some (← enumDeclaration rules start modifiers)
  | .namespaceKeyword | .moduleKeyword | .globalKeyword =>
    return some (← moduleDeclaration rules start modifiers)
  | .varKeyword | .letKeyword | .constKeyword | .usingKeyword =>
    return some (← variableStatement rules start modifiers)
  | _ =>
    report .declarationOrStatementExpected
    return none

/-- A declaration behind the modifiers that were already read. -/
def declaration (rules : Rules) (start : Nat) (modifiers : List Node) : Parser (Option Node) := do
  let more ← modifiersWhile atDeclarationModifier
  declarationRest rules start (← sequence? (modifiers ++ more))

/-! ## Imports -/

/-- A name or a string in a list of imports or exports. -/
def specifierName : Parser (Option Node) := do
  if ← at? .stringLiteral then some <$> literalNode else identifierName

/-- Whether `type` stands here as a modifier of a name. -/
def atTypeSpecifier : Parser Bool := do
  if ← at? .typeKeyword then nextIs fun k => isWord k || k == .stringLiteral else return false

/-- An element of a list of imports or exports. -/
def specifier (form : Bool → Option Node → Option Node → Form Node) : Parser (Option Node) := do
  let start ← pos
  let typeOnly ← atTypeSpecifier
  if typeOnly then advance
  match ← specifierName with
  | none => return none
  | some first =>
    if ← optional .asKeyword then
      let name ← specifierName
      return some (← finish start (form typeOnly first name))
    return some (← finish start (form typeOnly none first))

/-- What an import binds besides its default: a namespace or a list of names. -/
def namedBindings : Parser Node := do
  let start ← pos
  if ← optional .asterisk then
    expect .asKeyword
    let name ← identifier
    finish start (.namespaceImport name)
  else
    let elements ← delimited .openBrace .closeBrace (specifier .importSpecifier)
    finish start (.namedImports elements)

/-- Whether the `type` at the current token makes an import one of types. -/
def typeModifiesImport : Parser Bool :=
  lookAhead do
    advance
    match ← kind with
    | .openBrace | .asterisk => return true
    | .fromKeyword => return false
    | _ => atIdentifier

/-- What an import binds behind its default, if a comma says that there is more. -/
def bindingsBehindComma : Parser (Option Node) := do
  if ← optional .comma then some <$> namedBindings else return none

/-- The bindings of an import, up to `from`. -/
def importClause : Parser Node := do
  let start ← pos
  let typeOnly ← if ← at? .typeKeyword then typeModifiesImport else pure false
  if typeOnly then advance
  let name ← if ← atIdentifier then some <$> identifierNode else pure none
  let bindings ← if name.isNone then some <$> namedBindings else bindingsBehindComma
  let clause ← finish start (.importClause typeOnly name bindings)
  expect .fromKeyword
  return clause

/-- An import. -/
def importDeclaration : Parser Node := do
  let start ← pos
  expect .importKeyword
  let clause ← if ← at? .stringLiteral then pure none else some <$> importClause
  let source ← if ← at? .stringLiteral then some <$> literalNode else do
    report .expressionExpected
    pure none
  semicolon
  finish start (.importDeclaration clause source)

/-! ## Exports -/

/-- An exported expression, from behind `=` or `default` on. -/
def exportAssignment (rules : Rules) (start : Nat) (modifiers : List Node) (isEquals : Bool) :
    Parser Node := do
  let value ← rules .assignment
  semicolon
  finish start (.exportAssignment (← sequence? modifiers) isEquals value)

/-- Whether a declaration follows the `default` at the current token. -/
def defaultDeclares : Parser Bool :=
  lookAhead do
    advance
    match ← kind with
    | .functionKeyword | .classKeyword | .interfaceKeyword => return true
    | .asyncKeyword | .abstractKeyword =>
      advance
      if ← afterLineBreak then return false
      let k ← kind
      return k == .functionKeyword || k == .classKeyword
    | _ => return false

/-- What is exported from another module or by its name: everything, perhaps under a name, or a
list. -/
def exportClause : Parser (Option Node) := do
  let start ← pos
  if ← optional .asterisk then
    if ← optional .asKeyword then
      let name ← identifierName
      return some (← finish start (.namespaceImport name))
    return none
  let elements ← delimited .openBrace .closeBrace (specifier .exportSpecifier)
  return some (← finish start (.namedExports elements))

/-- A list of exports from its brace or asterisk on. -/
def exportList (start : Nat) (modifiers : List Node) (typeOnly : Bool) : Parser Node := do
  let clause ← exportClause
  let source ← if ← optional .fromKeyword then some <$> literalNode else pure none
  semicolon
  finish start (.exportDeclaration (← sequence? modifiers) typeOnly clause source)

/-- Whether `type` stands here in front of a list of exports. -/
def atTypeExport : Parser Bool := do
  if ← at? .typeKeyword then nextIs fun k => k == .openBrace || k == .asterisk else return false

/-- Anything that starts with `export`, behind the decorators that were already read. -/
def exported (rules : Rules) (start : Nat) (decorators : List Node) : Parser (Option Node) := do
  let keyword ← tokenNode
  if ← optional .equals then return some (← exportAssignment rules start decorators true)
  if ← at? .defaultKeyword then
    if ← defaultDeclares then
      let byDefault ← tokenNode
      return ← declaration rules start (decorators ++ [keyword, byDefault])
    advance
    return some (← exportAssignment rules start decorators false)
  let typeOnly ← atTypeExport
  if typeOnly then advance
  let k ← kind
  if k == .openBrace || k == .asterisk then
    return some (← exportList start decorators typeOnly)
  declaration rules start (decorators ++ [keyword])

end Parser
end InlineValues

import InlineValues.Grammar.Binding

/-!
# Members and classes

Classes, interfaces and object literals have members in common: accessors, methods and index
signatures.  A word such as `static` or `get` is a modifier only if something follows that it can
modify, and otherwise it is the name of a member.
-/

namespace InlineValues
namespace Parser

/-! ## Members of several kinds of bodies -/

/-- Whether `get` or `set` stands here, with the name of a property on the same line. -/
def atAccessor : Parser Bool := do
  let k ← kind
  if k == .getKeyword || k == .setKeyword then
    nextOnSameLine do return startsPropertyName (← kind)
  else return false

/-- A getter or setter from its keyword on. -/
def accessor (rules : Rules) (start : Nat) (modifiers : Option (Sequence Node)) : Parser Node := do
  let isGetter ← at? .getKeyword
  advance
  let name ← propertyName rules
  let signature ← signature rules false false
  let body ← if ← at? .openBrace then some <$> functionBody rules false false else pure none
  let parts : AccessorParts Node := ⟨modifiers, name, signature, body⟩
  finish start (if isGetter then .getAccessor parts else .setAccessor parts)

/-- Whether a list of modifiers holds a keyword. -/
def hasModifier (modifiers : Option (Sequence Node)) (k : TokenKind) : Bool :=
  match modifiers with
  | none => false
  | some list => list.items.any fun node =>
    match node.form with
    | .token k' => k' == k
    | _ => false

/-- Whether parameters or type parameters start here. -/
def atSignature : Parser Bool := return (← kind) == .openParen || (← kind) == .lessThan

/-- A method from behind its name on. -/
def methodRest (rules : Rules) (start : Nat) (modifiers : Option (Sequence Node))
    (isGenerator : Bool) (name : Node) (isOptional : Bool) : Parser Node := do
  let isAsync := hasModifier modifiers .asyncKeyword
  let signature ← signature rules isAsync isGenerator
  let body ← functionBody? rules isAsync isGenerator
  finish start (.methodDeclaration ⟨modifiers, isGenerator, name, isOptional, signature, body⟩)

/-- Whether the bracket at the current token opens an index signature. -/
def opensIndexSignature : Parser Bool := do
  advance
  if (← at? .dotDotDot) || (← at? .closeBracket) then return true
  if !isWord (← kind) then return false
  advance
  match ← kind with
  | .colon | .comma | .question => return true
  | _ => return false

/-- Whether an index signature starts here. -/
def atIndexSignature : Parser Bool := do
  if ← at? .openBracket then lookAhead opensIndexSignature else return false

/-- An index signature. -/
def indexSignature (rules : Rules) (start : Nat) (modifiers : Option (Sequence Node)) :
    Parser Node := do
  let parameters ← delimited .openBracket .closeBracket (rules .parameter)
  let type ← typeAnnotation rules
  finish start (.indexSignature modifiers parameters type)

/-! ## Members of interfaces and type literals -/

/-- Whether parameters or type parameters follow the current token. -/
def beforeSignature : Parser Bool := nextIs fun k => k == .openParen || k == .lessThan

/-- Whether `readonly` stands here as a modifier. -/
def atReadonly : Parser Bool := do
  if ← at? .readonlyKeyword then nextOnSameLine do return startsPropertyName (← kind)
  else return false

/-- A property or method of an interface, from its name on. -/
def namedTypeMember (rules : Rules) (start : Nat) (modifiers : Option (Sequence Node)) :
    Parser (Option Node) := do
  match ← propertyName rules with
  | none => return none
  | some name =>
    let isOptional ← optional .question
    if ← atSignature then
      let signature ← signature rules false false
      return some (← finish start (.methodSignature modifiers name isOptional signature))
    let type ← typeAnnotation rules
    discard <| initializer rules
    return some (← finish start (.propertySignature modifiers name isOptional type))

/-- A member of an interface or a type literal. -/
def typeMember (rules : Rules) : Parser (Option Node) := do
  let start ← pos
  if ← atSignature then
    let signature ← signature rules false false
    return some (← finish start (.callSignature signature))
  if ← at? .newKeyword then
    if ← beforeSignature then
      advance
      let signature ← signature rules false false
      return some (← finish start (.constructSignature signature))
  let modifiers ← if ← atReadonly then some <$> tokenNode else pure none
  let modifiers ← sequence? modifiers.toList
  if ← atIndexSignature then return some (← indexSignature rules start modifiers)
  if ← atAccessor then return some (← accessor rules start modifiers)
  namedTypeMember rules start modifiers

/-! ## Members of classes -/

/-- Modifiers of the members of a class. -/
def isMemberModifier : TokenKind → Bool
  | .publicKeyword | .privateKeyword | .protectedKeyword | .staticKeyword | .readonlyKeyword
  | .abstractKeyword | .overrideKeyword | .declareKeyword | .accessorKeyword
  | .asyncKeyword => true
  | _ => false

/-- Whether a modifier of a member stands here, with something behind it that it can modify. -/
def atMemberModifier : Parser Bool := do
  if !isMemberModifier (← kind) then return false
  nextOnSameLine do
    match ← kind with
    | .asterisk | .openBrace | .dotDotDot | .atSign => return true
    | k => return startsPropertyName k

/-- A property or method of a class, from its name on. -/
def namedClassMember (rules : Rules) (start : Nat) (modifiers : Option (Sequence Node)) :
    Parser (Option Node) := do
  let isGenerator ← optional .asterisk
  match ← propertyName rules with
  | none => return none
  | some name =>
    let isOptional ← optional .question
    if isGenerator || (← atSignature) then
      return some (← methodRest rules start modifiers isGenerator name isOptional)
    let definite ← if isOptional then pure false else optional .exclamation
    let declaredType ← typeAnnotation rules
    let value ← inContext allowIn (initializer rules)
    semicolon
    return some (← finish start
      (.propertyDeclaration ⟨modifiers, name, isOptional, definite, declaredType, value⟩))

/-- A member of a class from behind its modifiers on. -/
def classMemberRest (rules : Rules) (start : Nat) (modifiers : Option (Sequence Node)) :
    Parser (Option Node) := do
  if ← at? .constructorKeyword then
    if ← beforeSignature then
      advance
      let signature ← signature rules false false
      let body ← functionBody? rules false false
      return some (← finish start
        (.constructorDeclaration modifiers signature.typeParameters signature.parameters body))
  if ← atAccessor then return some (← accessor rules start modifiers)
  if ← atIndexSignature then
    let member ← indexSignature rules start modifiers
    semicolon
    return some member
  namedClassMember rules start modifiers

/-- A member of a class. -/
def classMember (rules : Rules) : Parser (Option Node) := do
  let start ← pos
  if ← at? .semicolon then return some (← emptyNode .semicolonClassElement)
  if ← at? .staticKeyword then
    if ← nextIs (· == .openBrace) then
      advance
      let body ← functionBody rules false false
      return some (← finish start (.staticBlock body))
  let decorators ← decorators rules
  let modifiers ← modifiersWhile atMemberModifier
  classMemberRest rules start (← sequence? (decorators ++ modifiers))

/-! ## Classes -/

/-- The types behind `extends` or `implements`. -/
def heritageTypes (rules : Rules) : Parser (Sequence Node) := do
  let types ← repeatFrom [] fun types => do
    let start ← pos
    match ← rules .leftHandSide with
    | none => return .done types
    | some base =>
      let arguments ← typeArguments? rules
      let types := (← finish start (.expressionWithTypeArguments base arguments)) :: types
      return if ← optional .comma then .yield types else .done types
  sequence types.reverse

/-- The clauses that name what a class or an interface extends and implements. -/
def heritage (rules : Rules) : Parser (Option (Sequence Node)) := do
  let clauses ← repeatFrom [] fun clauses => do
    let start ← pos
    let k ← kind
    if k == .extendsKeyword || k == .implementsKeyword then
      advance
      let types ← heritageTypes rules
      return .yield ((← finish start (.heritageClause k types)) :: clauses)
    return .done clauses
  sequence? clauses.reverse

/-- The members of a class, in braces. -/
def classMembers (rules : Rules) : Parser (Sequence Node) := do
  expect .openBrace
  let members ← repeatFrom [] fun members => do
    if (← at? .closeBrace) || (← at? .endOfFile) then return .done members
    let before ← pos
    let members := consNode? (← classMember rules) members
    if (← pos) == before then
      report .unexpectedToken
      advance
    return .yield members
  let list ← sequence members.reverse
  expect .closeBrace
  return list

/-- The name of a class.  `implements` is not one. -/
def className : Parser (Option Node) := do
  if ← at? .implementsKeyword then return none
  if ← atIdentifier then return some (← identifierNode)
  return none

/-- A class from its keyword on. -/
def classParts (rules : Rules) (modifiers : Option (Sequence Node)) : Parser (ClassParts Node) := do
  expect .classKeyword
  let name ← className
  let typeParameters ← typeParameters? rules
  let heritage ← heritage rules
  let members ← classMembers rules
  return ⟨modifiers, name, typeParameters, heritage, members⟩

/-- A class in the place of an expression. -/
def classExpression (rules : Rules) : Parser Node := do
  let start ← pos
  let modifiers ← sequence? (← decorators rules)
  finish start (.classExpression (← classParts rules modifiers))

end Parser
end InlineValues

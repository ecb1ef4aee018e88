import InlineValues.Grammar.Name

/-!
# Types

Types are read so that expressions behind them are found; nothing in a type is ever a value.  From
the loosest to the tightest, a type is a function type or a conditional type, a union, an
intersection, an operator applied to a type, a type with brackets behind it, or a basic type.
-/

namespace InlineValues
namespace Parser

/-! ## Lists of types, type parameters and parameters -/

/-- A type behind a colon, if there is one. -/
def typeAnnotation (rules : Rules) : Parser (Option Node) := do
  if ← optional .colon then rules .type else return none

/-- Type arguments between angle brackets. -/
def typeArguments (rules : Rules) : Parser (Sequence Node) :=
  delimited .lessThan .greaterThan (rules .type)

/-- Type arguments, if an angle bracket opens here. -/
def typeArguments? (rules : Rules) : Parser (Option (Sequence Node)) := do
  if ← at? .lessThan then some <$> typeArguments rules else return none

/-- Type arguments, if an angle bracket opens here on the same line. -/
def typeArgumentsOnLine? (rules : Rules) : Parser (Option (Sequence Node)) := do
  if ← afterLineBreak then return none else typeArguments? rules

/-- Whether a modifier of a type parameter stands here, with a name behind it. -/
def atVariance : Parser Bool := do
  let k ← kind
  if k == .constKeyword || k == .inKeyword ||
      (k == .identifier && (← value) == ['o', 'u', 't']) then
    nextOnSameLine atIdentifier
  else return false

/-- The modifiers that pass a test, as leaves. -/
def modifiersWhile (test : Parser Bool) : Parser (List Node) := do
  let nodes ← repeatFrom [] fun nodes => do
    if ← test then return .yield ((← tokenNode) :: nodes)
    return .done nodes
  return nodes.reverse

/-- A type parameter with its modifiers, constraint and default. -/
def typeParameter (rules : Rules) : Parser (Option Node) := do
  let start ← pos
  let modifiers ← modifiersWhile atVariance
  match ← identifier with
  | none => return none
  | some name =>
    let constraint ← if ← optional .extendsKeyword then rules .type else pure none
    let defaultType ← if ← optional .equals then rules .type else pure none
    let modifiers ← sequence? modifiers
    return some (← finish start (.typeParameter modifiers name constraint defaultType))

/-- Type parameters, if an angle bracket opens here. -/
def typeParameters? (rules : Rules) : Parser (Option (Sequence Node)) := do
  if ← at? .lessThan then some <$> delimited .lessThan .greaterThan (typeParameter rules)
  else return none

/-- Parameters between parentheses. -/
def parameters (rules : Rules) : Parser (Sequence Node) :=
  delimited .openParen .closeParen (rules .parameter)

/-! ## Function types -/

/-- Skip from an opening token to behind the token that closes it, and say whether there is one. -/
def skipBracketed (opening close : TokenKind) : Parser Bool := do
  let (_, closed) ← repeatFrom (0, false) fun (depth, _) => do
    let k ← kind
    if k == .endOfFile then return .done (depth, false)
    if k == close && depth ≤ 1 then
      advance
      return .done (0, true)
    advance
    let depth := if k == opening then depth + 1 else if k == close then depth - 1 else depth
    return .yield (depth, false)
  return closed

/-- Skip what the name of a parameter can be, and say whether it was there. -/
def skipParameterStart : Parser Bool := do
  if (← atIdentifier) || (← at? .thisKeyword) then
    advance
    return true
  match ← kind with
  | .openBrace => skipBracketed .openBrace .closeBrace
  | .openBracket => skipBracketed .openBracket .closeBracket
  | _ => return false

/-- Whether the parenthesis at the current token opens the parameters of a function type: what
stands in it must be empty, a rest parameter, or a name with a punctuation that only a parameter
has. -/
def opensFunctionType : Parser Bool := do
  advance
  if (← at? .closeParen) || (← at? .dotDotDot) then return true
  if !(← skipParameterStart) then return false
  match ← kind with
  | .colon | .comma | .question | .equals => return true
  | .closeParen =>
    advance
    at? .equalsGreaterThan
  | _ => return false

/-- Whether a function type or a constructor type starts here. -/
def atFunctionType : Parser Bool := do
  match ← kind with
  | .lessThan | .newKeyword => return true
  | .abstractKeyword => nextIs (· == .newKeyword)
  | .openParen => lookAhead opensFunctionType
  | _ => return false

/-- The name in a type predicate. -/
def predicateName : Parser (Option Node) := do
  if ← at? .thisKeyword then return some (← emptyNode .thisType) else identifier

/-- The type of a result, which may also be a predicate such as `x is T` or `asserts x is T`. -/
def returnType (rules : Rules) : Parser (Option Node) := do
  let start ← pos
  if (← pure ((← atIdentifier) || (← at? .thisKeyword))) &&
      (← nextOnSameLine (at? .isKeyword)) then
    let name ← predicateName
    expect .isKeyword
    let type ← rules .type
    return some (← finish start (.typePredicate false name type))
  if (← at? .assertsKeyword) &&
      (← nextOnSameLine do return (← atIdentifier) || (← at? .thisKeyword)) then
    advance
    let name ← predicateName
    let type ← if ← optional .isKeyword then rules .type else pure none
    return some (← finish start (.typePredicate true name type))
  rules .type

/-- A function type or a constructor type. -/
def functionType (rules : Rules) : Parser Node := do
  let start ← pos
  let isAbstract ← optional .abstractKeyword
  let isConstructor ← optional .newKeyword
  let typeParameters ← typeParameters? rules
  let parameters ← parameters rules
  expect .equalsGreaterThan
  let returnType ← returnType rules
  let signature : SignatureParts Node := ⟨typeParameters, parameters, returnType⟩
  finish start
    (if isConstructor then .constructorType isAbstract signature else .functionType signature)

/-! ## Basic types -/

/-- Close a literal type. -/
def literalType (start : Nat) (literal : Node) : Parser (Option Node) :=
  some <$> finish start (.literalType literal)

/-- An element of a tuple type, which may be named, rest or optional. -/
def tupleElement (rules : Rules) : Parser (Option Node) := do
  let start ← pos
  let isNamed ← lookAhead do
    discard <| optional .dotDotDot
    if !isWord (← kind) then return false
    advance
    discard <| optional .question
    at? .colon
  if isNamed then
    let isRest ← optional .dotDotDot
    let name ← identifierName
    let isOptional ← optional .question
    expect .colon
    let type ← rules .type
    return some (← finish start (.namedTupleMember isRest name isOptional type))
  if ← optional .dotDotDot then
    let type ← rules .type
    return some (← finish start (.restType type))
  match ← rules .type with
  | none => return none
  | some type =>
    if ← optional .question then return some (← finish start (.optionalType type))
    return some type

/-- Whether the brace at the current token opens a mapped type. -/
def opensMappedType : Parser Bool := do
  advance
  if (← at? .plus) || (← at? .minus) then
    advance
    if !(← at? .readonlyKeyword) then return false
  discard <| optional .readonlyKeyword
  if !(← optional .openBracket) then return false
  if !(← atIdentifier) then return false
  advance
  at? .inKeyword

/-- A mark of a mapped type: a keyword or `?`, perhaps with a sign in front of it. -/
def mappedTypeMark (mark : TokenKind) : Parser (Option TokenKind) := do
  let k ← kind
  if k == .plus || k == .minus then
    advance
    expect mark
    return some k
  if ← optional mark then return some mark
  return none

/-- A mapped type. -/
def mappedType (rules : Rules) : Parser Node := do
  let start ← pos
  expect .openBrace
  let readonlyMark ← mappedTypeMark .readonlyKeyword
  expect .openBracket
  let parameterStart ← pos
  let name ← identifier
  expect .inKeyword
  let constraint ← rules .type
  let parameter ← finish parameterStart (.typeParameter none name constraint none)
  let nameType ← if ← optional .asKeyword then rules .type else pure none
  expect .closeBracket
  let optionalMark ← mappedTypeMark .question
  let valueType ← typeAnnotation rules
  discard <| optional .semicolon
  expect .closeBrace
  finish start (.mappedType ⟨readonlyMark, parameter, nameType, optionalMark, valueType⟩)

/-- One member of an interface or a type literal. -/
def typeMemberStep (rules : Rules) (members : List Node) : Parser (ForInStep (List Node)) := do
  if (← at? .closeBrace) || (← at? .endOfFile) then return .done members
  let before ← pos
  let members := consNode? (← rules .typeMember) members
  if !(← optional .semicolon) then discard <| optional .comma
  if (← pos) == before then
    report .unexpectedToken
    advance
  return .yield members

/-- The members of an interface or a type literal, in braces. -/
def typeMembers (rules : Rules) : Parser (Sequence Node) := do
  expect .openBrace
  let members ← repeatFrom [] (typeMemberStep rules)
  let list ← sequence members.reverse
  expect .closeBrace
  return list

/-- A template in the place of a type. -/
def templateType (rules : Rules) : Parser Node := do
  let start ← pos
  let head ← literalNode
  let spans ← templateSpans (rules .type) .templateLiteralTypeSpan
  finish start (.templateLiteralType head spans)

/-- A name with its type arguments. -/
def typeReference (rules : Rules) : Parser Node := do
  let start ← pos
  let name ← entityName
  let arguments ← typeArgumentsOnLine? rules
  finish start (.typeReference name arguments)

/-- Keywords that are types, unless a point follows and makes them names. -/
def isTypeWord : TokenKind → Bool
  | .anyKeyword | .unknownKeyword | .stringKeyword | .numberKeyword | .bigIntKeyword
  | .symbolKeyword | .booleanKeyword | .undefinedKeyword | .neverKeyword | .objectKeyword => true
  | _ => false

/-- A type that starts with a word and is a reference. -/
def wordType (rules : Rules) : Parser (Option Node) := do
  let k ← kind
  if isWord k && k != .extendsKeyword then return some (← typeReference rules)
  report .typeExpected
  return none

/-- A basic type. -/
def basicType (rules : Rules) : Parser (Option Node) := do
  let start ← pos
  let k ← kind
  match k with
  | .voidKeyword => return some (← tokenNode)
  | .nullKeyword | .trueKeyword | .falseKeyword => literalType start (← tokenNode)
  | .stringLiteral | .numericLiteral | .bigIntLiteral | .noSubstitutionTemplateLiteral =>
    literalType start (← literalNode)
  | .minus =>
    advance
    let operand ← literalNode
    literalType start (← finish start (.prefixUnary .minus operand))
  | .templateHead => return some (← templateType rules)
  | .thisKeyword => return some (← emptyNode .thisType)
  | .typeOfKeyword =>
    advance
    let name ← entityName
    let arguments ← typeArgumentsOnLine? rules
    return some (← finish start (.typeQuery name arguments))
  | .openBrace =>
    if ← lookAhead opensMappedType then return some (← mappedType rules)
    let members ← typeMembers rules
    return some (← finish start (.typeLiteral members))
  | .openBracket =>
    let elements ← delimited .openBracket .closeBracket (tupleElement rules)
    return some (← finish start (.tupleType elements))
  | .openParen =>
    advance
    let type ← rules .type
    expect .closeParen
    return some (← finish start (.parenthesizedType type))
  | _ =>
    if isTypeWord k then
      if !(← nextIs (· == .dot)) then return some (← tokenNode)
    wordType rules

/-! ## Composite types -/

/-- A basic type with brackets behind it: arrays and indexed access. -/
def bracketedType (rules : Rules) : Parser (Option Node) := do
  let start ← pos
  match ← basicType rules with
  | none => return none
  | some first =>
    return some (← repeatFrom first fun type => do
      if (← afterLineBreak) || !(← at? .openBracket) then return .done type
      advance
      if ← optional .closeBracket then return .yield (← finish start (.arrayType type))
      let index ← rules .type
      expect .closeBracket
      return .yield (← finish start (.indexedAccessType type index)))

/-- A type with the operators in front of it. -/
def operatorType (rules : Rules) : Parser (Option Node) := do
  let start ← pos
  let k ← kind
  match k with
  | .keyOfKeyword | .uniqueKeyword | .readonlyKeyword =>
    advance
    let type ← rules .typeOperator
    return some (← finish start (.typeOperator k type))
  | .inferKeyword =>
    advance
    let parameterStart ← pos
    let name ← identifier
    let parameter ← finish parameterStart (.typeParameter none name none none)
    return some (← finish start (.inferType parameter))
  | _ => bracketedType rules

/-- Types with an operator between them.  An operator in front of the first one makes a list of
that one alone. -/
def compositeType (rules : Rules) (operator : TokenKind) (form : Sequence (Option Node) → Form Node)
    (constituent : Parser (Option Node)) : Parser (Option Node) := do
  let start ← pos
  let leading ← optional operator
  let first ← if ← atFunctionType then some <$> functionType rules else constituent
  if !leading && !(← at? operator) then return first
  let types ← repeatFrom [first] fun types => do
    if ← optional operator then return .yield ((← constituent) :: types)
    return .done types
  let list ← sequenceOf types.reverse id
  return some (← finish start (form list))

/-- An intersection, or a type that binds more tightly. -/
def intersectionType (rules : Rules) : Parser (Option Node) :=
  compositeType rules .ampersand .intersectionType (rules .typeOperator)

/-- A union, or a type that binds more tightly. -/
def unionType (rules : Rules) : Parser (Option Node) :=
  compositeType rules .bar .unionType (intersectionType rules)

/-- Any type: a function type, a conditional type or a union. -/
def anyType (rules : Rules) : Parser (Option Node) := do
  if ← atFunctionType then return some (← functionType rules)
  let start ← pos
  match ← unionType rules with
  | none => return none
  | some check =>
    if ← afterLineBreak then return some check
    if !(← optional .extendsKeyword) then return some check
    let bound ← unionType rules
    expect .question
    let whenTrue ← rules .type
    expect .colon
    let whenFalse ← rules .type
    return some (← finish start (.conditionalType check bound whenTrue whenFalse))

end Parser
end InlineValues

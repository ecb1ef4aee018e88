import InlineValues.Grammar.Arrow
import InlineValues.Grammar.Member

/-!
# Expressions

From the loosest to the tightest, an expression is an assignment, an arrow function or a conditional
expression; a chain of binary operators; operators in front of an operand or behind it; member
accesses and calls; and a primary expression.

Binary operators are read by climbing precedences.  A `>` is read together with the characters
behind it only where a binary operator may stand, so that elsewhere it can close type arguments.
-/

namespace InlineValues

namespace TokenKind

/-- How tightly a binary operator binds; zero for all other tokens.  Assignments and the comma are
not binary operators in this sense. -/
def precedence : TokenKind → Nat
  | questionQuestion => 4
  | barBar => 5
  | ampersandAmpersand => 6
  | bar => 7
  | caret => 8
  | ampersand => 9
  | equalsEquals | exclamationEquals | equalsEqualsEquals | exclamationEqualsEquals => 10
  | lessThan | greaterThan | lessThanEquals | greaterThanEquals | instanceOfKeyword | inKeyword
  | asKeyword | satisfiesKeyword => 11
  | lessThanLessThan | greaterThanGreaterThan | greaterThanGreaterThanGreaterThan => 12
  | plus | minus => 13
  | asterisk | slash | percent => 14
  | asteriskAsterisk => 15
  | _ => 0

/-- Whether a binary operator continues an operand that is read at a precedence.  Of equal
operators the left one takes its operands first, except for `**`. -/
def continues (operator : TokenKind) (precedence : Nat) : Bool :=
  0 < operator.precedence &&
    (precedence < operator.precedence ||
      (operator == asteriskAsterisk && precedence == operator.precedence))

end TokenKind

/-- Whether an expression can stand on the left of an assignment. -/
def Form.isAssignable : Form Node → Bool
  | .propertyAccess .. | .elementAccess .. | .call .. | .new .. | .taggedTemplate ..
  | .arrayLiteral .. | .objectLiteral .. | .parenthesized .. | .nonNull ..
  | .functionExpression .. | .classExpression .. | .template .. | .identifier .. => true
  | .token kind => kind == .thisKeyword || kind == .superKeyword
  | _ => false

namespace Parser

/-! ## Which tokens start an expression -/

/-- The tokens other than names with which an expression can start. -/
def startsExpression : TokenKind → Bool
  | .numericLiteral | .bigIntLiteral | .stringLiteral | .noSubstitutionTemplateLiteral
  | .templateHead | .openParen | .openBracket | .openBrace | .functionKeyword | .classKeyword
  | .newKeyword | .slash | .slashEquals | .plus | .minus | .tilde | .exclamation
  | .deleteKeyword | .typeOfKeyword | .voidKeyword | .plusPlus | .minusMinus | .lessThan
  | .awaitKeyword | .yieldKeyword | .thisKeyword | .superKeyword | .nullKeyword | .trueKeyword
  | .falseKeyword | .importKeyword | .privateIdentifier | .atSign => true
  | _ => false

/-- Whether an expression starts here. -/
def atExpression : Parser Bool := do
  if startsExpression (← kind) then return true else atIdentifier

/-! ## Arguments -/

/-- An expression, perhaps spread. -/
def spreadable (rules : Rules) : Parser (Option Node) := do
  let start ← pos
  if ← optional .dotDotDot then
    let inner ← rules .assignment
    return some (← finish start (.spreadElement inner))
  rules .assignment

/-- The arguments of a call. -/
def arguments (rules : Rules) : Parser (Sequence Node) :=
  inContext bracketed (delimited .openParen .closeParen (spreadable rules))

/-! ## Templates, members and calls -/

/-- A template with substitutions. -/
def template (rules : Rules) : Parser Node := do
  let start ← pos
  let head ← literalNode
  let spans ← templateSpans (inContext bracketed (expression rules)) .templateSpan
  finish start (.template head spans)

/-- A template behind a tag. -/
def taggedTemplate (rules : Rules) (start : Nat) (tag : Node)
    (typeArguments : Option (Sequence Node)) (chained : Bool) : Parser Node := do
  let body ← if ← at? .noSubstitutionTemplateLiteral then literalNode else template rules
  finish start (.taggedTemplate tag typeArguments body chained)

/-- An index in brackets behind an object. -/
def elementAccess (rules : Rules) (start : Nat) (object : Node) (chained : Bool) : Parser Node := do
  expect .openBracket
  let index ← inContext bracketed (expression rules)
  if index.isNone then report .expressionExpected
  expect .closeBracket
  finish start (.elementAccess object chained index)

/-- Arguments behind a callee, or a template behind type arguments. -/
def callRest (rules : Rules) (start : Nat) (callee : Node) (chained : Bool) : Parser Node := do
  let typeArguments ← typeArguments? rules
  match ← kind with
  | .noSubstitutionTemplateLiteral | .templateHead =>
    taggedTemplate rules start callee typeArguments chained
  | _ =>
    let arguments ← arguments rules
    finish start (.call callee chained typeArguments arguments)

/-- What may follow `?.`: an index, a call or a name. -/
def chainRest (rules : Rules) (start : Nat) (object : Node) : Parser Node := do
  let isCall ← match ← kind with
    | .openParen => pure true
    | .lessThan => opensTypeArguments
    | _ => pure false
  if isCall then callRest rules start object true
  else if ← at? .openBracket then elementAccess rules start object true
  else
    let name ← memberName
    finish start (.propertyAccess object true name)

/-- One access, call or mark behind an expression.  Without `calls` the arguments and the chains
that `new` does not take along are left alone. -/
def memberStep (rules : Rules) (start : Nat) (calls : Bool) (object : Node) :
    Parser (ForInStep Node) := do
  match ← kind with
  | .dot =>
    advance
    let name ← memberName
    return .yield (← finish start (.propertyAccess object false name))
  | .questionDot =>
    if !calls then return .done object
    advance
    return .yield (← chainRest rules start object)
  | .openBracket => return .yield (← elementAccess rules start object false)
  | .exclamation =>
    if ← afterLineBreak then return .done object
    advance
    return .yield (← finish start (.nonNull object))
  | .noSubstitutionTemplateLiteral | .templateHead =>
    return .yield (← taggedTemplate rules start object none false)
  | .openParen =>
    if !calls then return .done object
    return .yield (← callRest rules start object false)
  | .lessThan =>
    if !calls then return .done object
    if !(← opensTypeArguments) then return .done object
    return .yield (← callRest rules start object false)
  | _ => return .done object

/-- The accesses, calls and marks behind an expression. -/
def memberRest (rules : Rules) (start : Nat) (calls : Bool) (object : Node) : Parser Node :=
  repeatFrom object (memberStep rules start calls)

/-! ## Primary expressions -/

/-- An element of an array literal, or a hole. -/
def arrayElement (rules : Rules) : Parser (Option Node) := do
  let start ← pos
  if ← at? .comma then return some (← nodeAt start start .omittedExpression)
  spreadable rules

/-- An array literal. -/
def arrayLiteral (rules : Rules) : Parser Node := do
  let start ← pos
  let elements ←
    inContext bracketed (delimited .openBracket .closeBracket (arrayElement rules))
  finish start (.arrayLiteral elements (← isMultiLineFrom start))

/-- The words behind which a property name makes an object literal's accessor. -/
def atObjectAccessor : Parser Bool := do
  let k ← kind
  if k == .getKeyword || k == .setKeyword then nextIs startsPropertyName else return false

/-- Whether `async` stands here in front of a method. -/
def atAsyncMethod : Parser Bool := do
  if ← at? .asyncKeyword then
    nextOnSameLine do
      let k ← kind
      return k == .asterisk || startsPropertyName k
  else return false

/-- A method or property of an object literal, from behind its modifiers on. -/
def objectMemberRest (rules : Rules) (start : Nat) (modifiers : List Node) :
    Parser (Option Node) := do
  let isGenerator ← optional .asterisk
  let isPlain ← atIdentifier
  match ← propertyName rules with
  | none => return none
  | some name =>
    if isGenerator || (← atSignature) then
      return some (← methodRest rules start (← sequence? modifiers) isGenerator name false)
    let k ← kind
    if isPlain && (k == .comma || k == .closeBrace || k == .equals) then
      let value ← initializer rules
      return some (← finish start (.shorthandPropertyAssignment name value))
    expect .colon
    let value ← rules .assignment
    return some (← finish start (.propertyAssignment name value))

/-- A member of an object literal. -/
def objectMember (rules : Rules) : Parser (Option Node) := do
  let start ← pos
  if ← optional .dotDotDot then
    let inner ← rules .assignment
    return some (← finish start (.spreadAssignment inner))
  if ← atAsyncMethod then
    let modifier ← tokenNode
    objectMemberRest rules start [modifier]
  else if ← atObjectAccessor then return some (← accessor rules start none)
  else objectMemberRest rules start []

/-- An object literal. -/
def objectLiteral (rules : Rules) : Parser Node := do
  let start ← pos
  let elements ← inContext bracketed (delimited .openBrace .closeBrace (objectMember rules))
  finish start (.objectLiteral elements (← isMultiLineFrom start))

/-- An expression in parentheses. -/
def parenthesized (rules : Rules) : Parser Node := do
  let start ← pos
  expect .openParen
  let inner ← inContext bracketed (expression rules)
  expect .closeParen
  finish start (.parenthesized inner)

/-- A function in the place of an expression. -/
def functionExpression (rules : Rules) : Parser Node := do
  let start ← pos
  let isAsync ← optional .asyncKeyword
  expect .functionKeyword
  let isGenerator ← optional .asterisk
  let name ← if ← atSignature then pure none else
    inContext (fun c => { c with async := false, generator := false }) identifier
  let signature ← signature rules isAsync isGenerator
  let body ← functionBody rules isAsync isGenerator
  finish start (.functionExpression
    { modifiers := none, isAsync, isGenerator, name, body
      typeParameters := signature.typeParameters
      parameters := signature.parameters
      returnType := signature.returnType })

/-- A primary expression that starts with a token of a kind of its own. -/
def primaryRest (k : TokenKind) : Parser (Option Node) := do
  match k with
  | .numericLiteral | .bigIntLiteral | .stringLiteral | .noSubstitutionTemplateLiteral =>
    return some (← literalNode)
  | .thisKeyword | .superKeyword | .nullKeyword | .trueKeyword | .falseKeyword
  | .importKeyword => return some (← tokenNode)
  | .slash | .slashEquals =>
    discard <| rescan Lexer.rescanSlash
    return some (← literalNode)
  | .privateIdentifier => return some (← privateIdentifierNode)
  | _ =>
    if ← atIdentifier then return some (← identifierNode)
    report .expressionExpected
    return none

/-- An expression with `new`, or `new.target`. -/
def newExpression (rules : Rules) : Parser Node := do
  let start ← pos
  if ← nextIs (· == .dot) then
    let keyword ← tokenNode
    expect .dot
    let name ← identifierName
    finish start (.propertyAccess keyword false name)
  else
    expect .newKeyword
    let calleeStart ← pos
    let callee ← match ← kind with
      | .superKeyword | .importKeyword => some <$> tokenNode
      | _ => rules .primary
    let callee ← match callee with
      | some callee => some <$> memberRest rules calleeStart false callee
      | none => pure none
    let typeArguments ← if ← at? .lessThan then
        if ← opensTypeArguments then some <$> typeArguments rules else pure none
      else pure none
    let arguments ← if ← at? .openParen then some <$> arguments rules else pure none
    finish start (.new callee typeArguments arguments)

/-- A primary expression. -/
def primary (rules : Rules) : Parser (Option Node) := do
  let k ← kind
  match k with
  | .templateHead => return some (← template rules)
  | .newKeyword => return some (← newExpression rules)
  | .openParen => return some (← parenthesized rules)
  | .openBracket => return some (← arrayLiteral rules)
  | .openBrace => return some (← objectLiteral rules)
  | .functionKeyword => return some (← functionExpression rules)
  | .asyncKeyword =>
    if ← nextOnSameLine (at? .functionKeyword) then return some (← functionExpression rules)
    primaryRest k
  | .classKeyword | .atSign => return some (← classExpression rules)
  | _ => primaryRest k

/-- A primary expression with the accesses and calls behind it. -/
def leftHandSide (rules : Rules) : Parser (Option Node) := do
  let start ← pos
  let first ← match ← kind with
    | .importKeyword | .superKeyword => some <$> tokenNode
    | _ => rules .primary
  match first with
  | some first => return some (← memberRest rules start true first)
  | none => return none

end Parser
end InlineValues

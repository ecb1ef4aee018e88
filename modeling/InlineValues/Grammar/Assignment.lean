import InlineValues.Grammar.Expression

/-!
# Operators, arrow functions and assignments

The upper half of the grammar of expressions: unary operators, chains of binary operators, and what
an assignment expression can be.
-/

namespace InlineValues
namespace Parser

/-! ## Unary operators -/

/-- Tokens that can be the operand of an `await` outside of asynchronous functions. -/
def followsAwait (k : TokenKind) : Bool :=
  isWord k || k == .numericLiteral || k == .bigIntLiteral || k == .stringLiteral ||
    k == .noSubstitutionTemplateLiteral || k == .templateHead

/-- Whether the `await` at the current token is an operator: in asynchronous functions it always
is, and elsewhere if an operand follows on the same line. -/
def awaitIsOperator : Parser Bool := do
  if (← get).context.async then return true
  nextOnSameLine do return followsAwait (← kind)

/-- A keyword in front of its operand. -/
def keywordUnary (rules : Rules) (operator : KeywordOperator) : Parser Node := do
  let start ← pos
  advance
  let operand ← rules .unary
  finish start (.keywordUnary operator operand)

/-- A sign in front of its operand, which `operand` reads. -/
def signUnary (operator : TokenKind) (operand : Parser (Option Node)) : Parser Node := do
  let start ← pos
  advance
  let operand ← operand
  finish start (.prefixUnary operator operand)

/-- A type in angle brackets in front of an operand. -/
def typeAssertion (rules : Rules) : Parser Node := do
  let start ← pos
  expect .lessThan
  let type ← rules .type
  expect .greaterThan
  let operand ← rules .unary
  finish start (.typeAssertion type operand)

/-- An operand with an increment or decrement behind it, on the same line. -/
def update (rules : Rules) : Parser (Option Node) := do
  let start ← pos
  match ← rules .leftHandSide with
  | none => return none
  | some operand =>
    let k ← kind
    if (k == .plusPlus || k == .minusMinus) && !(← afterLineBreak) then
      advance
      return some (← finish start (.postfixUnary operand k))
    return some operand

/-- An operand with the operators in front of it. -/
def unary (rules : Rules) : Parser (Option Node) := do
  let k ← kind
  match k with
  | .plusPlus | .minusMinus => return some (← signUnary k (rules .leftHandSide))
  | .plus | .minus | .tilde | .exclamation => return some (← signUnary k (rules .unary))
  | .deleteKeyword => return some (← keywordUnary rules .delete)
  | .typeOfKeyword => return some (← keywordUnary rules .typeOf)
  | .voidKeyword => return some (← keywordUnary rules .void)
  | .awaitKeyword =>
    if ← awaitIsOperator then return some (← keywordUnary rules .await)
    update rules
  | .lessThan => return some (← typeAssertion rules)
  | _ => update rules

/-! ## Binary operators -/

/-- Whether a binary operator stands here that continues an operand read at a precedence.  A `>` is
first extended by the characters behind it. -/
def operatorAt? (precedence : Nat) : Parser (Option TokenKind) := do
  let k ← rescan Lexer.rescanGreater
  if !k.continues precedence then return none
  if k == .inKeyword && (← get).context.disallowIn then return none
  if (k == .asKeyword || k == .satisfiesKeyword) && (← afterLineBreak) then return none
  return some k

/-- One operator with its right operand, behind a left operand. -/
def binaryStep (rules : Rules) (precedence start : Nat) (left : Node) :
    Parser (ForInStep Node) := do
  match ← operatorAt? precedence with
  | none => return .done left
  | some k =>
    advance
    if k == .asKeyword then
      let type ← rules .type
      return .yield (← finish start (.asExpression left type))
    if k == .satisfiesKeyword then
      let type ← rules .type
      return .yield (← finish start (.satisfies left type))
    let right ← rules (.binary k.precedence)
    return .yield (← finish start (.binary left k right))

/-- A chain of the binary operators that bind more tightly than a precedence. -/
def binary (rules : Rules) (precedence : Nat) : Parser (Option Node) := do
  let start ← pos
  match ← rules .unary with
  | none => return none
  | some first => return some (← repeatFrom first (binaryStep rules precedence start))

/-! ## Arrow functions -/

/-- The body of an arrow function: a block or an expression. -/
def arrowBody (rules : Rules) (isAsync : Bool) : Parser (Option Node) := do
  if ← at? .openBrace then some <$> functionBody rules isAsync false
  else
    inContext (fun c => { c with async := isAsync, generator := false }) (rules .assignment)

/-- An arrow function whose only parameter is a name, from behind that name on. -/
def nameArrow (rules : Rules) (start : Nat) (name : Node) (isAsync : Bool) : Parser Node := do
  let parameter ← nodeAt name.pos name.stop (.parameter
    { modifiers := none, isRest := false, name, optional := false, declaredType := none
      initializer := none })
  let parameters ← sequence [parameter]
  expect .equalsGreaterThan
  let body ← arrowBody rules isAsync
  finish start (.arrowFunction
    { modifiers := none, isAsync, isGenerator := false, name := none, typeParameters := none
      parameters, returnType := none, body })

/-- An arrow function whose parameters stand in parentheses. -/
def parametersArrow (rules : Rules) : Parser Node := do
  let start ← pos
  let isAsync ← optional .asyncKeyword
  let signature ← signature rules isAsync false
  expect .equalsGreaterThan
  let body ← arrowBody rules isAsync
  finish start (.arrowFunction
    { modifiers := none, isAsync, isGenerator := false, name := none, body
      typeParameters := signature.typeParameters
      parameters := signature.parameters
      returnType := signature.returnType })

/-- An arrow function, if one can be told from its first tokens. -/
def arrowFunction? (rules : Rules) : Parser (Option Node) := do
  match ← kind with
  | .openParen | .lessThan =>
    if ← opensArrow then return some (← parametersArrow rules) else return none
  | .asyncKeyword =>
    if ← opensAsyncArrow then
      let start ← pos
      advance
      let name ← identifierNode
      return some (← nameArrow rules start name true)
    if ← opensArrow then return some (← parametersArrow rules) else return none
  | _ => return none

/-! ## Assignments -/

/-- `yield` and what it yields. -/
def yieldExpression (rules : Rules) : Parser Node := do
  let start ← pos
  advance
  if (← afterLineBreak) || !((← at? .asterisk) || (← atExpression)) then
    finish start (.yield false none)
  else
    let delegates ← optional .asterisk
    let inner ← rules .assignment
    finish start (.yield delegates inner)

/-- The branches of a conditional expression behind its condition, if there are any. -/
def conditionalRest (rules : Rules) (start : Nat) (condition : Node) : Parser Node := do
  if ← optional .question then
    let whenTrue ←
      inContext (fun c => { c with disallowIn := false, whenTrue := true }) (rules .assignment)
    expect .colon
    let whenFalse ← inContext (fun c => { c with whenTrue := false }) (rules .assignment)
    finish start (.conditional condition whenTrue whenFalse)
  else return condition

/-- What follows the first operand of an assignment expression. -/
def assignmentRest (rules : Rules) (start : Nat) (left : Node) : Parser Node := do
  let k ← kind
  match left.form with
  | .identifier _ =>
    if k == .equalsGreaterThan then return ← nameArrow rules start left false
  | _ => pure ()
  if left.form.isAssignable && k.isAssignmentOperator then
    advance
    let right ← rules .assignment
    finish start (.binary left k right)
  else conditionalRest rules start left

/-- An expression without commas. -/
def assignment (rules : Rules) : Parser (Option Node) := do
  if (← at? .yieldKeyword) && (← get).context.generator then
    return some (← yieldExpression rules)
  match ← arrowFunction? rules with
  | some arrow => return some arrow
  | none =>
    let start ← pos
    match ← rules (.binary 0) with
    | none => return none
    | some left => return some (← assignmentRest rules start left)

end Parser
end InlineValues

import InlineValues.Grammar.Declaration

/-!
# Statements

The first token of a statement usually tells what it is.  Words that are also names need a look at
what follows, and whatever is nothing else is a labelled statement or an expression.
-/

namespace InlineValues
namespace Parser

/-! ## Simple statements -/

/-- An expression as a statement. -/
def expressionStatement (rules : Rules) : Parser (Option Node) := do
  let start ← pos
  match ← expression rules with
  | none => return none
  | some inner =>
    semicolon
    return some (← finish start (.expressionStatement inner))

/-- A statement behind a label. -/
def labeledStatement (rules : Rules) : Parser Node := do
  let start ← pos
  let label ← identifierNode
  expect .colon
  let body ← rules .statement
  finish start (.labeledStatement label body)

/-- A jump, perhaps to a label. -/
def jump (form : Option Node → Form Node) : Parser Node := do
  let start ← pos
  advance
  let label ← if ← canEndStatement then pure none
    else if ← atIdentifier then some <$> identifierNode
    else pure none
  semicolon
  finish start (form label)

/-- A return with its value. -/
def returnStatement (rules : Rules) : Parser Node := do
  let start ← pos
  expect .returnKeyword
  let value ← if ← canEndStatement then pure none else expression rules
  semicolon
  finish start (.returnStatement value)

/-- A throw with its value, which has to start on the same line. -/
def throwStatement (rules : Rules) : Parser Node := do
  let start ← pos
  expect .throwKeyword
  let value ← if ← afterLineBreak then do
      report .expressionExpected
      pure none
    else expression rules
  semicolon
  finish start (.throwStatement value)

/-- A `debugger` statement. -/
def debuggerStatement : Parser Node := do
  let start ← pos
  expect .debuggerKeyword
  semicolon
  finish start .debuggerStatement

/-! ## Conditions and loops -/

/-- An expression in parentheses behind a keyword. -/
def condition (rules : Rules) : Parser (Option Node) := do
  expect .openParen
  let inner ← inContext bracketed (expression rules)
  expect .closeParen
  return inner

/-- An `if` with its branches. -/
def ifStatement (rules : Rules) : Parser Node := do
  let start ← pos
  expect .ifKeyword
  let test ← condition rules
  let thenBranch ← rules .statement
  let elseBranch ← if ← optional .elseKeyword then rules .statement else pure none
  finish start (.ifStatement test thenBranch elseBranch)

/-- A loop whose condition stands behind its body. -/
def doStatement (rules : Rules) : Parser Node := do
  let start ← pos
  expect .doKeyword
  let body ← rules .statement
  expect .whileKeyword
  let test ← condition rules
  discard <| optional .semicolon
  finish start (.doStatement body test)

/-- A loop whose condition stands in front of its body. -/
def whileStatement (rules : Rules) : Parser Node := do
  let start ← pos
  expect .whileKeyword
  let test ← condition rules
  let body ← rules .statement
  finish start (.whileStatement test body)

/-- A statement in the scope of an object. -/
def withStatement (rules : Rules) : Parser Node := do
  let start ← pos
  expect .withKeyword
  let object ← condition rules
  let body ← rules .statement
  finish start (.withStatement object body)

/-- What stands in front of the first separator in the head of a `for`. -/
def forInitializer (rules : Rules) : Parser (Option Node) := do
  if ← at? .semicolon then return none
  let noIn (c : Context) : Context := { c with disallowIn := true }
  if ← atVariables then some <$> inContext noIn (variableList rules)
  else inContext noIn (expression rules)

/-- The rest of a `for` over the elements of something, from `of` on. -/
def forOfRest (rules : Rules) (start : Nat) (isAwait : Bool) (binding : Option Node) :
    Parser Node := do
  advance
  let iterated ← inContext allowIn (rules .assignment)
  expect .closeParen
  let body ← rules .statement
  finish start (.forOfStatement isAwait binding iterated body)

/-- The rest of a `for` over the keys of an object, from `in` on. -/
def forInRest (rules : Rules) (start : Nat) (binding : Option Node) : Parser Node := do
  advance
  let iterated ← inContext allowIn (expression rules)
  expect .closeParen
  let body ← rules .statement
  finish start (.forInStatement binding iterated body)

/-- The rest of a `for` with a condition, from the first semicolon on. -/
def forRest (rules : Rules) (start : Nat) (binding : Option Node) : Parser Node := do
  expect .semicolon
  let k ← kind
  let test ← if k == .semicolon || k == .closeParen then pure none
    else inContext allowIn (expression rules)
  expect .semicolon
  let incrementor ← if ← at? .closeParen then pure none
    else inContext allowIn (expression rules)
  expect .closeParen
  let body ← rules .statement
  finish start (.forStatement binding test incrementor body)

/-- A `for` of any sort. -/
def forStatement (rules : Rules) : Parser Node := do
  let start ← pos
  expect .forKeyword
  let isAwait ← optional .awaitKeyword
  expect .openParen
  let binding ← forInitializer rules
  let k ← kind
  if isAwait || k == .ofKeyword then forOfRest rules start isAwait binding
  else if k == .inKeyword then forInRest rules start binding
  else forRest rules start binding

/-! ## Switches and exceptions -/

/-- The tokens behind the statements of a clause. -/
def endsClause (k : TokenKind) : Bool := k == .caseKeyword || k == .defaultKeyword || endsBlock k

/-- A clause of a switch. -/
def switchClause (rules : Rules) : Parser Node := do
  let start ← pos
  if ← optional .caseKeyword then
    let value ← expression rules
    expect .colon
    let statements ← statementsUntil rules endsClause
    finish start (.caseClause value statements)
  else
    expect .defaultKeyword
    expect .colon
    let statements ← statementsUntil rules endsClause
    finish start (.defaultClause statements)

/-- The clauses of a switch, in braces. -/
def caseBlock (rules : Rules) : Parser Node := do
  let start ← pos
  expect .openBrace
  let clauses ← repeatFrom [] fun clauses => do
    let k ← kind
    if k == .caseKeyword || k == .defaultKeyword then
      return .yield ((← switchClause rules) :: clauses)
    return .done clauses
  let list ← sequence clauses.reverse
  expect .closeBrace
  finish start (.caseBlock list)

/-- A switch. -/
def switchStatement (rules : Rules) : Parser Node := do
  let start ← pos
  expect .switchKeyword
  let value ← condition rules
  let cases ← caseBlock rules
  finish start (.switchStatement value cases)

/-- The binding of a caught exception, in parentheses. -/
def catchBinding? (rules : Rules) : Parser (Option Node) := do
  if !(← optional .openParen) then return none
  let start ← pos
  let name ← rules .bindingName
  let type ← typeAnnotation rules
  let binding ← finish start (.variableDeclaration name false type none)
  expect .closeParen
  return some binding

/-- A `catch` with its binding and block. -/
def catchClause (rules : Rules) : Parser Node := do
  let start ← pos
  expect .catchKeyword
  let binding ← catchBinding? rules
  let body ← block rules
  finish start (.catchClause binding body)

/-- A `try` with its clauses.  Without a `catch` there has to be a `finally`. -/
def tryStatement (rules : Rules) : Parser Node := do
  let start ← pos
  expect .tryKeyword
  let body ← block rules
  let catching ← if ← at? .catchKeyword then some <$> catchClause rules else pure none
  let finalBlock ← if catching.isNone || (← at? .finallyKeyword) then do
      expect .finallyKeyword
      some <$> block rules
    else pure none
  finish start (.tryStatement body catching finalBlock)

/-! ## Any statement -/

/-- Whether a declaration other than of variables starts at a word that may also be a name. -/
def atDeclaration : Parser Bool := do
  match ← kind with
  | .asyncKeyword => nextOnSameLineIs .functionKeyword
  | .abstractKeyword => nextOnSameLineIs .classKeyword
  | .interfaceKeyword | .typeKeyword => nextOnSameLine atIdentifier
  | .namespaceKeyword | .moduleKeyword => moduleDeclares
  | .declareKeyword => declareModifies
  | .functionKeyword | .classKeyword | .enumKeyword => return true
  | .constKeyword => beforeEnum
  | _ => return false

/-- A statement that its first token does not tell: one with a label, or an expression. -/
def otherStatement (rules : Rules) : Parser (Option Node) := do
  if ← atIdentifier then
    if ← nextIs (· == .colon) then return some (← labeledStatement rules)
  if ← atExpression then expressionStatement rules
  else
    report .declarationOrStatementExpected
    return none

/-- A statement that starts with decorators. -/
def decoratedStatement (rules : Rules) : Parser (Option Node) := do
  let start ← pos
  let decorators ← decorators rules
  if ← at? .exportKeyword then exported rules start decorators
  else declaration rules start decorators

/-- A statement that starts with a word which may also be a name, or with anything else. -/
def wordStatement (rules : Rules) : Parser (Option Node) := do
  if ← atDeclaration then declaration rules (← pos) []
  else if ← atVariables then some <$> variableStatement rules (← pos) none
  else otherStatement rules

/-- A statement. -/
def statement (rules : Rules) : Parser (Option Node) := do
  match ← kind with
  | .openBrace => return some (← block rules)
  | .semicolon => return some (← emptyNode .emptyStatement)
  | .atSign => decoratedStatement rules
  | .ifKeyword => return some (← ifStatement rules)
  | .doKeyword => return some (← doStatement rules)
  | .whileKeyword => return some (← whileStatement rules)
  | .forKeyword => return some (← forStatement rules)
  | .continueKeyword => return some (← jump .continueStatement)
  | .breakKeyword => return some (← jump .breakStatement)
  | .returnKeyword => return some (← returnStatement rules)
  | .throwKeyword => return some (← throwStatement rules)
  | .withKeyword => return some (← withStatement rules)
  | .switchKeyword => return some (← switchStatement rules)
  | .tryKeyword => return some (← tryStatement rules)
  | .debuggerKeyword => return some (← debuggerStatement)
  | .importKeyword =>
    if ← nextIs (fun k => k == .openParen || k == .dot) then otherStatement rules
    else return some (← importDeclaration)
  | .exportKeyword => exported rules (← pos) []
  | _ => wordStatement rules

end Parser
end InlineValues

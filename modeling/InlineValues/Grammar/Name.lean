import InlineValues.Grammar.Parser

/-!
# Names, literals and other leaves

Which words may be names depends on the place.  A binding may use every word that is not reserved,
except `yield` in a generator and `await` in an asynchronous function; a name behind a point may use
every word.

Where the grammar asks for a literal it takes any token.  A token that is no literal becomes a bare
leaf, except that a name is looked up: names and literals are both numbered through the whole text,
and the leaf shows the name that has the number of the literal.
-/

namespace InlineValues
namespace Parser

/-! ## Which tokens are names -/

/-- Whether the current token can name a binding. -/
def atIdentifier : Parser Bool := do
  let context := (← get).context
  match ← kind with
  | .identifier => return true
  | .yieldKeyword => return !context.generator
  | .awaitKeyword => return !context.async
  | k => return k.isAnyKeyword && !k.isReservedWord

/-- A name or any keyword. -/
def isWord (k : TokenKind) : Bool := k == .identifier || k.isAnyKeyword

/-- The tokens with which the name of a property can start. -/
def startsPropertyName (k : TokenKind) : Bool :=
  isWord k || k == .stringLiteral || k == .numericLiteral || k == .bigIntLiteral ||
    k == .openBracket || k == .privateIdentifier

/-! ## Leaves -/

/-- Consume the current token as a leaf that its kind tells all about. -/
def tokenNode : Parser Node := do
  let start ← pos
  let k ← kind
  advance
  finish start (.token k)

/-- Consume the current token as a leaf that holds its value as a name. -/
def nameNode (form : List Char → Form Node) : Parser Node := do
  let start ← pos
  let text ← value
  advance
  finish start (form text)

/-- Consume the current token as a name. -/
def identifierNode : Parser Node := nameNode .identifier

/-- Consume the current token as a private name. -/
def privateIdentifierNode : Parser Node := nameNode .privateIdentifier

/-- A name that can be a binding. -/
def identifier : Parser (Option Node) := do
  if ← atIdentifier then return some (← identifierNode)
  report .identifierExpected
  return none

/-- A name that may be any word. -/
def identifierName : Parser (Option Node) := do
  if isWord (← kind) then return some (← identifierNode)
  report .identifierExpected
  return none

/-- A name behind a point, which may be private. -/
def memberName : Parser (Option Node) := do
  if ← at? .privateIdentifier then return some (← privateIdentifierNode)
  identifierName

/-- The form of a token that stands in the place of literal number `n`. -/
def literalForm (names : Array (List Char)) (n : Nat) (k : TokenKind) (text : List Char) :
    Form Node :=
  if k.isLiteral || k.isTemplatePiece then .literal k text
  else
    match k, names[n]? with
    | .identifier, some name => .identifier name
    | .privateIdentifier, some name => .privateIdentifier name
    | _, _ => .token k

/-- Consume the current token as a literal. -/
def literalNode : Parser Node := do
  let start ← pos
  let k ← kind
  let text ← value
  advance
  modify fun s => { s with
    consulted := s.consulted || k == .identifier || k == .privateIdentifier }
  let s ← get
  let form := literalForm s.knownNames (s.arena.pool .literals).size k text
  addNode start s.previousStop form (.literal k text)

/-- Consume the current token as a part of the tree without a payload, such as `;` as a
statement. -/
def emptyNode (form : Form Node) : Parser Node := do
  let start ← pos
  advance
  finish start form

/-! ## Composite names -/

/-- Qualify a name by further names behind points. -/
def qualifiedRest (start : Nat) (left : Node) : Parser Node :=
  repeatFrom left fun left => do
    if ← optional .dot then
      let right ← identifierName
      return .yield (← finish start (.qualifiedName left right))
    return .done left

/-- A name with points, such as `A.B.C`. -/
def entityName : Parser (Option Node) := do
  let start ← pos
  let first ← if ← at? .thisKeyword then some <$> tokenNode else identifierName
  match first with
  | some first => return some (← qualifiedRest start first)
  | none => return none

/-- Expressions with commas between them. -/
def expression (rules : Rules) : Parser (Option Node) := do
  let start ← pos
  match ← rules .assignment with
  | none => return none
  | some first =>
    return some (← repeatFrom first fun left => do
      if ← optional .comma then
        let right ← rules .assignment
        return .yield (← finish start (.binary left .comma right))
      return .done left)

/-- Leave the head of a loop and the first branch of a conditional expression, as brackets do. -/
def bracketed (c : Context) : Context := { c with disallowIn := false, whenTrue := false }

/-- Allow `in` as an operator. -/
def allowIn (c : Context) : Context := { c with disallowIn := false }

/-- The name of a property: a word, a string or number, a private name, or an expression in
brackets. -/
def propertyName (rules : Rules) : Parser (Option Node) := do
  match ← kind with
  | .stringLiteral | .numericLiteral | .bigIntLiteral => return some (← literalNode)
  | .privateIdentifier => return some (← privateIdentifierNode)
  | .openBracket =>
    let start ← pos
    advance
    let inner ← inContext allowIn (expression rules)
    expect .closeBracket
    return some (← finish start (.computedPropertyName inner))
  | _ => identifierName

/-- An initializer behind `=`, if there is one. -/
def initializer (rules : Rules) : Parser (Option Node) := do
  if ← optional .equals then rules .assignment else return none

/-! ## Templates -/

/-- The substitutions of a template and the pieces of text behind them.  `inner` reads what is
substituted. -/
def templateSpans (inner : Parser (Option Node)) (form : Option Node → Node → Form Node) :
    Parser (Sequence Node) := do
  let spans ← repeatFrom [] fun spans => do
    let start ← pos
    let inner ← inner
    if !(← at? .closeBrace) then
      expect .closeBrace
      return .done spans
    let piece ← rescan Lexer.rescanTemplate
    let literal ← literalNode
    let spans := (← finish start (form inner literal)) :: spans
    return if piece == .templateMiddle then .yield spans else .done spans
  sequence spans.reverse

end Parser
end InlineValues

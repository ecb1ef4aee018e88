import InlineValues.Grammar.Name

/-!
# Blocks

A block is a list of statements between braces.  A statement that consumes nothing would stop the
list, so that the token it failed at is dropped in its place.
-/

namespace InlineValues

/-- Whether the text of `[start, stop)` holds a line feed. -/
def Source.hasLineFeed (s : Source) (start stop : Nat) : Bool :=
  (s.slice start stop).contains '\n'

/-- Whether the text of `[start, stop)` holds a line feed behind its leading white space. -/
def Source.isMultiLine (s : Source) (start stop : Nat) : Bool :=
  ((s.slice start stop).dropWhile isWhiteSpace).contains '\n'

namespace Parser

/-- Whether the range from `start` to the last consumed token is written on several lines. -/
def isMultiLineFrom (start : Nat) : Parser Bool := do
  let s ← get
  return s.lexer.source.isMultiLine start s.previousStop

/-- Read a statement in front of those of `statements`, or drop a token. -/
def consStatement (rules : Rules) (statements : List Node) : Parser (List Node) := do
  let before ← pos
  let statement ← rules .statement
  if (← pos) == before && !(← at? .endOfFile) then advance
  return consNode? statement statements

/-- Statements up to a token that passes a test. -/
def statementsUntil (rules : Rules) (isEnd : TokenKind → Bool) : Parser (Sequence Node) := do
  let statements ← repeatFrom [] fun statements => do
    if isEnd (← kind) then return .done statements
    return .yield (← consStatement rules statements)
  sequence statements.reverse

/-- The tokens behind the statements of a block. -/
def endsBlock (k : TokenKind) : Bool := k == .closeBrace || k == .endOfFile

/-- A block. -/
def block (rules : Rules) : Parser Node := do
  let start ← pos
  let opening := (← get).lexer.stop
  expect .openBrace
  let statements ←
    inContext (fun c => { c with whenTrue := false }) (statementsUntil rules endsBlock)
  let closing := (← get).lexer.token.start
  expect .closeBrace
  let multiLine := (← get).lexer.source.hasLineFeed opening (max closing opening)
  finish start (.block statements multiLine)

end Parser
end InlineValues

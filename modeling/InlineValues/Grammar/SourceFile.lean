import InlineValues.Grammar.Statement

/-!
# The tree of a source file

`grammar` closes the circle of the productions by recursion on a bound for their depth, and `parse`
reads a whole text with it.

Every text has a tree.  What could not be read is reported, and the report is sorted by position;
what the lexer found wrong comes behind what the parser found wrong at the same position.
-/

namespace InlineValues

namespace Parser

/-- The production of each symbol. -/
def production (rules : Rules) : Rules
  | .type => nested (anyType rules)
  | .typeOperator => operatorType rules
  | .typeMember => typeMember rules
  | .parameter => parameter rules
  | .bindingName => bindingName rules
  | .assignment => nested (assignment rules)
  | .binary precedence => binary rules precedence
  | .unary => nested (unary rules)
  | .leftHandSide => leftHandSide rules
  | .primary => primary rules
  | .statement => nested (statement rules)

/-- The grammar, down to a depth. -/
def grammar : (fuel : Nat) → Rules
  | 0, _ => do
    stall
    return none
  | fuel + 1, symbol => production (grammar fuel) symbol

/-- A bound for the depth of the grammar on a text.  Between two tokens no more than a dozen symbols
open one inside the other. -/
def depthBound (s : Source) : Nat := 16 * (s.size + maxParserDepth + 2)

/-- The statements of a file.  A closing brace that closes nothing is reported and dropped. -/
def fileStatements (rules : Rules) : Parser (Sequence Node) := do
  let statements ← repeatFrom [] fun statements => do
    if ← at? .endOfFile then return .done statements
    if ← at? .closeBrace then
      report .declarationOrStatementExpected
      advance
      return .yield statements
    return .yield (← consStatement rules statements)
  sequence statements.reverse

/-- A whole file. -/
def sourceFile (fileName : String) : Parser Node := do
  modify fun s => { s with lexer := s.lexer.skipShebang }
  advance
  let source := (← get).lexer.source
  let statements ← fileStatements (grammar (depthBound source))
  let endOfFile ← nodeAt (← pos) source.size (.token .endOfFile)
  nodeAt 0 source.size (.sourceFile fileName statements endOfFile)

end Parser

/-- A source text with its tree, the arena of its nodes, and what is wrong with it. -/
structure ParsedFile where
  source : Source
  root : Node
  arena : Arena
  diagnostics : List Diagnostic

/-- Parse a text whose names are known already. -/
def parseWith (fileName : String) (source : Source) (knownNames : Array (List Char)) :
    Node × ParserState :=
  (Parser.sourceFile fileName).run (.start source knownNames)

/-- What is wrong with a text, ordered by position. -/
def ParserState.allDiagnostics (s : ParserState) : List Diagnostic :=
  (s.diagnostics ++ s.lexer.diagnostics).toList.mergeSort fun a b => a.start ≤ b.start

/-- Parse a source text.  Where the tree depends on the names of the whole text, a first pass
collects them. -/
def parse (fileName : String) (source : Source) : ParsedFile :=
  let first := parseWith fileName source #[]
  let (root, state) :=
    if first.2.consulted then parseWith fileName source first.2.arena.names else first
  { source, root, arena := state.arena, diagnostics := state.allDiagnostics }

theorem source_parse (fileName : String) (s : Source) : (parse fileName s).source = s := by
  rfl

end InlineValues

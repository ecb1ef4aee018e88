import InlineValues.Diagnostic
import InlineValues.Token.Lexer
import InlineValues.Tree.Arena

/-!
# Parsers

A `Parser` consumes tokens from a lexer and collects diagnostics.  The grammar is written with the
operations of this module: reading tokens, looking ahead, reporting faults, guarding the depth of
recursion, and lists.

Three rules hold throughout.  A node starts where the trivia of its first token starts and ends
where the last token that was consumed ends.  At one offset only the first fault is reported, so
that a missing token does not cause a cascade.  Where nothing can be read, a production consumes
nothing and gives no node; the lists then make sure that the parser moves on.

The productions of the grammar call each other in circles.  Each takes the whole grammar as an
argument, `rules`, a function of the `Nonterminal`, and the circle is closed in one place, where
`rules` is defined by recursion on a bound for the depth.

The kind of the current token and the end of the last consumed one are kept in the state beside
the lexer.  Coming back from reading ahead puts back these, the lexer and the faults, and nothing
else of the state.  So that it can be said of every call what it leaves alone, a parser has a record
of the calls within its runs (`Parser.within`).
-/

namespace InlineValues

/-! ## State -/

/-- What the surroundings of a place decide about the grammar there. -/
structure Context where
  /-- `in` is not an operator, because it would end the head of a loop. -/
  disallowIn : Bool := false
  /-- `await` is an operator. -/
  async : Bool := false
  /-- `yield` is an operator. -/
  generator : Bool := false
  /-- The place lies in the first branch of a conditional expression, whose colon ends it. -/
  whenTrue : Bool := false
  deriving DecidableEq, Repr

/-- The state of a parser. -/
structure ParserState where
  lexer : Lexer
  /-- The kind of the current token. -/
  current : TokenKind := .unknown
  /-- The end of the last token that was consumed. -/
  previousStop : Nat := 0
  diagnostics : Array Diagnostic := #[]
  /-- Where the last fault was reported. -/
  lastFault : Option Nat := none
  context : Context := {}
  /-- How many guarded productions are open. -/
  depth : Nat := 0
  /-- Whether a guarded production was asked for at the deepest level. -/
  refused : Bool := false
  /-- The nodes that were made so far. -/
  arena : Arena := {}
  /-- The names of the whole text, where they are known. -/
  knownNames : Array (List Char) := #[]
  /-- Whether a leaf had to be looked up among the names of the whole text. -/
  consulted : Bool := false
  /-- Whether a round of a loop ended where it began and was not the last one, or a bound on the
  rounds of a loop or on the depth of the grammar was reached.  Neither ever happens. -/
  stalled : Bool := false

/-- The state of a parser at the start of a text. -/
def ParserState.start (source : Source) (knownNames : Array (List Char)) : ParserState :=
  { lexer := .start source, knownNames }

/-- The state after a node was added to the arena. -/
def ParserState.added (s : ParserState) (pos stop : Nat) (payload : Form Nat) : ParserState :=
  { s with arena := s.arena.add pos stop payload }

/-- What a parser remembers of its state to come back to it. -/
structure ParserSnapshot where
  lexer : Lexer.Snapshot
  current : TokenKind
  previousStop : Nat
  diagnosticCount : Nat
  lastFault : Option Nat
  deriving DecidableEq, Repr

/-- Remember the state of a parser. -/
def ParserState.save (s : ParserState) : ParserSnapshot :=
  ⟨s.lexer.save, s.current, s.previousStop, s.diagnostics.size, s.lastFault⟩

/-- Come back to a remembered state.  The context, the depth and the arena are left as they are. -/
def ParserState.restore (s : ParserState) (k : ParserSnapshot) : ParserState :=
  { s with
    lexer := s.lexer.restore k.lexer
    current := k.current
    previousStop := k.previousStop
    diagnostics := s.diagnostics.shrink k.diagnosticCount
    lastFault := k.lastFault }

/-! ## Parsers -/

/-- A call of a parser: the states at its entry and at its exit, and whether it was a call to look
ahead. -/
structure Call where
  entry : ParserState
  exit : ParserState
  ahead : Bool := false

/-- A parser.  Beside what it does there is the record of the calls that are made within a run from
a state.  The record is a proposition, which costs a run nothing. -/
structure Parser (α : Type) where
  run : ParserState → α × ParserState
  within : ParserState → Call → Prop

namespace Parser

/-- The calls that are made in a run from a state: that of the parser, and those within it. -/
def calls (p : Parser α) (s : ParserState) (c : Call) : Prop :=
  c = { entry := s, exit := (p.run s).2 } ∨ p.within s c

/-- A parser that calls no others. -/
@[always_inline, inline]
def primitive (run : ParserState → α × ParserState) : Parser α := ⟨run, fun _ _ => False⟩

@[always_inline]
instance : Monad Parser where
  pure a := primitive fun s => (a, s)
  bind p f :=
    { run := fun s =>
        let (a, s) := p.run s
        (f a).run s
      within := fun s c => p.calls s c ∨ (f (p.run s).1).calls (p.run s).2 c }

@[always_inline]
instance : MonadStateOf ParserState Parser where
  get := primitive fun s => (s, s)
  set s := primitive fun _ => ((), s)
  modifyGet f := primitive f

end Parser

/-- The symbols of the grammar that call each other in circles. -/
inductive Nonterminal where
  | type
  | typeOperator
  | typeMember
  | parameter
  | bindingName
  | assignment
  | binary (precedence : Nat)
  | unary
  | leftHandSide
  | primary
  | statement
  deriving DecidableEq, Repr

/-- A grammar: a parser for each symbol. -/
abbrev Rules := Nonterminal → Parser (Option Node)

/-- The largest number of guarded productions that may be open at a time. -/
def maxParserDepth : Nat := 1000

namespace Parser

/-! ## Tokens -/

/-- The kind of the current token. -/
def kind : Parser TokenKind := return (← get).current

/-- Whether the current token is of a kind. -/
def at? (k : TokenKind) : Parser Bool := return (← get).current == k

/-- Where the trivia of the current token starts. -/
def pos : Parser Nat := return (← get).lexer.token.fullStart

/-- The value of the current token. -/
def value : Parser (List Char) := return (← get).lexer.token.value

/-- Whether a line break stands in front of the current token. -/
def afterLineBreak : Parser Bool := return (← get).lexer.token.afterLineBreak

/-- Consume the current token. -/
def advance : Parser Unit :=
  modify fun s =>
    let previousStop := s.lexer.stop
    let lexer := s.lexer.scan
    { s with previousStop, lexer, current := lexer.token.kind }

/-- Read the current token in another way. -/
def rescan (f : Lexer → Lexer) : Parser TokenKind := do
  modify fun s =>
    let lexer := f s.lexer
    { s with lexer, current := lexer.token.kind }
  kind

/-- Consume the current token if it is of a kind, and say whether it was. -/
def optional (k : TokenKind) : Parser Bool := do
  if ← at? k then
    advance
    return true
  else return false

/-- Make a node with a payload of its own and add it to the arena. -/
def addNode (pos stop : Nat) (form : Form Node) (payload : Form Nat) : Parser Node :=
  primitive fun s => (⟨⟨pos, s.arena.size⟩, stop, form⟩, s.added pos stop payload)

/-- The node with a range and a form.  Its payload lists the numbers of its parts. -/
def nodeAt (pos stop : Nat) (form : Form Node) : Parser Node :=
  addNode pos stop form (form.map fun n => n.index)

/-- The node that starts at `pos` and ends with the last consumed token. -/
def finish (pos : Nat) (form : Form Node) : Parser Node := do
  nodeAt pos (← get).previousStop form

/-! ## Faults -/

/-- Report a fault at a place, unless one was just reported there. -/
def reportAt (start length : Nat) (fault : Fault) : Parser Unit :=
  modify fun s =>
    if s.lastFault == some start then s
    else
      { s with
        lastFault := some start
        diagnostics := s.diagnostics.push ⟨start, length, fault⟩ }

/-- Report a fault of the current token. -/
def report (fault : Fault) : Parser Unit := do
  let s ← get
  reportAt s.lexer.token.start (s.lexer.stop - s.lexer.token.start) fault

/-- Consume the current token if it is of a kind, and report that it is missing otherwise. -/
def expect (k : TokenKind) : Parser Unit := do
  if !(← optional k) then report (.textExpected k.spelling)

/-- Whether a statement may end here without a semicolon of its own. -/
def canEndStatement : Parser Bool := do
  match ← kind with
  | .semicolon | .closeBrace | .endOfFile => return true
  | _ => afterLineBreak

/-- The end of a statement. -/
def semicolon : Parser Unit := do
  if ← canEndStatement then discard <| optional .semicolon
  else expect .semicolon

/-! ## Looking ahead and guarding the depth -/

/-- Run a parser and come back to the place where it started. -/
def lookAhead (p : Parser α) : Parser α where
  run s :=
    let snapshot := s.save
    let (a, s) := p.run s
    (a, s.restore snapshot)
  within s c := p.calls s c ∨ c = ⟨s, (p.run s).2.restore s.save, true⟩

/-- Whether the next token stands on the same line and passes a test. -/
def nextOnSameLine (test : Parser Bool) : Parser Bool :=
  lookAhead do
    advance
    if ← afterLineBreak then return false else test

/-- Whether the next token is of a kind that passes a test. -/
def nextIs (test : TokenKind → Bool) : Parser Bool :=
  lookAhead do
    advance
    return test (← kind)

/-- Run a parser in another context. -/
def inContext (change : Context → Context) (p : Parser α) : Parser α where
  run s :=
    let context := s.context
    let (a, s) := p.run { s with context := change s.context }
    (a, { s with context })
  within s c := p.calls { s with context := change s.context } c

/-- Refuse a production at the deepest level.  That is reported the first time. -/
def refuse : Parser (Option Node) := do
  let s ← get
  modify fun s => { s with refused := true }
  if !s.diagnostics.any (fun d => d.fault == .excessiveNesting) then report .excessiveNesting
  return none

/-- Run a production one level deeper.  At the deepest level it gives no node. -/
def nested (p : Parser (Option Node)) : Parser (Option Node) where
  run s :=
    if s.depth < maxParserDepth then
      let (node, s) := p.run { s with depth := s.depth + 1 }
      (node, { s with depth := s.depth - 1 })
    else refuse.run s
  within s c :=
    if s.depth < maxParserDepth then p.calls { s with depth := s.depth + 1 } c
    else refuse.calls s c

/-! ## Loops and lists -/

/-- Note that the parser does not move on. -/
def stall : Parser Unit := modify fun s => { s with stalled := true }

/-- Run a step until it is done, at most `fuel` times.  A step that goes on has to move on. -/
def iterate (step : β → Parser (ForInStep β)) : (fuel : Nat) → β → Parser β
  | 0, b => do
    stall
    return b
  | fuel + 1, b => do
    let before ← pos
    match ← step b with
    | .yield b =>
      if (← pos) ≤ before then stall
      iterate step fuel b
    | .done b => return b

/-- Run a step until it is done.  A step that goes on consumes a token, so that the size of the text
bounds their number. -/
def repeatFrom (b : β) (step : β → Parser (ForInStep β)) : Parser β := do
  iterate step ((← get).lexer.source.size + 2) b

/-- A list of nodes with the range from the first one to the last one.  Without a first one it
starts at the current token. -/
def sequenceOf (items : List α) (node? : α → Option Node) : Parser (Sequence α) := do
  let here ← pos
  let pos := ((items.head?.bind node?).map (·.pos)).getD here
  let stop := ((items.getLast?.bind node?).map Node.stop).getD pos
  return { items, pos, stop }

/-- A list of nodes with its range. -/
def sequence (items : List Node) : Parser (Sequence Node) := sequenceOf items some

/-- A list of nodes with its range, or nothing if the list is empty. -/
def sequence? (items : List Node) : Parser (Option (Sequence Node)) := do
  if items.isEmpty then return none else return some (← sequence items)

/-- Put a node, if there is one, in front of a list. -/
def consNode? (node : Option Node) (nodes : List Node) : List Node :=
  match node with
  | some node => node :: nodes
  | none => nodes

/-- One step of a list with separators.  An element that consumes nothing ends the list. -/
def delimitedStep (close : TokenKind) (element : Parser (Option Node)) (read : List Node × Bool) :
    Parser (ForInStep (List Node × Bool)) := do
  if (← at? close) || (← at? .endOfFile) then return .done read
  let before ← pos
  let nodes := consNode? (← element) read.1
  if ← optional .comma then return .yield (nodes, true)
  if (← at? close) || (← pos) == before then return .done (nodes, false)
  expect .comma
  return .yield (nodes, false)

/-- A list between two tokens with commas between its elements, and perhaps one behind the last. -/
def delimited (opening close : TokenKind) (element : Parser (Option Node)) :
    Parser (Sequence Node) := do
  expect opening
  let (nodes, trailingComma) ← repeatFrom ([], false) (delimitedStep close element)
  let list ← sequence nodes.reverse
  expect close
  return { list with trailingComma }

end Parser

end InlineValues

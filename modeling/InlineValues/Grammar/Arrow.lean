import InlineValues.Grammar.Parser
import InlineValues.Grammar.Name

/-!
# Looking ahead in expressions

Three constructs can be told apart from others only by what follows a pair of brackets: the
parameters of an arrow function, type arguments of a call, and the type of a result.  These
functions read ahead on the level of tokens and count brackets.  Inside a template they have to read
the closing brace of a substitution together with the text behind it, for which they keep a stack of
the open braces.
-/

namespace InlineValues
namespace Parser

/-- Consume a token, where `braces` tells for each open brace whether it is a substitution's. -/
def skipToken (braces : List Bool) : Parser (List Bool) := do
  let braces ← match ← kind with
    | .openBrace => pure (false :: braces)
    | .templateHead => pure (true :: braces)
    | .closeBrace =>
      match braces with
      | true :: outer => do
        let piece ← rescan Lexer.rescanTemplate
        pure (if piece == .templateMiddle then true :: outer else outer)
      | braces => pure braces.tail
    | _ => pure braces
  advance
  return braces

/-- A count of brackets on the way through some tokens, and what was found at their end. -/
structure Balance where
  depth : Nat := 0
  braces : List Bool := []
  found : Bool := false

/-- Skip from an opening token to behind the token that closes it, and say whether there is one. -/
def skipBalanced (opening closing : TokenKind) : Parser Bool := do
  let balance ← repeatFrom ({} : Balance) fun b => do
    let k ← kind
    if k == .endOfFile then return .done b
    if k == closing && b.depth ≤ 1 then
      advance
      return .done { b with found := true }
    let depth := if k == opening then b.depth + 1 else if k == closing then b.depth - 1 else b.depth
    return .yield { b with depth, braces := ← skipToken b.braces }
  return balance.found

/-- How a token changes the depth of brackets in a type, if it can stand there.  `first` says that
it is the first token of the type. -/
def returnTypeDepth? (k : TokenKind) (depth : Nat) (first : Bool) : Option Nat :=
  match k with
  | .openParen | .openBracket | .lessThan => some (depth + 1)
  | .openBrace => if depth == 0 && !first then none else some (depth + 1)
  | .closeParen | .closeBracket | .closeBrace | .greaterThan =>
    if depth == 0 then none else some (depth - 1)
  | .semicolon | .comma | .equals => if depth == 0 then none else some depth
  | _ => some depth

/-- Skip the type of a result, and say whether an arrow follows it. -/
def skipReturnType : Parser Bool := do
  let (balance, _) ← repeatFrom (({} : Balance), true) fun (b, first) => do
    let k ← kind
    if k == .endOfFile then return .done (b, first)
    if k == .equalsGreaterThan && b.depth == 0 then return .done ({ b with found := true }, first)
    match returnTypeDepth? k b.depth first with
    | none => return .done (b, first)
    | some depth => return .yield ({ b with depth, braces := ← skipToken b.braces }, false)
  return balance.found

/-- Whether an arrow follows the parameters at the current token and, where `typed` allows it, the
type of their result. -/
def reachesArrow (typed : Bool) : Parser Bool := do
  if ← optional .asyncKeyword then
    if ← afterLineBreak then return false
  if ← at? .lessThan then
    if !(← skipBalanced .lessThan .greaterThan) then return false
  if !(← at? .openParen) then return false
  if !(← skipBalanced .openParen .closeParen) then return false
  match ← kind with
  | .equalsGreaterThan => return true
  | .colon =>
    if !typed then return false
    advance
    skipReturnType
  | _ => return false

/-- Whether the current token opens the parameters of an arrow function. -/
def opensArrow : Parser Bool := do
  let typed := !(← get).context.whenTrue
  lookAhead (reachesArrow typed)

/-- Whether `async`, a name and an arrow stand here. -/
def opensAsyncArrow : Parser Bool :=
  lookAhead do
    advance
    if ← afterLineBreak then return false
    if !(← atIdentifier) then return false
    advance
    at? .equalsGreaterThan

/-- Tokens that can stand in type arguments without changing the depth of brackets. -/
def isTypeArgumentToken : TokenKind → Bool
  | .identifier | .stringLiteral | .numericLiteral | .bigIntLiteral
  | .noSubstitutionTemplateLiteral | .dot | .dotDotDot | .comma | .bar | .ampersand | .colon
  | .question | .equalsGreaterThan | .minus => true
  | k => k.isAnyKeyword

/-- The tokens behind type arguments in an expression. -/
def followsTypeArguments : TokenKind → Bool
  | .openParen | .noSubstitutionTemplateLiteral | .templateHead => true
  | _ => false

/-- Depths of angle brackets and of other brackets. -/
structure AngleBalance where
  angles : Nat := 0
  brackets : Nat := 0
  found : Bool := false

/-- One token of what may be type arguments. -/
def typeArgumentStep (b : AngleBalance) : Parser (ForInStep AngleBalance) := do
  let k ← kind
  if k == .greaterThan && b.angles ≤ 1 then
    advance
    return .done { b with found := followsTypeArguments (← kind) }
  let next : Option AngleBalance := match k with
    | .lessThan => some { b with angles := b.angles + 1 }
    | .greaterThan => some { b with angles := b.angles - 1 }
    | .openParen | .openBracket | .openBrace => some { b with brackets := b.brackets + 1 }
    | .closeParen | .closeBracket | .closeBrace =>
      if b.brackets == 0 then none else some { b with brackets := b.brackets - 1 }
    | .semicolon => if b.brackets == 0 then none else some b
    | k => if isTypeArgumentToken k then some b else none
  match next with
  | none => return .done b
  | some b =>
    advance
    return .yield b

/-- Whether the angle bracket at the current token opens type arguments of a call or a template:
the brackets balance over tokens that occur in types, and arguments follow. -/
def opensTypeArguments : Parser Bool :=
  lookAhead do return (← repeatFrom ({} : AngleBalance) typeArgumentStep).found

end Parser
end InlineValues

import InlineValues.Grammar.Assignment

/-!
# Variables

Declarations of variables stand in statements, behind modifiers and in the heads of loops.  Some of
their keywords are also names, and what follows decides.
-/

namespace InlineValues
namespace Parser

/-- Whether the `let` at the current token declares variables. -/
def letDeclares : Parser Bool :=
  lookAhead do
    advance
    let k ← kind
    if k == .openBracket || k == .openBrace then return true else atIdentifier

/-- Whether the `using` at the current token declares variables. -/
def usingDeclares : Parser Bool := nextOnSameLine atIdentifier

/-- Whether the `await` at the current token belongs to `using`. -/
def awaitUsingDeclares : Parser Bool :=
  nextOnSameLine do
    if !(← optional .usingKeyword) then return false
    if ← afterLineBreak then return false else atIdentifier

/-- Whether the `const` at the current token belongs to an enumeration. -/
def beforeEnum : Parser Bool := nextIs (· == .enumKeyword)

/-- Whether variables are declared here. -/
def atVariables : Parser Bool := do
  match ← kind with
  | .varKeyword | .constKeyword => return true
  | .letKeyword => letDeclares
  | .usingKeyword => usingDeclares
  | .awaitKeyword => awaitUsingDeclares
  | _ => return false

/-- The keyword of a declaration of variables. -/
def variableKeyword : Parser VariableKeyword := do
  let k ← kind
  advance
  match k with
  | .letKeyword => return .let
  | .constKeyword => return .const
  | .usingKeyword => return .using
  | .awaitKeyword =>
    advance
    return .awaitUsing
  | _ => return .var

/-- A variable with its type and initializer. -/
def variableDeclaration (rules : Rules) : Parser (Option Node) := do
  let start ← pos
  match ← rules .bindingName with
  | none => return none
  | some name =>
    let definite ← if ← afterLineBreak then pure false else optional .exclamation
    let type ← typeAnnotation rules
    let value ← initializer rules
    return some (← finish start (.variableDeclaration name definite type value))

/-- A keyword and the variables that it declares. -/
def variableList (rules : Rules) : Parser Node := do
  let start ← pos
  let keyword ← variableKeyword
  let declarations ← repeatFrom [] fun declarations => do
    let declarations := consNode? (← variableDeclaration rules) declarations
    return if ← optional .comma then .yield declarations else .done declarations
  let list ← sequence declarations.reverse
  finish start (.variableDeclarationList keyword list)

/-- A statement that declares variables. -/
def variableStatement (rules : Rules) (start : Nat) (modifiers : Option (Sequence Node)) :
    Parser Node := do
  let list ← variableList rules
  semicolon
  finish start (.variableStatement modifiers list)

end Parser
end InlineValues

import InlineValues.Grammar.Block
import InlineValues.Grammar.TypeExpression

/-!
# Bindings, parameters and signatures

A binding is a name or a pattern that takes a value apart.  Parameters are bindings with modifiers
and types, and a signature is what every function has between its name and its body.
-/

namespace InlineValues
namespace Parser

/-! ## Patterns -/

/-- An element of an object pattern: a name, a property with its binding, or the rest. -/
def objectBindingElement (rules : Rules) : Parser (Option Node) := do
  let start ← pos
  let isRest ← optional .dotDotDot
  let (propertyName, name) ← do
    if isRest then pure (none, ← identifier)
    else
      let isPlain ← atIdentifier
      let property ← propertyName rules
      if ← optional .colon then pure (property, ← rules .bindingName)
      else
        if !isPlain then expect .colon
        pure (none, property)
  if propertyName.isNone && name.isNone then return none
  let value ← initializer rules
  return some (← finish start (.bindingElement isRest propertyName name value))

/-- An element of an array pattern: a hole, a binding or the rest. -/
def arrayBindingElement (rules : Rules) : Parser (Option Node) := do
  let start ← pos
  if ← at? .comma then return some (← nodeAt start start .omittedExpression)
  let isRest ← optional .dotDotDot
  match ← rules .bindingName with
  | none => return none
  | some name =>
    let value ← initializer rules
    return some (← finish start (.bindingElement isRest none name value))

/-- A name or a pattern. -/
def bindingName (rules : Rules) : Parser (Option Node) := do
  let start ← pos
  match ← kind with
  | .openBrace =>
    let elements ← delimited .openBrace .closeBrace (objectBindingElement rules)
    return some (← finish start (.objectBindingPattern elements))
  | .openBracket =>
    let elements ← delimited .openBracket .closeBracket (arrayBindingElement rules)
    return some (← finish start (.arrayBindingPattern elements))
  | _ => identifier

/-! ## Parameters -/

/-- Decorators in front of a declaration, a member or a parameter. -/
def decorators (rules : Rules) : Parser (List Node) := do
  let nodes ← repeatFrom [] fun nodes => do
    let start ← pos
    if !(← optional .atSign) then return .done nodes
    let inner ← rules .leftHandSide
    return .yield ((← finish start (.decorator inner)) :: nodes)
  return nodes.reverse

/-- Modifiers of parameters. -/
def isParameterModifier : TokenKind → Bool
  | .publicKeyword | .privateKeyword | .protectedKeyword | .readonlyKeyword
  | .overrideKeyword => true
  | _ => false

/-- Whether a modifier of a parameter stands here, with a parameter behind it. -/
def atParameterModifier : Parser Bool := do
  if !isParameterModifier (← kind) then return false
  nextOnSameLine do
    match ← kind with
    | .openBrace | .openBracket | .dotDotDot | .thisKeyword => return true
    | _ => atIdentifier

/-- A parameter. -/
def parameter (rules : Rules) : Parser (Option Node) := do
  let start ← pos
  let decorators ← decorators rules
  let modifiers := decorators ++ (← modifiersWhile atParameterModifier)
  let isRest ← optional .dotDotDot
  let name ← if ← at? .thisKeyword then some <$> tokenNode else rules .bindingName
  if name.isNone && modifiers.isEmpty && !isRest then return none
  let isOptional ← optional .question
  let declaredType ← typeAnnotation rules
  let value ← initializer rules
  let modifiers ← sequence? modifiers
  return some (← finish start
    (.parameter ⟨modifiers, isRest, name, isOptional, declaredType, value⟩))

/-! ## Signatures and bodies -/

/-- The context inside a function. -/
def functionContext (isAsync isGenerator : Bool) (c : Context) : Context :=
  { c with disallowIn := false, async := isAsync, generator := isGenerator }

/-- Type parameters, parameters and the type of the result. -/
def signature (rules : Rules) (isAsync isGenerator : Bool) : Parser (SignatureParts Node) := do
  let typeParameters ← typeParameters? rules
  let parameters ← inContext (functionContext isAsync isGenerator) (parameters rules)
  let returnType ← if ← optional .colon then returnType rules else pure none
  return ⟨typeParameters, parameters, returnType⟩

/-- The body of a function. -/
def functionBody (rules : Rules) (isAsync isGenerator : Bool) : Parser Node :=
  inContext (functionContext isAsync isGenerator) (block rules)

/-- The body of a function, or the end of the declaration of one without a body. -/
def functionBody? (rules : Rules) (isAsync isGenerator : Bool) : Parser (Option Node) := do
  if ← at? .openBrace then some <$> functionBody rules isAsync isGenerator
  else
    semicolon
    return none

end Parser
end InlineValues

import InlineValues.Printer.Part

/-!
# Printing functions and classes
-/

namespace InlineValues

/-! ## Functions -/

/-- Type parameters, parameters and result type. -/
def printSignature (emit : Emit) (parts : SignatureParts Node) : List Mark :=
  angledList emit parts.typeParameters ++ parenthesizedList emit parts.parameters ++
    annotation emit parts.returnType

/-- The body of a function, or the semicolon in place of one. -/
def printBody (emit : Emit) : (body : Option Node) → List Mark
  | some body => write " " ++ emit body
  | none => [.semicolon]

/-- The type parameters, parameters and result type of a function. -/
def FunctionParts.signature {α : Type} (parts : FunctionParts α) : SignatureParts α :=
  ⟨parts.typeParameters, parts.parameters, parts.returnType⟩

/-- A function that the keyword `function` introduces. -/
def printFunction (emit : Emit) (parts : FunctionParts Node) : List Mark :=
  modified emit parts.modifiers ++ writeIf parts.isAsync "async " ++ write "function" ++
    writeIf parts.isGenerator "*" ++ write " " ++ emit parts.name ++
    printSignature emit parts.signature ++ printBody emit parts.body

/-- Whether a parameter is a mere name. -/
def ParameterParts.isBareName (parts : ParameterParts Node) : Bool :=
  parts.modifiers.isNone && !parts.isRest && !parts.optional && parts.declaredType.isNone &&
    parts.initializer.isNone &&
    match parts.name with
    | some ⟨_, _, .identifier _⟩ | some ⟨_, _, .privateIdentifier _⟩ => true
    | _ => false

/-- Whether an arrow function that starts at `pos` has a single parameter without parentheses. -/
def FunctionParts.hasBareParameter (pos : Nat) (parts : FunctionParts Node) : Bool :=
  parts.returnType.isNone && parts.typeParameters.isNone && !parts.isAsync &&
    match parts.parameters.items with
    | [⟨start, _, .parameter parameter⟩] => start.pos == pos && parameter.isBareName
    | _ => false

/-- An arrow function that starts at `pos`. -/
def printArrow (emit : Emit) (pos : Nat) (parts : FunctionParts Node) : List Mark :=
  writeIf parts.isAsync "async " ++
    (if parts.hasBareParameter pos then commaSeparated emit parts.parameters.items
      else printSignature emit parts.signature) ++
    write " => " ++ emit parts.body

/-- A parameter. -/
def printParameter (emit : Emit) (parts : ParameterParts Node) : List Mark :=
  modified emit parts.modifiers ++ writeIf parts.isRest "..." ++ emit parts.name ++
    writeIf parts.optional "?" ++ annotation emit parts.declaredType ++
    initialized emit parts.initializer

/-! ## Classes and their members -/

/-- A class or an interface, without its modifiers and without the keyword. -/
def printClassTail (emit : Emit) (parts : ClassParts Node) : List Mark :=
  angledList emit parts.typeParameters ++
    (itemsOf parts.heritage).flatMap (fun n => write " " ++ emit (some n)) ++ write " " ++
    bracedMembers emit parts.members

/-- A class. -/
def printClass (emit : Emit) (parts : ClassParts Node) : List Mark :=
  modified emit parts.modifiers ++ write "class" ++ preceded " " emit parts.name ++
    printClassTail emit parts

/-- An interface. -/
def printInterface (emit : Emit) (parts : ClassParts Node) : List Mark :=
  modified emit parts.modifiers ++ write "interface " ++ emit parts.name ++
    printClassTail emit parts

/-- A property of a class. -/
def printProperty (emit : Emit) (parts : PropertyParts Node) : List Mark :=
  modified emit parts.modifiers ++ emit parts.name ++ writeIf parts.optional "?" ++
    writeIf parts.definite "!" ++ annotation emit parts.declaredType ++
    initialized emit parts.initializer ++ [.semicolon]

/-- A method. -/
def printMethod (emit : Emit) (parts : MethodParts Node) : List Mark :=
  modified emit parts.modifiers ++ writeIf parts.isGenerator "*" ++ emit parts.name ++
    writeIf parts.optional "?" ++ printSignature emit parts.signature ++ printBody emit parts.body

/-- A getter or a setter. -/
def printAccessor (emit : Emit) (keyword : String) (parts : AccessorParts Node) : List Mark :=
  modified emit parts.modifiers ++ write keyword ++ emit parts.name ++
    printSignature emit parts.signature ++ printBody emit parts.body

end InlineValues

import InlineValues.Printer.Part

/-!
# Printing declarations

Enumerations and modules.  The parts of a dotted module name nest one inside the other in the tree,
and are printed as one name again.
-/

namespace InlineValues

/-- The members of an enumeration, with commas as in the source text. -/
def printEnumMembers (emit : Emit) (trailingComma : Bool) : (members : List Node) → List Mark
  | [] => []
  | [last] => .line :: emit last ++ writeIf trailingComma ","
  | n :: rest => .line :: emit n ++ write "," ++ printEnumMembers emit trailingComma rest

/-- Whether the text in front of an offset ends with a word, white space aside. -/
def Source.endsWithWord (s : Source) (stop : Nat) (word : String) : Bool :=
  word.toList.reverse.isPrefixOf ((s.slice 0 stop).reverse.dropWhile isWhiteSpace)

/-- Whether a module is named `global` without a keyword in front. -/
def PrintContext.isGlobalAugmentation (c : PrintContext) : (name : Option Node) → Bool
  | some n@⟨_, _, .identifier text⟩ =>
    text == "global".toList &&
      match c.source? with
      | some s =>
        !(s.endsWithWord (n.start s) "namespace" || s.endsWithWord (n.start s) "module")
      | none => false
  | _ => false

/-- The keyword of a module. -/
def PrintContext.moduleKeyword (c : PrintContext) (name : Option Node) : List Mark :=
  match name with
  | some ⟨_, _, .literal .stringLiteral _⟩ => write "module "
  | name => writeIf (!c.isGlobalAugmentation name) "namespace "

/-- What follows the first name of a module. -/
def printModuleBody (emit : Emit) : (body : Option Node) → List Mark
  | none => [.semicolon]
  | some ⟨_, _, .moduleDeclaration _ name body⟩ =>
    write "." ++ emit name ++ printModuleBody emit body
  | some body => write " " ++ emit body

/-- A module. -/
def printModule (c : PrintContext) (emit : Emit) (modifiers : Option (Sequence Node))
    (name body : Option Node) : List Mark :=
  modified emit modifiers ++ c.moduleKeyword name ++ emit name ++ printModuleBody emit body

end InlineValues

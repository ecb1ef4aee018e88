import InlineValues.Proofs.State.Expression
import InlineValues.Proofs.Grammar.Statement

/-!
# The discipline of statements

Words that are also names start a statement of their own only if something suitable follows, for
which most of these productions look ahead.
-/

namespace InlineValues
namespace Parser
namespace Disciplined

open ParserState

variable {rules : Rules} [∀ x, (rules x).Disciplined]

/-! ## Variables -/

instance : letDeclares.Disciplined := by
  unfold letDeclares
  infer_instance

instance : usingDeclares.Disciplined := by
  unfold usingDeclares
  infer_instance

instance : awaitUsingDeclares.Disciplined := by
  unfold awaitUsingDeclares
  infer_instance

instance : beforeEnum.Disciplined := by
  unfold beforeEnum
  infer_instance

instance : atVariables.Disciplined := by
  refine bind inferInstance fun k => ?_
  split <;> infer_instance

instance : variableKeyword.Disciplined := by
  refine bind inferInstance fun k => bind inferInstance fun _ => ?_
  split <;> infer_instance

instance : (variableDeclaration rules).Disciplined := by
  refine bind inferInstance fun start => bind inferInstance fun name => ?_
  split <;> infer_instance

instance : (variableList rules).Disciplined := by
  unfold variableList
  infer_instance

instance (start : Nat) (modifiers : Option (Sequence Node)) :
    (variableStatement rules start modifiers).Disciplined := by
  unfold variableStatement
  infer_instance

/-! ## Which words declare -/

instance : declareModifies.Disciplined := by
  unfold declareModifies
  infer_instance

instance (k : TokenKind) : (nextOnSameLineIs k).Disciplined := by
  unfold nextOnSameLineIs
  infer_instance

instance : moduleDeclares.Disciplined := by
  unfold moduleDeclares
  infer_instance

instance : atDeclarationModifier.Disciplined := by
  refine bind inferInstance fun k => ?_
  split <;> infer_instance

/-! ## Declarations -/

instance (start : Nat) (modifiers : Option (Sequence Node)) (isAsync : Bool) :
    (functionDeclaration rules start modifiers isAsync).Disciplined := by
  unfold functionDeclaration
  infer_instance

instance (start : Nat) (modifiers : Option (Sequence Node)) :
    (interfaceDeclaration rules start modifiers).Disciplined := by
  unfold interfaceDeclaration
  infer_instance

instance (start : Nat) (modifiers : Option (Sequence Node)) :
    (typeAlias rules start modifiers).Disciplined := by
  unfold typeAlias
  infer_instance

instance : (enumMember rules).Disciplined := by
  refine bind inferInstance fun start => bind inferInstance fun name => ?_
  split <;> infer_instance

instance (start : Nat) (modifiers : Option (Sequence Node)) :
    (enumDeclaration rules start modifiers).Disciplined := by
  unfold enumDeclaration
  infer_instance

instance : moduleName.Disciplined := by
  unfold moduleName
  infer_instance

instance : (moduleBody rules).Disciplined := by
  unfold moduleBody
  infer_instance

instance (start : Nat) (modifiers : Option (Sequence Node)) :
    (moduleDeclaration rules start modifiers).Disciplined := by
  refine bind inferInstance fun name => bind inferInstance fun inner => ?_
  refine bind inferInstance fun body => bind (foldlM (fun body name => ?_) _ _) inferInstance
  infer_instance

instance (start : Nat) (modifiers : Option (Sequence Node)) :
    (declarationRest rules start modifiers).Disciplined := by
  refine bind inferInstance fun k => ?_
  split <;> infer_instance

instance (start : Nat) (modifiers : List Node) :
    (declaration rules start modifiers).Disciplined := by
  unfold declaration
  infer_instance

/-! ## Imports -/

instance : specifierName.Disciplined := by
  unfold specifierName
  infer_instance

instance : atTypeSpecifier.Disciplined := by
  unfold atTypeSpecifier
  infer_instance

instance (form : Bool → Option Node → Option Node → Form Node) : (specifier form).Disciplined := by
  refine bind inferInstance fun start => bind inferInstance fun typeOnly => ?_
  refine when_bind inferInstance fun _ => bind inferInstance fun first => ?_
  split <;> infer_instance

instance : namedBindings.Disciplined := by
  unfold namedBindings
  infer_instance

instance : typeModifiesImport.Disciplined := by
  refine lookAhead (bind inferInstance fun _ => bind inferInstance fun k => ?_)
  split <;> infer_instance

instance : bindingsBehindComma.Disciplined := by
  unfold bindingsBehindComma
  infer_instance

instance : importClause.Disciplined := by
  refine bind inferInstance fun start => bind inferInstance fun isType => ?_
  refine ite_bind inferInstance inferInstance fun typeOnly => when_bind inferInstance fun _ => ?_
  infer_instance

instance : importDeclaration.Disciplined := by
  unfold importDeclaration
  infer_instance

/-! ## Exports -/

instance (start : Nat) (modifiers : List Node) (isEquals : Bool) :
    (exportAssignment rules start modifiers isEquals).Disciplined := by
  unfold exportAssignment
  infer_instance

instance : defaultDeclares.Disciplined := by
  refine lookAhead (bind inferInstance fun _ => bind inferInstance fun k => ?_)
  split <;> infer_instance

instance : exportClause.Disciplined := by
  unfold exportClause
  infer_instance

instance (start : Nat) (modifiers : List Node) (typeOnly : Bool) :
    (exportList start modifiers typeOnly).Disciplined := by
  unfold exportList
  infer_instance

instance : atTypeExport.Disciplined := by
  unfold atTypeExport
  infer_instance

instance (start : Nat) (decorators : List Node) :
    (exported rules start decorators).Disciplined := by
  refine bind inferInstance fun keyword => bind inferInstance fun isEquals => ite inferInstance ?_
  exact bind inferInstance fun isDefault => ite inferInstance inferInstance

/-! ## Simple statements -/

instance : (expressionStatement rules).Disciplined := by
  refine bind inferInstance fun start => bind inferInstance fun inner => ?_
  split <;> infer_instance

instance : (labeledStatement rules).Disciplined := by
  unfold labeledStatement
  infer_instance

instance (form : Option Node → Form Node) : (jump form).Disciplined := by
  unfold jump
  infer_instance

instance : (returnStatement rules).Disciplined := by
  unfold returnStatement
  infer_instance

instance : (throwStatement rules).Disciplined := by
  unfold throwStatement
  infer_instance

instance : debuggerStatement.Disciplined := by
  unfold debuggerStatement
  infer_instance

/-! ## Conditions and loops -/

instance : (condition rules).Disciplined := by
  unfold condition
  infer_instance

instance : (ifStatement rules).Disciplined := by
  unfold ifStatement
  infer_instance

instance : (doStatement rules).Disciplined := by
  unfold doStatement
  infer_instance

instance : (whileStatement rules).Disciplined := by
  unfold whileStatement
  infer_instance

instance : (withStatement rules).Disciplined := by
  unfold withStatement
  infer_instance

instance : (forInitializer rules).Disciplined := by
  unfold forInitializer
  infer_instance

instance (start : Nat) (isAwait : Bool) (binding : Option Node) :
    (forOfRest rules start isAwait binding).Disciplined := by
  unfold forOfRest
  infer_instance

instance (start : Nat) (binding : Option Node) : (forInRest rules start binding).Disciplined := by
  unfold forInRest
  infer_instance

instance (start : Nat) (binding : Option Node) : (forRest rules start binding).Disciplined := by
  unfold forRest
  infer_instance

instance : (forStatement rules).Disciplined := by
  unfold forStatement
  infer_instance

/-! ## Switches and exceptions -/

instance : (switchClause rules).Disciplined := by
  unfold switchClause
  infer_instance

instance : (caseBlock rules).Disciplined := by
  unfold caseBlock
  infer_instance

instance : (switchStatement rules).Disciplined := by
  unfold switchStatement
  infer_instance

instance : (catchBinding? rules).Disciplined := by
  unfold catchBinding?
  infer_instance

instance : (catchClause rules).Disciplined := by
  unfold catchClause
  infer_instance

instance : (tryStatement rules).Disciplined := by
  unfold tryStatement
  infer_instance

/-! ## Any statement -/

instance : atDeclaration.Disciplined := by
  refine bind inferInstance fun k => ?_
  split <;> infer_instance

instance : (otherStatement rules).Disciplined := by
  unfold otherStatement
  infer_instance

instance : (decoratedStatement rules).Disciplined := by
  unfold decoratedStatement
  infer_instance

instance : (wordStatement rules).Disciplined := by
  unfold wordStatement
  infer_instance

instance : (statement rules).Disciplined := by
  refine bind inferInstance fun k => ?_
  split <;> infer_instance

end Disciplined
end Parser
end InlineValues

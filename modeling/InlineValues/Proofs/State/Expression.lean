import InlineValues.Proofs.State.Member
import InlineValues.Proofs.Grammar.Assignment

/-!
# The discipline of expressions

Slashes and greater signs are read again in expressions, which leaves the start of the token, and
many parts of an expression are read in a context of their own.
-/

namespace InlineValues
namespace Parser
namespace Disciplined

open ParserState

variable {rules : Rules} [∀ x, (rules x).Disciplined]

/-! ## Which tokens start an expression -/

instance : atExpression.Disciplined := by
  unfold atExpression
  infer_instance

/-! ## Arguments -/

instance : (spreadable rules).Disciplined := by
  unfold spreadable
  infer_instance

instance : (arguments rules).Disciplined := by
  unfold arguments
  infer_instance

/-! ## Templates, members and calls -/

instance : (template rules).Disciplined := by
  unfold template
  infer_instance

instance (start : Nat) (tag : Node) (typeArguments : Option (Sequence Node)) (chained : Bool) :
    (taggedTemplate rules start tag typeArguments chained).Disciplined := by
  unfold taggedTemplate
  infer_instance

instance (start : Nat) (object : Node) (chained : Bool) :
    (elementAccess rules start object chained).Disciplined := by
  unfold elementAccess
  infer_instance

instance (start : Nat) (callee : Node) (chained : Bool) :
    (callRest rules start callee chained).Disciplined := by
  refine bind inferInstance fun typeArguments => bind inferInstance fun k => ?_
  split <;> infer_instance

instance (start : Nat) (object : Node) : (chainRest rules start object).Disciplined := by
  refine bind inferInstance fun k => ?_
  split <;> infer_instance

instance (start : Nat) (calls : Bool) (object : Node) :
    (memberStep rules start calls object).Disciplined := by
  refine bind inferInstance fun k => ?_
  split <;> infer_instance

instance (start : Nat) (calls : Bool) (object : Node) :
    (memberRest rules start calls object).Disciplined := by
  unfold memberRest
  infer_instance

/-! ## Primary expressions -/

instance : (arrayElement rules).Disciplined := by
  unfold arrayElement
  infer_instance

instance : (arrayLiteral rules).Disciplined := by
  unfold arrayLiteral
  infer_instance

instance : atObjectAccessor.Disciplined := by
  unfold atObjectAccessor
  infer_instance

instance : atAsyncMethod.Disciplined := by
  unfold atAsyncMethod
  infer_instance

instance (start : Nat) (modifiers : List Node) :
    (objectMemberRest rules start modifiers).Disciplined := by
  refine bind inferInstance fun isGenerator => bind inferInstance fun isPlain => ?_
  refine bind inferInstance fun name => ?_
  split <;> infer_instance

instance : (objectMember rules).Disciplined := by
  unfold objectMember
  infer_instance

instance : (objectLiteral rules).Disciplined := by
  unfold objectLiteral
  infer_instance

instance : (parenthesized rules).Disciplined := by
  unfold parenthesized
  infer_instance

instance : (functionExpression rules).Disciplined := by
  unfold functionExpression
  infer_instance

instance (k : TokenKind) : (primaryRest k).Disciplined := by
  unfold primaryRest
  split <;> infer_instance

instance : (newExpression rules).Disciplined := by
  refine bind inferInstance fun start => bind inferInstance fun isTarget => ite inferInstance ?_
  refine bind inferInstance fun _ => bind inferInstance fun calleeStart => ?_
  refine bind inferInstance fun k => ?_
  split
  all_goals
    refine bind inferInstance fun callee => ?_
    cases callee
    all_goals
      refine bind inferInstance fun callee => bind inferInstance fun isGeneric => ?_
      exact ite inferInstance inferInstance

instance : (primary rules).Disciplined := by
  refine bind inferInstance fun k => ?_
  split <;> infer_instance

instance : (leftHandSide rules).Disciplined := by
  refine bind inferInstance fun start => bind inferInstance fun k => ?_
  split
  all_goals
    refine bind inferInstance fun first => ?_
    cases first <;> infer_instance

/-! ## Unary operators -/

instance : awaitIsOperator.Disciplined := by
  unfold awaitIsOperator
  infer_instance

instance (operator : KeywordOperator) : (keywordUnary rules operator).Disciplined := by
  unfold keywordUnary
  infer_instance

instance (operator : TokenKind) {operand : Parser (Option Node)} [operand.Disciplined] :
    (signUnary operator operand).Disciplined := by
  unfold signUnary
  infer_instance

instance : (typeAssertion rules).Disciplined := by
  unfold typeAssertion
  infer_instance

instance : (update rules).Disciplined := by
  refine bind inferInstance fun start => bind inferInstance fun operand => ?_
  split <;> infer_instance

instance : (unary rules).Disciplined := by
  refine bind inferInstance fun k => ?_
  split <;> infer_instance

/-! ## Binary operators -/

instance (precedence : Nat) : (operatorAt? precedence).Disciplined := by
  unfold operatorAt?
  infer_instance

instance (precedence start : Nat) (left : Node) :
    (binaryStep rules precedence start left).Disciplined := by
  refine bind inferInstance fun operator => ?_
  split <;> infer_instance

instance (precedence : Nat) : (binary rules precedence).Disciplined := by
  refine bind inferInstance fun start => bind inferInstance fun first => ?_
  split <;> infer_instance

/-! ## Arrow functions -/

instance (isAsync : Bool) : (arrowBody rules isAsync).Disciplined := by
  unfold arrowBody
  infer_instance

instance (start : Nat) (name : Node) (isAsync : Bool) :
    (nameArrow rules start name isAsync).Disciplined := by
  unfold nameArrow
  infer_instance

instance : (parametersArrow rules).Disciplined := by
  unfold parametersArrow
  infer_instance

instance : (arrowFunction? rules).Disciplined := by
  refine bind inferInstance fun k => ?_
  split <;> infer_instance

/-! ## Assignments -/

instance : (yieldExpression rules).Disciplined := by
  unfold yieldExpression
  infer_instance

instance (start : Nat) (condition : Node) :
    (conditionalRest rules start condition).Disciplined := by
  unfold conditionalRest
  infer_instance

instance (start : Nat) (left : Node) : (assignmentRest rules start left).Disciplined := by
  refine bind inferInstance fun k => ?_
  dsimp only
  split
  all_goals split <;> infer_instance

instance : (assignment rules).Disciplined := by
  refine bind inferInstance fun isYield => bind inferInstance fun st => ite inferInstance ?_
  refine bind inferInstance fun arrow => ?_
  split
  case h_1 => infer_instance
  case h_2 =>
    refine bind inferInstance fun start => bind inferInstance fun left => ?_
    split <;> infer_instance

end Disciplined
end Parser
end InlineValues

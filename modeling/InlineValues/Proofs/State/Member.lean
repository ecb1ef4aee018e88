import InlineValues.Proofs.State.TypeExpression
import InlineValues.Proofs.Grammar.Arrow
import InlineValues.Proofs.Grammar.Member

/-!
# The discipline of blocks, bindings and members

The parameters of an arrow function, type arguments and index signatures are told by reading ahead,
over as many tokens as there may be, and past the ends of substitutions in templates.  All of that
is undone.
-/

namespace InlineValues
namespace Parser
namespace Disciplined

open ParserState

variable {rules : Rules} [∀ x, (rules x).Disciplined]

/-! ## Looking ahead in expressions -/

instance (braces : List Bool) : (skipToken braces).Disciplined := by
  refine bind inferInstance fun k => ?_
  split
  case h_3 => split <;> infer_instance
  all_goals infer_instance

instance (opening closing : TokenKind) : (skipBalanced opening closing).Disciplined := by
  unfold skipBalanced
  infer_instance

instance : skipReturnType.Disciplined := by
  refine bind (repeatFrom (fun b => bind inferInstance fun k => ?_) _) inferInstance
  refine ite inferInstance (ite inferInstance ?_)
  split <;> infer_instance

instance (typed : Bool) : (reachesArrow typed).Disciplined := by
  refine bind inferInstance fun isAsync => ite_test inferInstance inferInstance ?_
  refine bind inferInstance fun isGeneric => ite_test inferInstance inferInstance ?_
  refine bind inferInstance fun opens => ite inferInstance (bind inferInstance fun closed => ?_)
  refine ite inferInstance (bind inferInstance fun k => ?_)
  split <;> infer_instance

instance : opensArrow.Disciplined := by
  unfold opensArrow
  infer_instance

instance : opensAsyncArrow.Disciplined := by
  unfold opensAsyncArrow
  infer_instance

instance (b : AngleBalance) : (typeArgumentStep b).Disciplined := by
  refine bind inferInstance fun k => ite inferInstance ?_
  dsimp only
  split <;> infer_instance

instance : opensTypeArguments.Disciplined := by
  unfold opensTypeArguments
  infer_instance

/-! ## Blocks -/

instance (start : Nat) : (isMultiLineFrom start).Disciplined := by
  unfold isMultiLineFrom
  infer_instance

instance (statements : List Node) : (consStatement rules statements).Disciplined := by
  unfold consStatement
  infer_instance

instance (isEnd : TokenKind → Bool) : (statementsUntil rules isEnd).Disciplined := by
  unfold statementsUntil
  infer_instance

instance : (block rules).Disciplined := by
  unfold block
  infer_instance

/-! ## Patterns -/

instance : (objectBindingElement rules).Disciplined := by
  refine bind inferInstance fun start => bind inferInstance fun isRest => ?_
  -- What follows the names is the same on every way to it.
  have hrest (read : Option Node × Option Node) : Disciplined (do
      if read.1.isNone && read.2.isNone then return none
      let value ← initializer rules
      return some (← finish start (.bindingElement isRest read.1 read.2 value))) := inferInstance
  refine ite (bind inferInstance fun name => bind inferInstance hrest) ?_
  refine bind inferInstance fun isPlain => bind inferInstance fun property => ?_
  refine bind inferInstance fun isNamed => ite ?_ (when_bind inferInstance fun _ => ?_)
  · exact bind inferInstance fun name => bind inferInstance hrest
  · exact bind inferInstance hrest

instance : (arrayBindingElement rules).Disciplined := by
  refine bind inferInstance fun start => bind inferInstance fun isHole => ite inferInstance ?_
  refine bind inferInstance fun isRest => bind inferInstance fun name => ?_
  split <;> infer_instance

instance : (bindingName rules).Disciplined := by
  refine bind inferInstance fun start => bind inferInstance fun k => ?_
  split <;> infer_instance

/-! ## Parameters -/

instance : (decorators rules).Disciplined := by
  unfold decorators
  infer_instance

instance : atParameterModifier.Disciplined := by
  refine bind inferInstance fun k => ite inferInstance (nextOnSameLine ?_)
  refine bind inferInstance fun next => ?_
  split <;> infer_instance

instance : (parameter rules).Disciplined := by
  unfold parameter
  infer_instance

/-! ## Signatures and bodies -/

instance (isAsync isGenerator : Bool) : (signature rules isAsync isGenerator).Disciplined := by
  unfold signature
  infer_instance

instance (isAsync isGenerator : Bool) : (functionBody rules isAsync isGenerator).Disciplined := by
  unfold functionBody
  infer_instance

instance (isAsync isGenerator : Bool) : (functionBody? rules isAsync isGenerator).Disciplined := by
  unfold functionBody?
  infer_instance

/-! ## Members of several kinds of bodies -/

instance : atAccessor.Disciplined := by
  unfold atAccessor
  infer_instance

instance (start : Nat) (modifiers : Option (Sequence Node)) :
    (accessor rules start modifiers).Disciplined := by
  unfold accessor
  infer_instance

instance : atSignature.Disciplined := by
  unfold atSignature
  infer_instance

instance (start : Nat) (modifiers : Option (Sequence Node)) (isGenerator : Bool) (name : Node)
    (isOptional : Bool) :
    (methodRest rules start modifiers isGenerator name isOptional).Disciplined := by
  unfold methodRest
  infer_instance

instance : opensIndexSignature.Disciplined := by
  refine bind inferInstance fun _ => bind inferInstance fun isRest => ?_
  refine bind inferInstance fun isEmpty => ite inferInstance (bind inferInstance fun k => ?_)
  refine ite inferInstance (bind inferInstance fun _ => bind inferInstance fun next => ?_)
  split <;> infer_instance

instance : atIndexSignature.Disciplined := by
  unfold atIndexSignature
  infer_instance

instance (start : Nat) (modifiers : Option (Sequence Node)) :
    (indexSignature rules start modifiers).Disciplined := by
  unfold indexSignature
  infer_instance

/-! ## Members of interfaces and type literals -/

instance : beforeSignature.Disciplined := by
  unfold beforeSignature
  infer_instance

instance : atReadonly.Disciplined := by
  unfold atReadonly
  infer_instance

instance (start : Nat) (modifiers : Option (Sequence Node)) :
    (namedTypeMember rules start modifiers).Disciplined := by
  refine bind inferInstance fun name => ?_
  split <;> infer_instance

instance : (typeMember rules).Disciplined := by
  refine bind inferInstance fun start => bind inferInstance fun isCall => ite inferInstance ?_
  refine bind inferInstance fun isNew => ite_test inferInstance inferInstance ?_
  refine bind inferInstance fun isReadonly => ite_bind inferInstance inferInstance fun node => ?_
  exact bind inferInstance fun modifiers => inferInstance

/-! ## Members of classes -/

instance : atMemberModifier.Disciplined := by
  refine bind inferInstance fun k => ite inferInstance (nextOnSameLine ?_)
  refine bind inferInstance fun next => ?_
  split <;> infer_instance

instance (start : Nat) (modifiers : Option (Sequence Node)) :
    (namedClassMember rules start modifiers).Disciplined := by
  refine bind inferInstance fun isGenerator => bind inferInstance fun name => ?_
  split <;> infer_instance

instance (start : Nat) (modifiers : Option (Sequence Node)) :
    (classMemberRest rules start modifiers).Disciplined := by
  refine bind inferInstance fun isConstructor => ite_test inferInstance inferInstance ?_
  infer_instance

instance : (classMember rules).Disciplined := by
  refine bind inferInstance fun start => bind inferInstance fun isEmpty => ite inferInstance ?_
  refine bind inferInstance fun isStatic => ite_test inferInstance inferInstance ?_
  exact bind inferInstance fun decorators => inferInstance

/-! ## Classes -/

instance : (heritageTypes rules).Disciplined := by
  refine bind (repeatFrom (fun types => bind inferInstance fun start => ?_) _) inferInstance
  refine bind inferInstance fun base => ?_
  split <;> infer_instance

instance : (heritage rules).Disciplined := by
  unfold heritage
  infer_instance

instance : (classMembers rules).Disciplined := by
  unfold classMembers
  infer_instance

instance : className.Disciplined := by
  unfold className
  infer_instance

instance (modifiers : Option (Sequence Node)) : (classParts rules modifiers).Disciplined := by
  unfold classParts
  infer_instance

instance : (classExpression rules).Disciplined := by
  unfold classExpression
  infer_instance

end Disciplined
end Parser
end InlineValues

import InlineValues.Proofs.State.Basic
import InlineValues.Proofs.Grammar.TypeExpression

/-!
# The discipline of names and types

From here on every production is disciplined if the symbols that it calls are.  The proofs follow
the productions: what is read one after the other is found by instances, and a proof says no more
than where a production goes different ways.

Only a literal changes the state by itself, where it notes that a name was looked up.
-/

namespace InlineValues
namespace Parser
namespace Disciplined

open ParserState

variable {rules : Rules} [∀ x, (rules x).Disciplined]

/-! ## Which tokens are names -/

instance : atIdentifier.Disciplined := by
  refine bind inferInstance fun st => bind inferInstance fun k => ?_
  split <;> infer_instance

/-! ## Leaves -/

instance : tokenNode.Disciplined := by
  unfold tokenNode
  infer_instance

instance (form : List Char → Form Node) : (nameNode form).Disciplined := by
  unfold nameNode
  infer_instance

instance : identifierNode.Disciplined := by
  unfold identifierNode
  infer_instance

instance : privateIdentifierNode.Disciplined := by
  unfold privateIdentifierNode
  infer_instance

instance : identifier.Disciplined := by
  unfold identifier
  infer_instance

instance : identifierName.Disciplined := by
  unfold identifierName
  infer_instance

instance : memberName.Disciplined := by
  unfold memberName
  infer_instance

instance : literalNode.Disciplined := by
  refine bind inferInstance fun start => bind inferInstance fun k => ?_
  refine bind inferInstance fun text => bind inferInstance fun _ => ?_
  refine bind (of_modify fun st => ?_) fun _ => inferInstance
  exact ⟨fun hst => ⟨hst.current, hst.previous⟩, rfl, rfl, id⟩

instance (form : Form Node) : (emptyNode form).Disciplined := by
  unfold emptyNode
  infer_instance

/-! ## Composite names -/

instance (start : Nat) (left : Node) : (qualifiedRest start left).Disciplined := by
  unfold qualifiedRest
  infer_instance

instance : entityName.Disciplined := by
  refine bind inferInstance fun start => bind inferInstance fun isThis => ?_
  refine ite_bind inferInstance inferInstance fun first => ?_
  cases first <;> infer_instance

instance : (expression rules).Disciplined := by
  refine bind inferInstance fun start => bind inferInstance fun first => ?_
  split <;> infer_instance

instance : (propertyName rules).Disciplined := by
  refine bind inferInstance fun k => ?_
  split <;> infer_instance

instance : (initializer rules).Disciplined := by
  unfold initializer
  infer_instance

/-! ## Templates -/

instance {inner : Parser (Option Node)} [inner.Disciplined]
    (form : Option Node → Node → Form Node) : (templateSpans inner form).Disciplined := by
  unfold templateSpans
  infer_instance

/-! ## Lists of types, type parameters and parameters -/

instance : ( typeAnnotation rules).Disciplined := by
  unfold typeAnnotation
  infer_instance

instance : (typeArguments rules).Disciplined := by
  unfold typeArguments
  infer_instance

instance : (typeArguments? rules).Disciplined := by
  unfold typeArguments?
  infer_instance

instance : (typeArgumentsOnLine? rules).Disciplined := by
  unfold typeArgumentsOnLine?
  infer_instance

instance : atVariance.Disciplined := by
  unfold atVariance
  infer_instance

instance {test : Parser Bool} [test.Disciplined] : (modifiersWhile test).Disciplined := by
  unfold modifiersWhile
  infer_instance

instance : (typeParameter rules).Disciplined := by
  refine bind inferInstance fun start => bind inferInstance fun modifiers => ?_
  refine bind inferInstance fun name => ?_
  split <;> infer_instance

instance : (typeParameters? rules).Disciplined := by
  unfold typeParameters?
  infer_instance

instance : (parameters rules).Disciplined := by
  unfold parameters
  infer_instance

/-! ## Function types -/

instance (opening close : TokenKind) : (skipBracketed opening close).Disciplined := by
  unfold skipBracketed
  infer_instance

instance : skipParameterStart.Disciplined := by
  refine bind inferInstance fun isName => bind inferInstance fun isThis => ite inferInstance ?_
  refine bind inferInstance fun k => ?_
  split <;> infer_instance

instance : opensFunctionType.Disciplined := by
  refine bind inferInstance fun _ => bind inferInstance fun isEmpty => ?_
  refine bind inferInstance fun isRest => ite inferInstance (bind inferInstance fun named => ?_)
  refine ite inferInstance (bind inferInstance fun k => ?_)
  split <;> infer_instance

instance : atFunctionType.Disciplined := by
  refine bind inferInstance fun k => ?_
  split <;> infer_instance

instance : predicateName.Disciplined := by
  unfold predicateName
  infer_instance

instance : (returnType rules).Disciplined := by
  refine bind inferInstance fun start => bind inferInstance fun named => ?_
  refine bind inferInstance fun isThis => bind inferInstance fun atName => ?_
  refine bind inferInstance fun isPredicate => ite inferInstance ?_
  infer_instance

instance : (functionType rules).Disciplined := by
  unfold functionType
  infer_instance

/-! ## Basic types -/

instance (start : Nat) (literal : Node) : (literalType start literal).Disciplined := by
  unfold literalType
  infer_instance

instance : (tupleElement rules).Disciplined := by
  refine bind inferInstance fun start => bind inferInstance fun isNamed => ite inferInstance ?_
  refine bind inferInstance fun isRest => ite inferInstance (bind inferInstance fun type => ?_)
  split <;> infer_instance

instance : opensMappedType.Disciplined := by
  refine bind inferInstance fun _ => bind inferInstance fun isPlus => ?_
  refine bind inferInstance fun isMinus => ?_
  infer_instance

instance (mark : TokenKind) : (mappedTypeMark mark).Disciplined := by
  unfold mappedTypeMark
  infer_instance

instance : (mappedType rules).Disciplined := by
  unfold mappedType
  infer_instance

instance (members : List Node) : (typeMemberStep rules members).Disciplined := by
  refine bind inferInstance fun closed => bind inferInstance fun ended => ite inferInstance ?_
  infer_instance

instance : (typeMembers rules).Disciplined := by
  unfold typeMembers
  infer_instance

instance : (templateType rules).Disciplined := by
  unfold templateType
  infer_instance

instance : (typeReference rules).Disciplined := by
  unfold typeReference
  infer_instance

instance : (wordType rules).Disciplined := by
  unfold wordType
  infer_instance

instance : (basicType rules).Disciplined := by
  refine bind inferInstance fun start => bind inferInstance fun k => ?_
  split
  case h_16 =>
    refine ite (bind inferInstance fun dotted => ?_) inferInstance
    infer_instance
  all_goals infer_instance

/-! ## Composite types -/

instance : (bracketedType rules).Disciplined := by
  refine bind inferInstance fun start => bind inferInstance fun first => ?_
  split <;> infer_instance

instance : (operatorType rules).Disciplined := by
  refine bind inferInstance fun start => bind inferInstance fun k => ?_
  split <;> infer_instance

instance {constituent : Parser (Option Node)} [constituent.Disciplined] (operator : TokenKind)
    (form : Sequence (Option Node) → Form Node) :
    (compositeType rules operator form constituent).Disciplined := by
  refine bind inferInstance fun start => bind inferInstance fun leading => ?_
  refine bind inferInstance fun isFunction => ite_bind inferInstance inferInstance fun first => ?_
  infer_instance

instance : (intersectionType rules).Disciplined := by
  unfold intersectionType
  infer_instance

instance : (unionType rules).Disciplined := by
  unfold unionType
  infer_instance

instance : (anyType rules).Disciplined := by
  refine bind inferInstance fun isFunction => ite inferInstance (bind inferInstance fun start => ?_)
  refine bind inferInstance fun check => ?_
  split <;> infer_instance

end Disciplined
end Parser
end InlineValues

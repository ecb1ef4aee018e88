import InlineValues.Proofs.Grammar.Member
import InlineValues.Proofs.Nesting.TypeExpression

/-!
# Nesting in bindings and members

A block is a bracket around statements (`carries_block`).  Bindings, parameters, signatures and the
members of classes and interfaces carry over what their symbols and their blocks give.
-/

namespace InlineValues
namespace Parser

open ParserState Node

variable {d : Nat} {P : Node → Prop} {rules : Rules}

/-! ## Blocks -/

section

variable (h : (rules .statement).Carries d P Option.toList)
include h

lemma carries_consStatement {statements : List Node} (hstatements : Each P statements) :
    (consStatement rules statements).Carries d P id := by
  refine .skip fun _ => h.bind fun statement hstatement => .skip fun _ => .skip fun _ => ?_
  exact .skip_if fun _ => .pure (hstatement.consNode? hstatements)

lemma carries_statementsUntil (isEnd : TokenKind → Bool) :
    (statementsUntil rules isEnd).Carries d P Sequence.items := by
  refine .bind (.collect fun statements hstatements => ?_) fun statements hstatements =>
    .sequence hstatements.reverse
  refine .skip fun _ => .ite (.pure hstatements) ?_
  exact (carries_consStatement h hstatements).bind fun statements h => .pure h

end

/-- A block adds a bracket to what its statements give. -/
theorem carries_block {brackets signs : Nat}
    (h : (rules .statement).Carries d (Shallow brackets signs) Option.toList) :
    (block rules).Carries d (Shallow (brackets + 1) signs) fun n => [n] := by
  refine .skip fun start => .skip fun opening => .skip fun _ => ?_
  refine .bind_of ((carries_statementsUntil h _).inContext _) fun statements hstatements => ?_
  refine .skip fun closing => .skip fun _ => .skip fun multiLine => ?_
  exact .bracket (fun _ _ => rfl) hstatements

variable [Inherited P] (hr : rules.Carries d P)
include hr

/-! ## Patterns -/

lemma carries_objectBindingElement :
    (objectBindingElement rules).Carries d P Option.toList := by
  refine .skip fun start => .skip fun isRest => ?_
  have hrest (propertyName name : Option Node) (h : Each P propertyName.toList)
      (hname : Each P name.toList) : Carries d P (do
        if propertyName.isNone && name.isNone then return none
        let value ← initializer rules
        return some (← finish start (.bindingElement isRest propertyName name value)))
      Option.toList :=
    .ite .none ((carries_initializer hr).bind fun value hvalue =>
      .someNode rfl ((h.append hname).append hvalue))
  refine .ite (carries_identifier.bind fun name => hrest none name .nil) (.skip fun isPlain => ?_)
  refine (carries_propertyName hr).bind fun property hproperty => .skip fun _ => .ite ?_ ?_
  · exact (hr.symbol .bindingName nofun).bind fun name => hrest property name hproperty
  · exact .skip_if fun _ => hrest none property .nil hproperty

lemma carries_arrayBindingElement : (arrayBindingElement rules).Carries d P Option.toList := by
  refine .skip fun start => .skip fun _ => .ite (.option (.nodeAt rfl .nil)) ?_
  refine .skip fun isRest => (hr.symbol .bindingName nofun).bind fun name hname => ?_
  cases name with
  | none => exact .none
  | some name =>
    exact (carries_initializer hr).bind fun value hvalue =>
      .someNode rfl ((Each.nil.append hname).append hvalue)

lemma carries_bindingName : (bindingName rules).Carries d P Option.toList := by
  refine .skip fun start => .skip fun k => ?_
  split
  case h_1 =>
    exact (Carries.delimited (carries_objectBindingElement hr) _ _).bind fun elements helements =>
      .someNode rfl helements
  case h_2 =>
    exact (Carries.delimited (carries_arrayBindingElement hr) _ _).bind fun elements helements =>
      .someNode rfl helements
  case h_3 => exact carries_identifier

/-! ## Parameters -/

lemma carries_decorators : (decorators rules).Carries d P id := by
  refine .bind (.collect fun nodes hnodes => ?_) fun nodes hnodes => .pure hnodes.reverse
  refine .skip fun start => .skip fun _ => .ite (.pure hnodes) ?_
  refine (hr.symbol .leftHandSide nofun).bind fun inner hinner => ?_
  exact .bind (.node rfl hinner) fun n hn => .pure (hn.append hnodes)

lemma carries_parameter : (parameter rules).Carries d P Option.toList := by
  refine .skip fun start => (carries_decorators hr).bind fun decorators hdecorators => ?_
  refine (carries_modifiersWhile _).bind fun modifiers hmodifiers => .skip fun isRest => ?_
  refine .skip fun _ => .ite_bind (.ite (.map carries_tokenNode) (hr.symbol .bindingName nofun))
    fun name hname => .ite .none (.skip fun isOptional => ?_)
  refine (carries_annotatedType hr).bind fun declaredType hdeclaredType => ?_
  refine (carries_initializer hr).bind fun value hvalue => ?_
  refine .bind (.sequence? (hdecorators.append hmodifiers)) fun modifiers hmodifiers => ?_
  exact .someNode rfl (((hmodifiers.append hname).append hdeclaredType).append hvalue)

/-! ## Signatures and bodies -/

lemma carries_signature (isAsync isGenerator : Bool) :
    (signature rules isAsync isGenerator).Carries d P SignatureParts.children := by
  refine (carries_typeParameters? hr).bind fun typeParameters htypeParameters => ?_
  refine ((carries_parameters hr).inContext _).bind fun parameters hparameters => ?_
  refine .skip fun _ => .ite_bind (.orNone (carries_returnType hr)) fun returnType hreturnType => ?_
  exact .pure ((htypeParameters.append hparameters).append hreturnType)

omit [Inherited P] in
lemma carries_functionBody (isAsync isGenerator : Bool) :
    (functionBody rules isAsync isGenerator).Carries d P fun n => [n] := hr.block.inContext _

omit [Inherited P] in
lemma carries_functionBody? (isAsync isGenerator : Bool) :
    (functionBody? rules isAsync isGenerator).Carries d P Option.toList :=
  .skip fun _ => .ite (.map (carries_functionBody hr _ _)) (.skip fun _ => .none)

omit [Inherited P] hr in
/-- The parts of a function are its modifiers, its name, its signature and its body. -/
lemma each_functionParts {modifiers : Option (Sequence Node)} {name body : Option Node}
    {signature : SignatureParts Node} (isAsync isGenerator : Bool)
    (h : Each P (itemsOf modifiers)) (hname : Each P name.toList)
    (hsignature : Each P signature.children) (hbody : Each P body.toList) :
    Each P (FunctionParts.children
      { modifiers, isAsync, isGenerator, name, body
        typeParameters := signature.typeParameters
        parameters := signature.parameters
        returnType := signature.returnType }) := by
  have hparts : Each P (itemsOf signature.typeParameters ++ signature.parameters.items) :=
    Each.left hsignature
  have hreturnType : Each P signature.returnType.toList := Each.right hsignature
  have hhead := (h.append hname).append hparts.left
  exact ((hhead.append hparts.right).append hreturnType).append hbody

/-! ## Members of several kinds of bodies -/

lemma carries_accessor (start : Nat) {modifiers : Option (Sequence Node)}
    (h : Each P (itemsOf modifiers)) :
    (accessor rules start modifiers).Carries d P fun n => [n] := by
  refine .skip fun isGetter => .skip fun _ => ?_
  refine (carries_propertyName hr).bind fun name hname => ?_
  refine (carries_signature hr _ _).bind fun signature hsignature => ?_
  refine .skip fun _ =>
    .ite_bind (.orNone (.map (carries_functionBody hr _ _))) fun body hbody => ?_
  have hparts := ((h.append hname).append hsignature).append hbody
  split
  · exact .node rfl hparts
  · exact .node rfl hparts

lemma carries_methodRest (start : Nat) {modifiers : Option (Sequence Node)} {name : Node}
    (isGenerator isOptional : Bool) (h : Each P (itemsOf modifiers)) (hname : Each P [name]) :
    (methodRest rules start modifiers isGenerator name isOptional).Carries d P fun n => [n] := by
  refine (carries_signature hr _ _).bind fun signature hsignature => ?_
  refine (carries_functionBody? hr _ _).bind fun body hbody => ?_
  exact .node rfl ((h.append (hname.append hsignature)).append hbody)

lemma carries_indexSignature (start : Nat) {modifiers : Option (Sequence Node)}
    (h : Each P (itemsOf modifiers)) :
    (indexSignature rules start modifiers).Carries d P fun n => [n] := by
  refine .bind (.delimited (hr.symbol .parameter nofun) _ _) fun parameters hparameters => ?_
  refine (carries_annotatedType hr).bind fun type htype => ?_
  exact .node rfl ((h.append hparameters).append htype)

/-! ## Members of interfaces and type literals -/

lemma carries_namedTypeMember (start : Nat) {modifiers : Option (Sequence Node)}
    (h : Each P (itemsOf modifiers)) :
    (namedTypeMember rules start modifiers).Carries d P Option.toList := by
  refine (carries_propertyName hr).bind fun name hname => ?_
  cases name with
  | none => exact .none
  | some name =>
    refine .skip fun isOptional => .skip fun _ => .ite ?_ ?_
    · exact (carries_signature hr _ _).bind fun signature hsignature =>
        .someNode rfl (h.append (hname.append hsignature))
    · refine (carries_annotatedType hr).bind fun type htype => ?_
      have hinitializer : (Functor.discard (initializer rules)).Carries d P fun _ => [] :=
        (carries_initializer hr).forget
      exact hinitializer.bind fun _ _ => .someNode rfl (h.append (hname.append htype))

lemma carries_typeMember : (typeMember rules).Carries d P Option.toList := by
  refine .skip fun start => .skip fun _ => .ite ?_ (.skip fun _ => ?_)
  · exact (carries_signature hr _ _).bind fun signature hsignature => .someNode rfl hsignature
  refine .ite_test (.skip fun _ => ?_) (.skip fun _ => ?_)
  · exact (carries_signature hr _ _).bind fun signature hsignature => .someNode rfl hsignature
  refine .ite_bind (.orNone (.map carries_tokenNode)) fun modifier hmodifier => ?_
  refine .bind (.sequence? hmodifier) fun modifiers hmodifiers => .skip fun _ => .ite ?_ ?_
  · exact .option (carries_indexSignature hr start hmodifiers)
  refine .skip fun _ => .ite ?_ ?_
  · exact .option (carries_accessor hr start hmodifiers)
  · exact carries_namedTypeMember hr start hmodifiers

/-! ## Members of classes -/

lemma carries_namedClassMember (start : Nat) {modifiers : Option (Sequence Node)}
    (h : Each P (itemsOf modifiers)) :
    (namedClassMember rules start modifiers).Carries d P Option.toList := by
  refine .skip fun isGenerator => (carries_propertyName hr).bind fun name hname => ?_
  cases name with
  | none => exact .none
  | some name =>
    refine .skip fun isOptional => .skip fun _ => .ite ?_ ?_
    · exact .option (carries_methodRest hr start _ _ h hname)
    have hmark : Carries d P (if isOptional = true then pure false
        else Parser.optional .exclamation) fun _ => [] := .ite (.pure .nil) .frame
    refine .ite_bind hmark fun definite _ => ?_
    refine (carries_annotatedType hr).bind fun declaredType hdeclaredType => ?_
    refine ((carries_initializer hr).inContext _).bind fun value hvalue => .skip fun _ => ?_
    exact .someNode rfl ((h.append (hname.append hdeclaredType)).append hvalue)

lemma carries_classMemberRest (start : Nat) {modifiers : Option (Sequence Node)}
    (h : Each P (itemsOf modifiers)) :
    (classMemberRest rules start modifiers).Carries d P Option.toList := by
  refine .skip fun _ => .ite_test (.skip fun _ => ?_) (.skip fun _ => .ite ?_ ?_)
  · refine (carries_signature hr _ _).bind fun signature hsignature => ?_
    refine (carries_functionBody? hr _ _).bind fun body hbody => ?_
    -- The type of a result is read, but it is no part of a constructor.
    have hparts : Each P (itemsOf signature.typeParameters ++ signature.parameters.items) :=
      Each.left hsignature
    exact .someNode rfl (((h.append hparts.left).append hparts.right).append hbody)
  · exact .option (carries_accessor hr start h)
  refine .skip fun _ => .ite ?_ (carries_namedClassMember hr start h)
  exact (carries_indexSignature hr start h).bind fun member hmember => .skip fun _ => .pure hmember

lemma carries_classMember : (classMember rules).Carries d P Option.toList := by
  refine .skip fun start => .skip fun _ => .ite (.option (carries_emptyNode rfl rfl)) ?_
  refine .skip fun _ => .ite_test (.skip fun _ => ?_) ?_
  · exact (carries_functionBody hr _ _).bind fun body hbody => .someNode rfl hbody
  refine (carries_decorators hr).bind fun decorators hdecorators => ?_
  refine (carries_modifiersWhile _).bind fun modifiers hmodifiers => ?_
  exact .bind (.sequence? (hdecorators.append hmodifiers)) fun modifiers hmodifiers =>
    carries_classMemberRest hr start hmodifiers

/-! ## Classes -/

lemma carries_heritageTypes : (heritageTypes rules).Carries d P Sequence.items := by
  refine .bind (.collect fun types htypes => ?_) fun types htypes => .sequence htypes.reverse
  refine .skip fun start => (hr.symbol .leftHandSide nofun).bind fun base hbase => ?_
  cases base with
  | none => exact .pure htypes
  | some base =>
    refine (carries_typeArguments? hr).bind fun arguments harguments => ?_
    refine .bind (.node rfl (hbase.append harguments)) fun type htype => .skip fun _ => ?_
    exact .yieldIf (htype.append htypes)

lemma carries_heritage : (heritage rules).Carries d P itemsOf := by
  refine .bind (.collect fun clauses hclauses => ?_) fun clauses hclauses =>
    .sequence? hclauses.reverse
  refine .skip fun start => .skip fun k => .ite (.skip fun _ => ?_) (.pure hclauses)
  refine (carries_heritageTypes hr).bind fun types htypes => ?_
  exact .bind (.node rfl htypes) fun clause hclause => .pure (hclause.append hclauses)

lemma carries_classMembers : (classMembers rules).Carries d P Sequence.items := by
  refine .skip fun _ => .bind (.collect fun members hmembers => ?_) fun members hmembers =>
    .bind (.sequence hmembers.reverse) fun q hq => .skip fun _ => .pure hq
  refine .skip fun _ => .skip fun _ => .ite (.pure hmembers) (.skip fun _ => ?_)
  refine (carries_classMember hr).bind fun member hmember => ?_
  have hread := Each.consNode? hmember hmembers
  exact .skip fun _ => .ite (.skip fun _ => .skip fun _ => .pure hread) (.pure hread)

omit hr in
lemma carries_className : className.Carries d P Option.toList :=
  .skip fun _ => .ite .none (.skip fun _ => .ite (.option carries_identifierNode) .none)

lemma carries_classParts {modifiers : Option (Sequence Node)} (h : Each P (itemsOf modifiers)) :
    (classParts rules modifiers).Carries d P ClassParts.children := by
  refine .skip fun _ => carries_className.bind fun name hname => ?_
  refine (carries_typeParameters? hr).bind fun typeParameters htypeParameters => ?_
  refine (carries_heritage hr).bind fun heritage hheritage => ?_
  refine (carries_classMembers hr).bind fun members hmembers => ?_
  exact .pure ((((h.append hname).append htypeParameters).append hheritage).append hmembers)

lemma carries_classExpression : (classExpression rules).Carries d P fun n => [n] := by
  refine .skip fun start => (carries_decorators hr).bind fun decorators hdecorators => ?_
  refine .bind (.sequence? hdecorators) fun modifiers hmodifiers => ?_
  exact (carries_classParts hr hmodifiers).bind fun parts hparts => .node rfl hparts

end Parser
end InlineValues

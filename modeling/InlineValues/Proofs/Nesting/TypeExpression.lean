import InlineValues.Grammar.TypeExpression
import InlineValues.Proofs.Grammar.TypeExpression
import InlineValues.Proofs.Nesting.Basic

/-!
# Nesting in names and types

The productions of names and types carry over what their symbols give.  Below the operators, a basic
type is where a type can be a bracket or have a sign (`carries_basicType`).
-/

namespace InlineValues
namespace Parser

open ParserState Node

variable {d : Nat} {P : Node → Prop} {rules : Rules}

/-! ## What is given as a symbol gives it -/

section

variable (hr : rules.Carries d P)
include hr

lemma carries_initializer : ( initializer rules).Carries d P Option.toList :=
  .skip fun _ => .orNone (hr.symbol .assignment nofun)

lemma carries_annotatedType : ( typeAnnotation rules).Carries d P Option.toList :=
  .skip fun _ => .orNone (hr.symbol .type nofun)

lemma carries_typeArguments : (typeArguments rules).Carries d P Sequence.items :=
  .delimited (hr.symbol .type nofun) _ _

lemma carries_typeArguments? : (typeArguments? rules).Carries d P itemsOf :=
  .skip fun _ => .listOrNone (carries_typeArguments hr)

lemma carries_typeArgumentsOnLine? : (typeArgumentsOnLine? rules).Carries d P itemsOf :=
  .skip fun _ => .ite (.pure .nil) (carries_typeArguments? hr)

lemma carries_parameters : (parameters rules).Carries d P Sequence.items :=
  .delimited (hr.symbol .parameter nofun) _ _

end

variable [Inherited P]

/-! ## Leaves and names -/

lemma carries_tokenNode : tokenNode.Carries d P fun n => [n] :=
  .skip fun _ => .skip fun _ => .skip fun _ => .node rfl .nil

lemma carries_identifierNode : identifierNode.Carries d P fun n => [n] :=
  .skip fun _ => .skip fun _ => .skip fun _ => .node rfl .nil

lemma carries_privateIdentifierNode : privateIdentifierNode.Carries d P fun n => [n] :=
  .skip fun _ => .skip fun _ => .skip fun _ => .node rfl .nil

lemma carries_identifier : identifier.Carries d P Option.toList :=
  .skip fun _ => .ite (.option carries_identifierNode) (.skip fun _ => .none)

lemma carries_identifierName : identifierName.Carries d P Option.toList :=
  .skip fun _ => .ite (.option carries_identifierNode) (.skip fun _ => .none)

lemma carries_memberName : memberName.Carries d P Option.toList :=
  .skip fun _ => .ite (.option carries_privateIdentifierNode) carries_identifierName

/-- Whatever stands in the place of a literal is a leaf. -/
lemma literalForm_leaf (names : Array (List Char)) (n : Nat) (k : TokenKind) (text : List Char) :
    (literalForm names n k text).isOpen = true ∧ (literalForm names n k text).children = [] := by
  unfold literalForm
  split
  · exact ⟨rfl, rfl⟩
  split <;> exact ⟨rfl, rfl⟩

lemma carries_literalNode : literalNode.Carries d P fun n => [n] := by
  refine .skip fun start => .skip fun k => .skip fun text => .skip fun _ st hst => ⟨hst, ?_⟩
  obtain ⟨hopen, hchildren⟩ := literalForm_leaf st.knownNames (st.arena.pool .literals).size k text
  have hnone :
      Each P (literalForm st.knownNames (st.arena.pool .literals).size k text).children := by
    rw [hchildren]
    exact .nil
  exact List.forall_mem_singleton.mpr (Inherited.of_children _ hopen hnone)

lemma carries_emptyNode {form : Form Node} (hopen : form.isOpen = true)
    (hchildren : form.children = []) : (emptyNode form).Carries d P fun n => [n] :=
  .skip fun _ => .skip fun _ => .node hopen (hchildren ▸ .nil)

lemma carries_qualifiedRest (start : Nat) {left : Node} (h : Each P [left]) :
    (qualifiedRest start left).Carries d P fun n => [n] := by
  refine .repeatFrom h fun left hleft => .skip fun _ => .ite ?_ (.pure hleft)
  exact carries_identifierName.bind fun right hright => .again (.node rfl (hleft.append hright))

lemma carries_entityName : entityName.Carries d P Option.toList := by
  refine .skip fun start => .skip fun _ =>
    .ite_bind (.ite (.map carries_tokenNode) carries_identifierName) fun first hfirst => ?_
  cases first with
  | none => exact .none
  | some first => exact .option (carries_qualifiedRest start hfirst)

lemma carries_expression (h : (rules .assignment).Carries d P Option.toList) :
    (expression rules).Carries d P Option.toList := by
  refine .skip fun _ => h.bind fun first hfirst => ?_
  cases first with
  | none => exact .none
  | some first =>
    refine .option (.repeatFrom hfirst fun left hleft => .skip fun _ => .ite ?_ (.pure hleft))
    exact h.bind fun right hright => .again (.node rfl (hleft.append hright))

/-! ## Names of properties and templates -/

lemma carries_propertyName (hr : rules.Carries d P) :
    (propertyName rules).Carries d P Option.toList := by
  refine .skip fun k => ?_
  split
  case h_1 | h_2 | h_3 => exact .option carries_literalNode
  case h_4 => exact .option carries_privateIdentifierNode
  case h_5 =>
    have hassignment : (rules .assignment).Carries d P Option.toList :=
      hr.symbol .assignment (by simp)
    refine .skip fun start => .skip fun _ => ?_
    refine ((carries_expression hassignment).inContext _).bind fun inner h => ?_
    exact .skip fun _ => .someNode rfl h
  case h_6 => exact carries_identifierName

lemma carries_templateSpans {inner : Parser (Option Node)}
    {form : Option Node → Node → Form Node} (hopen : ∀ o n, (form o n).isOpen = true)
    (hchildren : ∀ o n, (form o n).children = o.toList ++ [n])
    (h : inner.Carries d P Option.toList) :
    (templateSpans inner form).Carries d P Sequence.items := by
  refine .bind (.collect fun spans hspans => ?_) fun spans hspans => .sequence hspans.reverse
  refine .skip fun start => h.bind fun o ho => .skip fun _ => .ite ?_ ?_
  · exact .skip fun _ => .pure hspans
  · refine .skip fun piece => carries_literalNode.bind fun literal hliteral => ?_
    refine .bind (.node (hopen _ _) (hchildren _ _ ▸ ho.append hliteral)) fun span hspan => ?_
    exact .yieldIf (hspan.append hspans)

/-! ## Type parameters -/

lemma carries_modifiersWhile (test : Parser Bool) [test.Frames] :
    (modifiersWhile test).Carries d P id := by
  refine .bind (.collect fun nodes hnodes => ?_) fun nodes hnodes => .pure hnodes.reverse
  refine .skip fun _ => .ite ?_ (.pure hnodes)
  exact carries_tokenNode.bind fun n hn => .pure (hn.append hnodes)

section

variable (hr : rules.Carries d P)
include hr

lemma carries_typeParameter : (typeParameter rules).Carries d P Option.toList := by
  refine .skip fun start => (carries_modifiersWhile _).bind fun modifiers hmodifiers => ?_
  refine carries_identifier.bind fun name hname => ?_
  cases name with
  | none => exact .none
  | some name =>
    have htype := hr.symbol .type nofun
    refine .skip fun _ => .ite_bind (.orNone htype) fun bound hbound => ?_
    refine .skip fun _ => .ite_bind (.orNone htype) fun byDefault hdefault => ?_
    refine .bind (.sequence? hmodifiers) fun modifiers hmodifiers => ?_
    exact .someNode rfl (((hmodifiers.append hname).append hbound).append hdefault)

lemma carries_typeParameters? : (typeParameters? rules).Carries d P itemsOf :=
  .skip fun _ => .listOrNone (.delimited (carries_typeParameter hr) _ _)

/-! ## Function types -/

omit hr in
lemma carries_predicateName : predicateName.Carries d P Option.toList :=
  .skip fun _ => .ite (.option (carries_emptyNode rfl rfl)) carries_identifier

lemma carries_returnType : ( returnType rules).Carries d P Option.toList := by
  have htype := hr.symbol .type nofun
  refine .skip fun start => .skip fun _ => .skip fun _ => .skip fun _ => .skip fun _ => .ite ?_ ?_
  · refine carries_predicateName.bind fun name hname => .skip fun _ => ?_
    exact htype.bind fun type h => .someNode rfl (hname.append h)
  refine .skip fun _ => .skip fun _ => .ite (.skip fun _ => ?_) htype
  refine carries_predicateName.bind fun name hname => .skip fun _ => ?_
  exact .ite_bind (.orNone htype) fun type h => .someNode rfl (hname.append h)

/-- The parts of a signature, as what a function is made of. -/
lemma carries_functionType : (functionType rules).Carries d P fun n => [n] := by
  refine .skip fun start => .skip fun isAbstract => .skip fun isConstructor => ?_
  refine (carries_typeParameters? hr).bind fun typeParameters htypeParameters => ?_
  refine (carries_parameters hr).bind fun parameters hparameters => .skip fun _ => ?_
  refine (carries_returnType hr).bind fun returnType hreturnType => ?_
  have hparts := (htypeParameters.append hparameters).append hreturnType
  split
  · exact .node rfl hparts
  · exact .node rfl hparts

/-! ## Basic types -/

omit hr in
lemma carries_literalType (start : Nat) {literal : Node} (h : Each P [literal]) :
    (literalType start literal).Carries d P Option.toList := .map (.node rfl h)

lemma carries_tupleElement : (tupleElement rules).Carries d P Option.toList := by
  have htype := hr.symbol .type nofun
  refine .skip fun start => .skip fun isNamed => .ite ?_ ?_
  · refine .skip fun isRest => carries_identifierName.bind fun name hname => ?_
    refine .skip fun isOptional => .skip fun _ => ?_
    exact htype.bind fun type h => .someNode rfl (hname.append h)
  refine .skip fun _ => .ite (htype.bind fun type h => .someNode rfl h) ?_
  refine htype.bind fun type h => ?_
  cases type with
  | none => exact .none
  | some type => exact .skip fun _ => .ite (.someNode rfl h) (.pure h)

lemma carries_mappedType : (mappedType rules).Carries d P fun n => [n] := by
  have htype := hr.symbol .type nofun
  refine .skip fun start => .skip fun _ => .skip fun readonlyMark => .skip fun _ => ?_
  refine .skip fun parameterStart => carries_identifier.bind fun name hname => .skip fun _ => ?_
  refine htype.bind fun bound hbound => ?_
  have hparameter := (Each.nil.append hname).append hbound
  refine .bind (.node rfl (hparameter.append .nil)) fun parameter hparameter => ?_
  refine .skip fun _ => .ite_bind (.orNone htype) fun nameType hnameType => ?_
  refine .skip fun _ => .skip fun optionalMark => ?_
  refine (carries_annotatedType hr).bind fun valueType hvalueType => ?_
  exact .skip fun _ => .skip fun _ =>
    .node rfl ((hparameter.append hnameType).append hvalueType)

omit [Inherited P] in
lemma carries_typeMembers : (typeMembers rules).Carries d P Sequence.items := by
  refine .skip fun _ => .bind (.collect fun members hmembers => ?_) fun members hmembers =>
    .bind (.sequence hmembers.reverse) fun q hq => .skip fun _ => .pure hq
  refine .skip fun _ => .skip fun _ => .ite (.pure hmembers) (.skip fun _ => ?_)
  refine (hr.symbol .typeMember nofun).bind fun member hmember => ?_
  have hread := Each.consNode? hmember hmembers
  refine .skip fun _ => .skip_if fun _ => .skip fun _ => ?_
  exact .ite (.skip fun _ => .skip fun _ => .pure hread) (.pure hread)

lemma carries_templateType : (templateType rules).Carries d P fun n => [n] := by
  refine .skip fun start => carries_literalNode.bind fun head hhead => ?_
  refine (carries_templateSpans (fun _ _ => rfl) (fun _ _ => rfl) (hr.symbol .type nofun)).bind
    fun spans hspans => ?_
  exact .node rfl (hhead.append hspans)

lemma carries_typeReference : (typeReference rules).Carries d P fun n => [n] := by
  refine .skip fun start => carries_entityName.bind fun name hname => ?_
  exact (carries_typeArgumentsOnLine? hr).bind fun arguments harguments =>
    .node rfl (hname.append harguments)

lemma carries_wordType : (wordType rules).Carries d P Option.toList :=
  .skip fun _ => .ite (.option (carries_typeReference hr)) (.skip fun _ => .none)

end

/-- A basic type may be a bracket around a type, or a literal with a sign. -/
theorem carries_basicType {e : Nat} (hr : rules.Carries d (Shallow (e + 1) (e + 1)))
    (hinner : (rules .type).Carries d (Shallow e e) Option.toList) :
    (basicType rules).Carries d (Shallow (e + 1) (e + 1)) Option.toList := by
  refine .skip fun start => .skip fun k => ?_
  split
  case h_1 => exact .option carries_tokenNode
  case h_2 | h_3 | h_4 => exact carries_tokenNode.bind fun n hn => carries_literalType start hn
  case h_5 | h_6 | h_7 | h_8 =>
    exact carries_literalNode.bind fun n hn => carries_literalType start hn
  case h_9 =>
    refine .skip fun _ => .bind_of (carries_literalNode (P := Shallow (e + 1) e)) ?_
    intro operand hoperand
    have hsome : Each (Shallow (e + 1) e) (some operand).toList := hoperand
    exact .bind (.sign hsome) fun n hn => carries_literalType start hn
  case h_10 => exact .option (carries_templateType hr)
  case h_11 => exact .option (carries_emptyNode rfl rfl)
  case h_12 =>
    refine .skip fun _ => carries_entityName.bind fun name hname => ?_
    exact (carries_typeArgumentsOnLine? hr).bind fun arguments harguments =>
      .someNode rfl (hname.append harguments)
  case h_13 =>
    refine .skip fun _ => .ite (.option (carries_mappedType hr)) ?_
    exact (carries_typeMembers hr).bind fun members hmembers => .someNode rfl hmembers
  case h_14 =>
    exact (Carries.delimited (carries_tupleElement hr) _ _).bind fun elements helements =>
      .someNode rfl helements
  case h_15 =>
    refine .skip fun _ => hinner.bind_of fun type htype => .skip fun _ => .option ?_
    exact (Carries.bracket (fun _ _ => rfl) htype).mono fun n hn =>
      hn.mono (Nat.le_refl _) (Nat.le_succ _)
  case h_16 =>
    refine .ite (.skip fun _ => .ite (.option carries_tokenNode) ?_) ?_
    all_goals exact carries_wordType hr

/-! ## Composite types -/

lemma carries_bracketedType (hr : rules.Carries d P)
    (hbasic : (basicType rules).Carries d P Option.toList) :
    (bracketedType rules).Carries d P Option.toList := by
  refine .skip fun start => hbasic.bind fun first hfirst => ?_
  cases first with
  | none => exact .none
  | some first =>
    refine .option (.repeatFrom hfirst fun type htype => .skip fun _ => .skip fun _ => ?_)
    refine .ite (.pure htype) (.skip fun _ => .skip fun _ => .ite (.again (.node rfl htype)) ?_)
    refine (hr.symbol .type nofun).bind fun index hindex => .skip fun _ => ?_
    exact .again (.node rfl (htype.append hindex))

lemma carries_operatorType (hr : rules.Carries d P)
    (hoperand : (rules .typeOperator).Carries d P Option.toList)
    (hbasic : (basicType rules).Carries d P Option.toList) :
    (operatorType rules).Carries d P Option.toList := by
  refine .skip fun start => .skip fun k => ?_
  split
  case h_1 | h_2 | h_3 =>
    exact .skip fun _ => hoperand.bind fun type htype => .someNode rfl htype
  case h_4 =>
    refine .skip fun _ => .skip fun parameterStart => ?_
    refine carries_identifier.bind fun name hname => ?_
    have hparts := ((Each.nil.append hname).append .nil).append .nil
    exact .bind (.node rfl hparts) fun parameter hparameter => .someNode rfl hparameter
  case h_5 => exact carries_bracketedType hr hbasic

section

variable (hr : rules.Carries d P)
include hr

lemma carries_compositeType {operator : TokenKind} {form : Sequence (Option Node) → Form Node}
    {constituent : Parser (Option Node)} (hopen : ∀ types, (form types).isOpen = true)
    (hchildren : ∀ types, (form types).children = types.items.filterMap id)
    (h : constituent.Carries d P Option.toList) :
    (compositeType rules operator form constituent).Carries d P Option.toList := by
  refine .skip fun start => .skip fun leading => .skip fun _ =>
    .ite_bind (.ite (.map (carries_functionType hr)) h) fun first hfirst => ?_
  have hlist : Each P ([first].filterMap id) := by
    cases first with
    | none => exact .nil
    | some first => exact hfirst
  have hloop : (repeatFrom [first] fun types => do
      if ← optional operator then return .yield ((← constituent) :: types)
      return .done types).Carries d P fun types => types.filterMap id := by
    refine .repeatFrom hlist fun types htypes => .skip fun _ => .ite ?_ (.pure htypes)
    refine h.bind fun type htype => .pure ?_
    cases type with
    | none => exact htypes
    | some type => exact htype.append htypes
  refine .skip fun _ => .ite (.pure hfirst) (hloop.bind fun types htypes => ?_)
  refine .bind (Carries.sequenceOf ?_) fun list hlist =>
    .someNode (hopen _) (hchildren _ ▸ hlist)
  rw [List.filterMap_reverse]
  exact htypes.reverse

lemma carries_unionType (hoperand : (rules .typeOperator).Carries d P Option.toList) :
    (unionType rules).Carries d P Option.toList := by
  have hintersection : (intersectionType rules).Carries d P Option.toList :=
    carries_compositeType hr (fun _ => rfl) (fun _ => rfl) hoperand
  exact carries_compositeType hr (fun _ => rfl) (fun _ => rfl) hintersection

lemma carries_anyType (hoperand : (rules .typeOperator).Carries d P Option.toList) :
    (anyType rules).Carries d P Option.toList := by
  have htype := hr.symbol .type nofun
  have hunion := carries_unionType hr hoperand
  refine .skip fun _ => .ite (.option (carries_functionType hr)) (.skip fun start => ?_)
  refine hunion.bind fun check hcheck => ?_
  cases check with
  | none => exact .none
  | some check =>
    refine .skip fun _ => .ite (.pure hcheck) (.skip fun _ => .ite (.pure hcheck) ?_)
    refine hunion.bind fun bound hbound => .skip fun _ => ?_
    refine htype.bind fun whenTrue hwhenTrue => .skip fun _ => ?_
    refine htype.bind fun whenFalse hwhenFalse => ?_
    exact .someNode rfl (hcheck.append ((hbound.append hwhenTrue).append hwhenFalse))

end

end Parser
end InlineValues

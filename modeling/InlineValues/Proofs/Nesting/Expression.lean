import InlineValues.Proofs.Grammar.Assignment
import InlineValues.Proofs.Nesting.Member

/-!
# Nesting in expressions

Parentheses and the brackets of an array stand around assignments, which are guarded
(`carries_parenthesized`, `carries_arrayLiteral`).  A sign stands in front of what a guarded operand
or an access is (`carries_unary`).  All other expressions carry over what their symbols give.
-/

namespace InlineValues
namespace Parser

open ParserState Node

variable {d : Nat} {P : Node → Prop} {rules : Rules}

/-! ## Brackets -/

section

variable {brackets signs : Nat}
  (h : (rules .assignment).Carries d (Shallow brackets signs) Option.toList)
include h

/-- Parentheses add a bracket to what the assignments in them give. -/
theorem carries_parenthesized :
    (parenthesized rules).Carries d (Shallow (brackets + 1) signs) fun n => [n] := by
  refine .skip fun start => .skip fun _ => ?_
  refine .bind_of ((carries_expression h).inContext _) fun inner hinner => .skip fun _ => ?_
  exact .bracket (fun _ _ => rfl) hinner

omit h in
lemma carries_spreadable [Inherited P] (h : (rules .assignment).Carries d P Option.toList) :
    (spreadable rules).Carries d P Option.toList :=
  .skip fun _ => .skip fun _ => .ite (h.bind fun _ hinner => .someNode rfl hinner) h

/-- An array adds a bracket to what the assignments in it give. -/
theorem carries_arrayLiteral :
    (arrayLiteral rules).Carries d (Shallow (brackets + 1) signs) fun n => [n] := by
  have helement : (arrayElement rules).Carries d (Shallow brackets signs) Option.toList :=
    .skip fun start => .skip fun _ => .ite (.option (.nodeAt rfl .nil)) (carries_spreadable h)
  refine .skip fun start => .bind_of ((Carries.delimited helement _ _).inContext _)
    fun elements helements => .skip fun multiLine => ?_
  exact .bracket (fun _ _ => rfl) helements

end

variable [Inherited P] (hr : rules.Carries d P)
include hr

/-! ## Templates, members and calls -/

lemma carries_arguments : (arguments rules).Carries d P Sequence.items :=
  (Carries.delimited (carries_spreadable (hr.symbol .assignment nofun)) _ _).inContext _

/-- An expression in brackets of its own. -/
lemma carries_bracketed : (inContext bracketed (expression rules)).Carries d P Option.toList :=
  (carries_expression (hr.symbol .assignment nofun)).inContext _

lemma carries_template : (template rules).Carries d P fun n => [n] := by
  refine .skip fun start => carries_literalNode.bind fun head hhead => ?_
  refine (carries_templateSpans (fun _ _ => rfl) (fun _ _ => rfl) (carries_bracketed hr)).bind
    fun spans hspans => ?_
  exact .node rfl (hhead.append hspans)

section

variable (start : Nat) {object : Node} (hobject : Each P [object])
include hobject

lemma carries_taggedTemplate {typeArguments : Option (Sequence Node)} (chained : Bool)
    (htypeArguments : Each P (itemsOf typeArguments)) :
    (taggedTemplate rules start object typeArguments chained).Carries d P fun n => [n] := by
  refine .skip fun _ => .ite_bind (.ite carries_literalNode (carries_template hr)) fun body h => ?_
  exact .node rfl (hobject.append (htypeArguments.append h))

lemma carries_elementAccess (chained : Bool) :
    (elementAccess rules start object chained).Carries d P fun n => [n] := by
  refine .skip fun _ => (carries_bracketed hr).bind fun index hindex => ?_
  exact .skip_if fun _ => .skip fun _ => .node rfl (hobject.append hindex)

lemma carries_callRest (chained : Bool) :
    (callRest rules start object chained).Carries d P fun n => [n] := by
  refine (carries_typeArguments? hr).bind fun typeArguments htypeArguments => .skip fun k => ?_
  split
  case h_1 | h_2 => exact carries_taggedTemplate hr start hobject _ htypeArguments
  case h_3 =>
    exact (carries_arguments hr).bind fun arguments harguments =>
      .node rfl (hobject.append (htypeArguments.append harguments))

lemma carries_chainRest : (chainRest rules start object).Carries d P fun n => [n] := by
  have hrest (isCall : Bool) : Carries d P (do
      if isCall then callRest rules start object true
      else if ← at? .openBracket then elementAccess rules start object true
      else
        let name ← memberName
        finish start (.propertyAccess object true name)) fun n => [n] := by
    refine .ite (carries_callRest hr start hobject _) (.skip fun _ => .ite ?_ ?_)
    · exact carries_elementAccess hr start hobject _
    · exact carries_memberName.bind fun name hname => .node rfl (hobject.append hname)
  refine .skip fun k => ?_
  split
  case h_1 => exact hrest true
  case h_2 => exact .skip hrest
  case h_3 => exact hrest false

lemma carries_memberStep (calls : Bool) :
    (memberStep rules start calls object).Carries d P fun r => [r.value] := by
  have hdone : Carries d P (return ForInStep.done object) fun r => [r.value] := .pure hobject
  refine .skip fun k => ?_
  split
  case h_1 =>
    refine .skip fun _ => carries_memberName.bind fun name hname => ?_
    exact .again (.node rfl (hobject.append hname))
  case h_2 => exact .ite hdone (.skip fun _ => .again (carries_chainRest hr start hobject))
  case h_3 => exact .again (carries_elementAccess hr start hobject _)
  case h_4 => exact .skip fun _ => .ite hdone (.skip fun _ => .again (.node rfl hobject))
  case h_5 | h_6 => exact .again (carries_taggedTemplate hr start hobject _ .nil)
  case h_7 => exact .ite hdone (.again (carries_callRest hr start hobject _))
  case h_8 =>
    exact .ite hdone (.skip fun _ => .ite hdone (.again (carries_callRest hr start hobject _)))
  case h_9 => exact hdone

lemma carries_memberRest (calls : Bool) :
    (memberRest rules start calls object).Carries d P fun n => [n] :=
  .repeatFrom hobject fun _ hobject => carries_memberStep hr start hobject calls

end

/-! ## Primary expressions -/

lemma carries_objectMemberRest (start : Nat) {modifiers : List Node} (h : Each P modifiers) :
    (objectMemberRest rules start modifiers).Carries d P Option.toList := by
  refine .skip fun isGenerator => .skip fun isPlain => ?_
  refine (carries_propertyName hr).bind fun name hname => ?_
  cases name with
  | none => exact .none
  | some name =>
    refine .skip fun _ => .ite ?_ (.skip fun k => .ite ?_ (.skip fun _ => ?_))
    · exact .bind (.sequence? h) fun modifiers hmodifiers =>
        .option (carries_methodRest hr start _ _ hmodifiers hname)
    · exact (carries_initializer hr).bind fun value hvalue => .someNode rfl (hname.append hvalue)
    · exact (hr.symbol .assignment nofun).bind fun value hvalue =>
        .someNode rfl (hname.append hvalue)

lemma carries_objectMember : (objectMember rules).Carries d P Option.toList := by
  refine .skip fun start => .skip fun _ => .ite ?_ (.skip fun _ => .ite ?_ ?_)
  · exact (hr.symbol .assignment nofun).bind fun inner hinner => .someNode rfl hinner
  · exact carries_tokenNode.bind fun modifier h => carries_objectMemberRest hr start h
  refine .skip fun _ => .ite ?_ (carries_objectMemberRest hr start .nil)
  exact .option (carries_accessor hr start .nil)

lemma carries_objectLiteral : (objectLiteral rules).Carries d P fun n => [n] := by
  refine .skip fun start => ((Carries.delimited (carries_objectMember hr) _ _).inContext _).bind
    fun elements helements => .skip fun multiLine => ?_
  exact .node rfl helements

lemma carries_functionExpression : (functionExpression rules).Carries d P fun n => [n] := by
  refine .skip fun start => .skip fun isAsync => .skip fun _ => .skip fun isGenerator => ?_
  refine .skip fun _ => .ite_bind (.ite .none (carries_identifier.inContext _)) fun name hname => ?_
  refine (carries_signature hr _ _).bind fun signature hsignature => ?_
  refine (carries_functionBody hr _ _).bind fun body hbody => ?_
  have hsome : Each P (some body).toList := hbody
  exact .node rfl (each_functionParts isAsync isGenerator .nil hname hsignature hsome)

omit hr in
lemma carries_primaryRest (k : TokenKind) : (primaryRest k).Carries d P Option.toList := by
  unfold primaryRest
  split
  case h_1 | h_2 | h_3 | h_4 => exact .option carries_literalNode
  case h_11 | h_12 => exact .skip fun _ => .option carries_literalNode
  case h_13 => exact .option carries_privateIdentifierNode
  case h_14 => exact .skip fun _ => .ite (.option carries_identifierNode) (.skip fun _ => .none)
  all_goals exact .option carries_tokenNode

lemma carries_newExpression : (newExpression rules).Carries d P fun n => [n] := by
  have hclose (start : Nat) (callee : Option Node) (h : Each P callee.toList) : Carries d P (do
      let typeArguments ← if ← at? .lessThan then
          if ← opensTypeArguments then some <$> typeArguments rules else pure none
        else pure none
      let arguments ← if ← at? .openParen then some <$> arguments rules else pure none
      finish start (.new callee typeArguments arguments)) fun n => [n] := by
    have hend (typeArguments : Option (Sequence Node)) (htypes : Each P (itemsOf typeArguments)) :
        Carries d P (do
          let arguments ← if ← at? .openParen then some <$> arguments rules else pure none
          finish start (.new callee typeArguments arguments)) fun n => [n] := by
      refine .skip fun _ => .ite_bind (.listOrNone (carries_arguments hr)) fun arguments h' => ?_
      exact .node rfl ((h.append htypes).append h')
    refine .skip fun _ => .ite (.skip fun _ => .ite ?_ ?_) ?_
    · exact (carries_typeArguments hr).someList.bind hend
    all_goals exact .pure_bind (hend none .nil)
  refine .skip fun start => .skip fun isMeta => .ite ?_ (.skip fun _ => .skip fun calleeStart => ?_)
  · refine carries_tokenNode.bind fun keyword hkeyword => .skip fun _ => ?_
    exact carries_identifierName.bind fun name hname => .node rfl (hkeyword.append hname)
  refine .skip fun k => ?_
  split
  case' h_1 | h_2 => refine carries_tokenNode.map_some.bind fun callee h => ?_
  case' h_3 => refine (hr.symbol .primary nofun).bind fun callee h => ?_
  all_goals
    cases callee with
    | none => exact .pure_bind (hclose start none .nil)
    | some callee => exact (carries_memberRest hr calleeStart h false).map_some.bind (hclose start)

lemma carries_primary : (primary rules).Carries d P Option.toList := by
  refine .skip fun k => ?_
  split
  case h_1 => exact .option (carries_template hr)
  case h_2 => exact .option (carries_newExpression hr)
  case h_3 => exact .option hr.parenthesized
  case h_4 => exact .option hr.arrayLiteral
  case h_5 => exact .option (carries_objectLiteral hr)
  case h_6 => exact .option (carries_functionExpression hr)
  case h_7 =>
    exact .skip fun _ => .ite (.option (carries_functionExpression hr)) (carries_primaryRest _)
  case h_8 | h_9 => exact .option (carries_classExpression hr)
  case h_10 => exact carries_primaryRest _

lemma carries_leftHandSide : (leftHandSide rules).Carries d P Option.toList := by
  refine .skip fun start => .skip fun k => ?_
  split
  case' h_1 | h_2 => refine carries_tokenNode.map_some.bind fun first h => ?_
  case' h_3 => refine (hr.symbol .primary nofun).bind fun first h => ?_
  all_goals
    cases first with
    | none => exact .none
    | some first => exact .option (carries_memberRest hr start h true)

/-! ## Operators -/

lemma carries_keywordUnary (operator : KeywordOperator) :
    (keywordUnary rules operator).Carries d P fun n => [n] := by
  have hopen (operand : Option Node) : (Form.keywordUnary operator operand).isOpen = true := by
    cases operator <;> rfl
  exact .skip fun _ => .skip fun _ => (hr.symbol .unary nofun).bind fun operand h =>
    .node (hopen operand) h

lemma carries_typeAssertion : (typeAssertion rules).Carries d P fun n => [n] := by
  refine .skip fun start => .skip fun _ => (hr.symbol .type nofun).bind fun type htype => ?_
  refine .skip fun _ => (hr.symbol .unary nofun).bind fun operand hoperand => ?_
  exact .node rfl (htype.append hoperand)

lemma carries_update : (update rules).Carries d P Option.toList := by
  refine .skip fun start => (hr.symbol .leftHandSide nofun).bind fun operand hoperand => ?_
  cases operand with
  | none => exact .none
  | some operand =>
    refine .skip fun k => .skip fun _ => .ite (.skip fun _ => ?_) (.pure hoperand)
    exact .someNode rfl hoperand

omit [Inherited P] hr in
/-- An operand with operators in front of it adds a sign to what its symbols give. -/
theorem carries_unary {brackets signs : Nat} (hr : rules.Carries d (Shallow brackets signs)) :
    (unary rules).Carries d (Shallow brackets (signs + 1)) Option.toList := by
  have hplain {n : Node} (h : n.Shallow brackets signs) : n.Shallow brackets (signs + 1) :=
    h.mono (Nat.le_refl _) (Nat.le_succ _)
  have hsign (k : TokenKind) {operand : Parser (Option Node)}
      (h : operand.Carries d (Shallow brackets signs) Option.toList) :
      (signUnary k operand).Carries d (Shallow brackets (signs + 1)) fun n => [n] :=
    .skip fun _ => .skip fun _ => h.bind_of fun _ hoperand => .sign hoperand
  have hword (operator : KeywordOperator) :=
    Carries.option ((carries_keywordUnary hr operator).mono fun _ => hplain)
  have hupdate := (carries_update hr).mono fun _ => hplain
  refine .skip fun k => ?_
  split
  case h_1 | h_2 => exact .option (hsign _ (hr.symbol .leftHandSide nofun))
  case h_3 | h_4 | h_5 | h_6 => exact .option (hsign _ (hr.symbol .unary nofun))
  case h_7 | h_8 | h_9 => exact hword _
  case h_10 => exact .skip fun _ => .ite (hword .await) hupdate
  case h_11 => exact .option ((carries_typeAssertion hr).mono fun _ => hplain)
  case h_12 => exact hupdate

section

variable (htype : (rules .type).Carries d P Option.toList)
  (hright : ∀ precedence, (rules (.binary precedence)).Carries d P Option.toList)
include htype hright
omit hr

lemma carries_binaryStep (precedence start : Nat) {left : Node} (h : Each P [left]) :
    (binaryStep rules precedence start left).Carries d P fun r => [r.value] := by
  refine .skip fun o => ?_
  cases o with
  | none => exact .pure h
  | some k =>
    refine .skip fun _ => .ite ?_ (.ite ?_ ?_)
    · exact htype.bind fun type htype => .again (.node rfl (h.append htype))
    · exact htype.bind fun type htype => .again (.node rfl (h.append htype))
    · exact (hright _).bind fun right hright => .again (.node rfl (h.append hright))

lemma carries_binary (precedence : Nat)
    (hunary : (rules .unary).Carries d P Option.toList) :
    (binary rules precedence).Carries d P Option.toList := by
  refine .skip fun start => hunary.bind fun first hfirst => ?_
  cases first with
  | none => exact .none
  | some first =>
    exact .option (.repeatFrom hfirst fun left hleft =>
      carries_binaryStep htype hright precedence start hleft)

end

/-! ## Arrow functions -/

omit [Inherited P] in
lemma carries_arrowBody (isAsync : Bool) :
    (arrowBody rules isAsync).Carries d P Option.toList :=
  .skip fun _ => .ite (.map (carries_functionBody hr _ _))
    ((hr.symbol .assignment nofun).inContext _)

lemma carries_nameArrow (start : Nat) {name : Node} (isAsync : Bool) (h : Each P [name]) :
    (nameArrow rules start name isAsync).Carries d P fun n => [n] := by
  refine .bind (.nodeAt rfl (h.append .nil)) fun parameter hparameter => ?_
  refine .bind (.sequence hparameter) fun parameters hparameters => .skip fun _ => ?_
  refine (carries_arrowBody hr isAsync).bind fun body hbody => ?_
  have hsignature : Each P (SignatureParts.children ⟨none, parameters, none⟩) :=
    (Each.nil.append hparameters).append .nil
  have hmodifiers : Each P (itemsOf none) := .nil
  have hname : Each P (none : Option Node).toList := .nil
  have hparts := each_functionParts isAsync false hmodifiers hname hsignature hbody
  exact .node rfl hparts

lemma carries_parametersArrow : (parametersArrow rules).Carries d P fun n => [n] := by
  refine .skip fun start => .skip fun isAsync => ?_
  refine (carries_signature hr _ _).bind fun signature hsignature => .skip fun _ => ?_
  refine (carries_arrowBody hr isAsync).bind fun body hbody => ?_
  exact .node rfl (each_functionParts isAsync false .nil .nil hsignature hbody)

lemma carries_arrowFunction? : (arrowFunction? rules).Carries d P Option.toList := by
  have harrow : Carries d P (do
      if ← opensArrow then return some (← parametersArrow rules) else return none) Option.toList :=
    .skip fun _ => .ite (.option (carries_parametersArrow hr)) .none
  refine .skip fun k => ?_
  split
  case h_1 | h_2 => exact harrow
  case h_3 =>
    refine .skip fun _ => .ite (.skip fun start => .skip fun _ => ?_) harrow
    exact carries_identifierNode.bind fun name hname =>
      .option (carries_nameArrow hr start true hname)
  case h_4 => exact .none

/-! ## Assignments -/

lemma carries_yieldExpression : (yieldExpression rules).Carries d P fun n => [n] := by
  refine .skip fun start => .skip fun _ => .skip fun _ => .skip fun _ => .skip fun _ => ?_
  refine .ite (.node rfl .nil) (.skip fun delegates => ?_)
  exact (hr.symbol .assignment nofun).bind fun inner hinner => .node rfl hinner

lemma carries_conditionalRest (start : Nat) {condition : Node} (h : Each P [condition]) :
    (conditionalRest rules start condition).Carries d P fun n => [n] := by
  have hbranch := hr.symbol .assignment nofun
  refine .skip fun _ => .ite ?_ (.pure h)
  refine (hbranch.inContext _).bind fun whenTrue hwhenTrue => .skip fun _ => ?_
  refine (hbranch.inContext _).bind fun whenFalse hwhenFalse => ?_
  exact .node rfl (h.append (hwhenTrue.append hwhenFalse))

lemma carries_assignmentRest (start : Nat) {left : Node} (h : Each P [left]) :
    (assignmentRest rules start left).Carries d P fun n => [n] := by
  have hrest (k : TokenKind) : Carries d P (do
      if left.form.isAssignable && k.isAssignmentOperator then
        advance
        let right ← rules .assignment
        finish start (.binary left k right)
      else conditionalRest rules start left) fun n => [n] := by
    refine .ite (.skip fun _ => ?_) (carries_conditionalRest hr start h)
    exact (hr.symbol .assignment nofun).bind fun right hright => .node rfl (h.append hright)
  refine .skip fun k => ?_
  dsimp only
  split
  · exact .ite (carries_nameArrow hr start false h) (hrest k)
  · exact hrest k

lemma carries_assignment : (assignment rules).Carries d P Option.toList := by
  refine .skip fun _ => .skip fun _ => .ite (.option (carries_yieldExpression hr)) ?_
  refine (carries_arrowFunction? hr).bind fun arrow harrow => ?_
  cases arrow with
  | some arrow => exact .pure harrow
  | none =>
    refine .skip fun start => (hr.symbol (.binary 0) nofun).bind fun left hleft => ?_
    cases left with
    | none => exact .none
    | some left => exact .option (carries_assignmentRest hr start hleft)

end Parser
end InlineValues

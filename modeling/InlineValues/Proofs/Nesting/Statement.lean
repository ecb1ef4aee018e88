import InlineValues.Proofs.Grammar.Statement
import InlineValues.Proofs.Nesting.Expression

/-!
# Nesting in statements and declarations

No statement but a block is a bracket, and a module is none: the brace behind its name is not
guarded.
-/

namespace InlineValues
namespace Parser

open ParserState Node

variable {d : Nat} {P : Node → Prop} [Inherited P] {rules : Rules} (hr : rules.Carries d P)
include hr

/-! ## Variables -/

lemma carries_variableDeclaration : (variableDeclaration rules).Carries d P Option.toList := by
  refine .skip fun start => (hr.symbol .bindingName nofun).bind fun name hname => ?_
  cases name with
  | none => exact .none
  | some name =>
    refine .skip fun _ => ?_
    have hmark (b : Bool) : Carries d P (if b = true then pure false
        else Parser.optional .exclamation) fun _ => [] := .ite (.pure .nil) .frame
    refine .ite_bind (hmark _) fun definite _ => ?_
    refine (carries_annotatedType hr).bind fun type htype => ?_
    refine (carries_initializer hr).bind fun value hvalue => ?_
    exact .someNode rfl ((hname.append htype).append hvalue)

lemma carries_variableList : (variableList rules).Carries d P fun n => [n] := by
  refine .skip fun start => .skip fun keyword => ?_
  refine .bind (.collect fun declarations h => ?_) fun declarations h => ?_
  · refine (carries_variableDeclaration hr).bind fun declaration hdeclaration => .skip fun _ => ?_
    exact .yieldIf (hdeclaration.consNode? h)
  · exact .bind (.sequence h.reverse) fun list hlist => .node rfl hlist

lemma carries_variableStatement (start : Nat) {modifiers : Option (Sequence Node)}
    (h : Each P (itemsOf modifiers)) :
    (variableStatement rules start modifiers).Carries d P fun n => [n] :=
  (carries_variableList hr).bind fun _ hlist => .skip fun _ => .node rfl (h.append hlist)

/-! ## Declarations -/

section

variable (start : Nat) {modifiers : Option (Sequence Node)} (h : Each P (itemsOf modifiers))
include h

lemma carries_functionDeclaration (isAsync : Bool) :
    (functionDeclaration rules start modifiers isAsync).Carries d P fun n => [n] := by
  refine .skip fun _ => .skip fun isGenerator => .skip fun _ =>
    .ite_bind (.orNone (.map carries_identifierNode)) fun name hname => ?_
  refine (carries_signature hr _ _).bind fun signature hsignature => ?_
  refine (carries_functionBody? hr _ _).bind fun body hbody => ?_
  exact .node rfl (each_functionParts isAsync isGenerator h hname hsignature hbody)

lemma carries_interfaceDeclaration :
    (interfaceDeclaration rules start modifiers).Carries d P fun n => [n] := by
  refine .skip fun _ => carries_identifier.bind fun name hname => ?_
  refine (carries_typeParameters? hr).bind fun typeParameters htypeParameters => ?_
  refine (carries_heritage hr).bind fun heritage hheritage => ?_
  refine (carries_typeMembers hr).bind fun members hmembers => ?_
  exact .node rfl ((((h.append hname).append htypeParameters).append hheritage).append hmembers)

lemma carries_typeAlias : (typeAlias rules start modifiers).Carries d P fun n => [n] := by
  refine .skip fun _ => carries_identifier.bind fun name hname => ?_
  refine (carries_typeParameters? hr).bind fun typeParameters htypeParameters => .skip fun _ => ?_
  refine (hr.symbol .type nofun).bind fun type htype => .skip fun _ => ?_
  exact .node rfl (((h.append hname).append htypeParameters).append htype)

omit h in
lemma carries_enumMember : (enumMember rules).Carries d P Option.toList := by
  refine .skip fun start => (carries_propertyName hr).bind fun name hname => ?_
  cases name with
  | none => exact .none
  | some name =>
    exact (carries_initializer hr).bind fun value hvalue => .someNode rfl (hname.append hvalue)

lemma carries_enumDeclaration :
    (enumDeclaration rules start modifiers).Carries d P fun n => [n] := by
  refine .skip fun _ => carries_identifier.bind fun name hname => ?_
  refine .bind (.delimited (carries_enumMember hr) _ _) fun members hmembers => ?_
  exact .node rfl ((h.append hname).append hmembers)

omit hr h in
lemma carries_moduleName : moduleName.Carries d P Option.toList :=
  .skip fun _ => .ite carries_identifierName (.skip fun _ => .skip fun _ =>
    .ite (.map carries_literalNode) carries_identifier)

omit h in
lemma carries_moduleBody : (moduleBody rules).Carries d P Option.toList := by
  refine .skip fun start => .skip fun _ => .ite ?_ (.skip fun _ => .none)
  refine (carries_statementsUntil (hr.symbol .statement nofun) _).bind fun statements h => ?_
  exact .skip fun _ => .someNode rfl h

lemma carries_moduleDeclaration :
    (moduleDeclaration rules start modifiers).Carries d P fun n => [n] := by
  have hfold (inner : List (Nat × Option Node))
      (hinner : Each P (inner.flatMap fun m => m.2.toList)) {body : Option Node}
      (hbody : Each P body.toList) :
      (inner.foldlM (fun body (start, name) =>
        some <$> finish start (.moduleDeclaration none name body)) body).Carries d P
          Option.toList := by
    induction inner generalizing body with
    | nil => exact .pure hbody
    | cons m inner ih =>
      rw [List.flatMap_cons] at hinner
      rw [List.foldlM_cons]
      have hparts := (Each.nil.append hinner.left).append hbody
      exact Carries.bind (.map (.node rfl hparts)) fun body hbody => ih hinner.right hbody
  have hloop : (repeatFrom [] fun inner => do
      if ← optional .dot then
        let start ← pos
        let name ← identifier
        return .yield ((start, name) :: inner)
      return .done inner).Carries d P fun inner => inner.flatMap fun m => m.2.toList := by
    refine .repeatFrom .nil fun inner hinner => .skip fun _ => .ite ?_ (.pure hinner)
    exact .skip fun start => carries_identifier.bind fun name hname => .pure (hname.append hinner)
  refine carries_moduleName.bind fun name hname => hloop.bind fun inner hinner => ?_
  refine (carries_moduleBody hr).bind fun body hbody => ?_
  exact (hfold inner hinner hbody).bind fun body hbody => .node rfl ((h.append hname).append hbody)

lemma carries_declarationRest :
    (declarationRest rules start modifiers).Carries d P Option.toList := by
  refine .skip fun k => ?_
  split
  case h_1 => exact .option (carries_functionDeclaration hr start h false)
  case h_2 => exact .skip fun _ => .option (carries_functionDeclaration hr start h true)
  case h_3 => exact (carries_classParts hr h).bind fun parts hparts => .someNode rfl hparts
  case h_4 => exact .option (carries_interfaceDeclaration hr start h)
  case h_5 => exact .option (carries_typeAlias hr start h)
  case h_6 => exact .option (carries_enumDeclaration hr start h)
  case h_7 | h_8 | h_9 => exact .option (carries_moduleDeclaration hr start h)
  case h_10 | h_11 | h_12 | h_13 => exact .option (carries_variableStatement hr start h)
  case h_14 => exact .skip fun _ => .none

end

lemma carries_declaration (start : Nat) {modifiers : List Node} (h : Each P modifiers) :
    (declaration rules start modifiers).Carries d P Option.toList := by
  refine (carries_modifiersWhile _).bind fun more hmore => ?_
  exact .bind (.sequence? (h.append hmore)) fun _ hall => carries_declarationRest hr start hall

/-! ## Imports -/

section

omit hr

lemma carries_specifierName : specifierName.Carries d P Option.toList :=
  .skip fun _ => .ite (.map carries_literalNode) carries_identifierName

lemma carries_specifier {form : Bool → Option Node → Option Node → Form Node}
    (hopen : ∀ b o o', (form b o o').isOpen = true)
    (hchildren : ∀ b o o', (form b o o').children = o.toList ++ o'.toList) :
    (specifier form).Carries d P Option.toList := by
  refine .skip fun start => .skip fun typeOnly => .skip_if fun _ => ?_
  refine carries_specifierName.bind fun first hfirst => ?_
  cases first with
  | none => exact .none
  | some first =>
    refine .skip fun _ => .ite ?_ (.someNode (hopen _ _ _) ?_)
    · refine carries_specifierName.bind fun name hname => .someNode (hopen _ _ _) ?_
      rw [hchildren]
      exact hfirst.append hname
    · rw [hchildren]
      exact hfirst

lemma carries_namedBindings : namedBindings.Carries d P fun n => [n] := by
  refine .skip fun start => .skip fun _ => .ite (.skip fun _ => ?_) ?_
  · exact carries_identifier.bind fun name hname => .node rfl hname
  · exact .bind (.delimited (carries_specifier (fun _ _ _ => rfl) fun _ _ _ => rfl) _ _)
      fun elements helements => .node rfl helements

lemma carries_importClause : importClause.Carries d P fun n => [n] := by
  have htype (b : Bool) : Carries d P (if b = true then typeModifiesImport else pure false)
      fun _ => [] := .frame
  have hcomma : bindingsBehindComma.Carries d P Option.toList :=
    .skip fun _ => .orNone (.map carries_namedBindings)
  refine .skip fun start => .skip fun _ => .ite_bind (htype _) fun typeOnly _ => ?_
  refine .skip_if fun _ => .skip fun _ => .ite_bind (.orNone (.map carries_identifierNode))
    fun name hname => ?_
  refine .ite_bind (.ite (.map carries_namedBindings) hcomma) fun bindings hbindings => ?_
  exact .bind (.node rfl (hname.append hbindings)) fun clause h => .skip fun _ => .pure h

lemma carries_importDeclaration : importDeclaration.Carries d P fun n => [n] := by
  refine .skip fun start => .skip fun _ => .skip fun _ =>
    .ite_bind (.ite .none (.map carries_importClause)) fun clause hclause => .skip fun _ => ?_
  have hend (source : Option Node) (h : Each P source.toList) : Carries d P (do
      semicolon
      finish start (.importDeclaration clause source)) fun n => [n] :=
    .skip fun _ => .node rfl (hclause.append h)
  exact .ite (carries_literalNode.map_some.bind hend) (.skip fun _ => hend none .nil)

end

/-! ## Exports -/

lemma carries_exportAssignment (start : Nat) {modifiers : List Node} (isEquals : Bool)
    (h : Each P modifiers) :
    (exportAssignment rules start modifiers isEquals).Carries d P fun n => [n] := by
  refine (hr.symbol .assignment nofun).bind fun value hvalue => .skip fun _ => ?_
  exact .bind (.sequence? h) fun modifiers hmodifiers => .node rfl (hmodifiers.append hvalue)

omit hr in
lemma carries_exportClause : exportClause.Carries d P Option.toList := by
  refine .skip fun start => .skip fun _ => .ite (.skip fun _ => .ite ?_ .none) ?_
  · exact carries_identifierName.bind fun name hname => .someNode rfl hname
  · exact .bind (.delimited (carries_specifier (fun _ _ _ => rfl) fun _ _ _ => rfl) _ _)
      fun elements helements => .someNode rfl helements

omit hr in
lemma carries_exportList (start : Nat) {modifiers : List Node} (typeOnly : Bool)
    (h : Each P modifiers) : (exportList start modifiers typeOnly).Carries d P fun n => [n] := by
  refine carries_exportClause.bind fun clause hclause => .skip fun _ => ?_
  refine .ite_bind (.orNone (.map carries_literalNode)) fun source hsource => .skip fun _ => ?_
  exact .bind (.sequence? h) fun modifiers hmodifiers =>
    .node rfl ((hmodifiers.append hclause).append hsource)

lemma carries_exported (start : Nat) {decorators : List Node} (h : Each P decorators) :
    (exported rules start decorators).Carries d P Option.toList := by
  refine carries_tokenNode.bind fun keyword hkeyword => .skip fun _ => .ite ?_ (.skip fun _ => ?_)
  · exact .option (carries_exportAssignment hr start true h)
  refine .ite (.skip fun _ => .ite ?_ (.skip fun _ => ?_)) ?_
  · refine carries_tokenNode.bind fun byDefault hdefault => ?_
    exact carries_declaration hr start (h.append (hkeyword.append hdefault))
  · exact .option (carries_exportAssignment hr start false h)
  · refine .skip fun typeOnly => .skip_if fun _ => .skip fun k => .ite ?_ ?_
    · exact .option (carries_exportList start typeOnly h)
    · exact carries_declaration hr start (h.append hkeyword)

/-! ## Simple statements -/

lemma carries_expressionStatement : (expressionStatement rules).Carries d P Option.toList := by
  have hexpression := carries_expression (hr.symbol .assignment nofun)
  refine .skip fun start => hexpression.bind fun inner h => ?_
  cases inner with
  | none => exact .none
  | some inner => exact .skip fun _ => .someNode rfl h

lemma carries_labeledStatement : (labeledStatement rules).Carries d P fun n => [n] := by
  refine .skip fun start => carries_identifierNode.bind fun label hlabel => .skip fun _ => ?_
  exact (hr.symbol .statement nofun).bind fun body hbody => .node rfl (hlabel.append hbody)

omit hr in
lemma carries_jump {form : Option Node → Form Node} (hopen : ∀ o, (form o).isOpen = true)
    (hchildren : ∀ o, (form o).children = o.toList) : (jump form).Carries d P fun n => [n] := by
  have hend (start : Nat) (label : Option Node) (h : Each P label.toList) : Carries d P (do
      semicolon
      finish start (form label)) fun n => [n] :=
    .skip fun _ => .node (hopen _) (hchildren _ ▸ h)
  refine .skip fun start => .skip fun _ => .skip fun _ => .skip fun _ => ?_
  have hnone := hend start none .nil
  exact .ite hnone (.ite (carries_identifierNode.map_some.bind (hend start)) hnone)

lemma carries_returnStatement : (returnStatement rules).Carries d P fun n => [n] := by
  refine .skip fun start => .skip fun _ => .skip fun _ => ?_
  refine .ite_bind (.ite .none (carries_expression (hr.symbol .assignment nofun))) fun value h => ?_
  exact .skip fun _ => .node rfl h

lemma carries_throwStatement : (throwStatement rules).Carries d P fun n => [n] := by
  refine .skip fun start => .skip fun _ => .skip fun _ => ?_
  have hend (value : Option Node) (h : Each P value.toList) : Carries d P (do
      semicolon
      finish start (.throwStatement value)) fun n => [n] := .skip fun _ => .node rfl h
  have hvalue := carries_expression (hr.symbol .assignment nofun)
  exact .ite (.skip fun _ => hend none .nil) (hvalue.bind hend)

omit hr in
lemma carries_debuggerStatement : debuggerStatement.Carries d P fun n => [n] :=
  .skip fun _ => .skip fun _ => .skip fun _ => .node rfl .nil

/-! ## Conditions and loops -/

lemma carries_condition : (condition rules).Carries d P Option.toList :=
  .skip fun _ => (carries_bracketed hr).bind fun _ h => .skip fun _ => .pure h

lemma carries_ifStatement : (ifStatement rules).Carries d P fun n => [n] := by
  have hbranch := hr.symbol .statement nofun
  refine .skip fun start => .skip fun _ => (carries_condition hr).bind fun test htest => ?_
  refine hbranch.bind fun thenBranch hthen => .skip fun _ => ?_
  exact .ite_bind (.orNone hbranch) fun elseBranch helse =>
    .node rfl ((htest.append hthen).append helse)

lemma carries_doStatement : (doStatement rules).Carries d P fun n => [n] := by
  refine .skip fun start => .skip fun _ => (hr.symbol .statement nofun).bind fun body hbody => ?_
  refine .skip fun _ => (carries_condition hr).bind fun test htest => .skip fun _ => ?_
  exact .node rfl (hbody.append htest)

lemma carries_whileStatement : (whileStatement rules).Carries d P fun n => [n] := by
  refine .skip fun start => .skip fun _ => (carries_condition hr).bind fun test htest => ?_
  exact (hr.symbol .statement nofun).bind fun body hbody => .node rfl (htest.append hbody)

lemma carries_withStatement : (withStatement rules).Carries d P fun n => [n] := by
  refine .skip fun start => .skip fun _ => (carries_condition hr).bind fun object hobject => ?_
  exact (hr.symbol .statement nofun).bind fun body hbody => .node rfl (hobject.append hbody)

lemma carries_forInitializer : (forInitializer rules).Carries d P Option.toList := by
  refine .skip fun _ => .ite .none (.skip fun _ => .ite ?_ ?_)
  · exact .map ((carries_variableList hr).inContext _)
  · exact (carries_expression (hr.symbol .assignment nofun)).inContext _

section

variable (start : Nat) {binding : Option Node} (h : Each P binding.toList)
include h

lemma carries_forOfRest (isAwait : Bool) :
    (forOfRest rules start isAwait binding).Carries d P fun n => [n] := by
  refine .skip fun _ => ((hr.symbol .assignment nofun).inContext _).bind fun iterated h' => ?_
  refine .skip fun _ => (hr.symbol .statement nofun).bind fun body hbody => ?_
  exact .node rfl ((h.append h').append hbody)

lemma carries_forInRest : (forInRest rules start binding).Carries d P fun n => [n] := by
  have hexpression := (carries_expression (hr.symbol .assignment nofun)).inContext allowIn
  refine .skip fun _ => hexpression.bind fun iterated h' => .skip fun _ => ?_
  exact (hr.symbol .statement nofun).bind fun body hbody =>
    .node rfl ((h.append h').append hbody)

lemma carries_forRest : (forRest rules start binding).Carries d P fun n => [n] := by
  have hexpression := (carries_expression (hr.symbol .assignment nofun)).inContext allowIn
  refine .skip fun _ => .skip fun k => .ite_bind (.ite .none hexpression) fun test htest => ?_
  refine .skip fun _ => .skip fun _ =>
    .ite_bind (.ite .none hexpression) fun incrementor hincrementor => .skip fun _ => ?_
  exact (hr.symbol .statement nofun).bind fun body hbody =>
    .node rfl (((h.append htest).append hincrementor).append hbody)

end

lemma carries_forStatement : (forStatement rules).Carries d P fun n => [n] := by
  refine .skip fun start => .skip fun _ => .skip fun isAwait => .skip fun _ => ?_
  refine (carries_forInitializer hr).bind fun binding h => .skip fun k => .ite ?_ (.ite ?_ ?_)
  · exact carries_forOfRest hr start h isAwait
  · exact carries_forInRest hr start h
  · exact carries_forRest hr start h

/-! ## Switches and exceptions -/

lemma carries_switchClause : (switchClause rules).Carries d P fun n => [n] := by
  have hstatements := carries_statementsUntil (hr.symbol .statement nofun) endsClause
  refine .skip fun start => .skip fun _ => .ite ?_ (.skip fun _ => .skip fun _ => ?_)
  · refine (carries_expression (hr.symbol .assignment nofun)).bind fun value hvalue => ?_
    exact .skip fun _ => hstatements.bind fun statements h => .node rfl (hvalue.append h)
  · exact hstatements.bind fun statements h => .node rfl h

lemma carries_caseBlock : (caseBlock rules).Carries d P fun n => [n] := by
  refine .skip fun start => .skip fun _ => .bind (.collect fun clauses hclauses => ?_)
    fun clauses hclauses => .bind (.sequence hclauses.reverse) fun list hlist => ?_
  · refine .skip fun k => .ite ?_ (.pure hclauses)
    exact (carries_switchClause hr).bind fun clause h => .pure (h.append hclauses)
  · exact .skip fun _ => .node rfl hlist

lemma carries_switchStatement : (switchStatement rules).Carries d P fun n => [n] := by
  refine .skip fun start => .skip fun _ => (carries_condition hr).bind fun value hvalue => ?_
  exact (carries_caseBlock hr).bind fun cases hcases => .node rfl (hvalue.append hcases)

lemma carries_catchBinding? : (catchBinding? rules).Carries d P Option.toList := by
  refine .skip fun _ => .ite .none (.skip fun start => ?_)
  refine (hr.symbol .bindingName nofun).bind fun name hname => ?_
  refine (carries_annotatedType hr).bind fun type htype => ?_
  exact .bind (.node rfl ((hname.append htype).append .nil)) fun binding h =>
    .skip fun _ => .pure h

lemma carries_catchClause : (catchClause rules).Carries d P fun n => [n] := by
  refine .skip fun start => .skip fun _ => (carries_catchBinding? hr).bind fun binding h => ?_
  exact hr.block.bind fun body hbody => .node rfl (h.append hbody)

lemma carries_tryStatement : (tryStatement rules).Carries d P fun n => [n] := by
  refine .skip fun start => .skip fun _ => hr.block.bind fun body hbody => .skip fun _ => ?_
  refine .ite_bind (.orNone (.map (carries_catchClause hr))) fun catching hcatching => ?_
  refine .skip fun _ => .ite (.skip fun _ => hr.block.map_some.bind fun final hfinal => ?_) ?_
  · exact .node rfl (hbody.append (hcatching.append hfinal))
  · exact .node rfl (hbody.append (hcatching.append .nil))

/-! ## Any statement -/

lemma carries_otherStatement : (otherStatement rules).Carries d P Option.toList := by
  refine .skip fun _ => .ite_test ?_ (.skip fun _ => .ite ?_ (.skip fun _ => .none))
  · exact .option (carries_labeledStatement hr)
  · exact carries_expressionStatement hr

lemma carries_decoratedStatement : (decoratedStatement rules).Carries d P Option.toList := by
  refine .skip fun start => (carries_decorators hr).bind fun decorators h => .skip fun _ => ?_
  exact .ite (carries_exported hr start h) (carries_declaration hr start h)

lemma carries_wordStatement : (wordStatement rules).Carries d P Option.toList := by
  refine .skip fun _ => .ite (.skip fun start => carries_declaration hr start .nil) ?_
  refine .skip fun _ => .ite (.skip fun start => ?_) (carries_otherStatement hr)
  exact .map (carries_variableStatement hr start .nil)

lemma carries_statement : (statement rules).Carries d P Option.toList := by
  refine .skip fun k => ?_
  split
  case h_1 => exact .option hr.block
  case h_2 => exact .option (carries_emptyNode rfl rfl)
  case h_3 => exact carries_decoratedStatement hr
  case h_4 => exact .option (carries_ifStatement hr)
  case h_5 => exact .option (carries_doStatement hr)
  case h_6 => exact .option (carries_whileStatement hr)
  case h_7 => exact .option (carries_forStatement hr)
  case h_8 | h_9 => exact .option (carries_jump (fun _ => rfl) fun _ => rfl)
  case h_10 => exact .option (carries_returnStatement hr)
  case h_11 => exact .option (carries_throwStatement hr)
  case h_12 => exact .option (carries_withStatement hr)
  case h_13 => exact .option (carries_switchStatement hr)
  case h_14 => exact .option (carries_tryStatement hr)
  case h_15 => exact .option carries_debuggerStatement
  case h_16 =>
    exact .skip fun _ => .ite (carries_otherStatement hr) (.option carries_importDeclaration)
  case h_17 => exact .skip fun start => carries_exported hr start .nil
  case h_18 => exact carries_wordStatement hr

end Parser
end InlineValues

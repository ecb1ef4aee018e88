import InlineValues.Proofs.Grammar.Statement
import InlineValues.Proofs.Replay.Assignment

/-!
# Statements that are read again

A statement that is an evaluable expression is read again from any text that is made of the lexemes
of the expression.  In the first run this is a matter of how the statement was read: of all the
productions of statements only one gives such a statement (`restates_statement`).  In the second run
it is a matter of its first two tokens, which say that no declaration and no label stands there
(`gives_statement_again`).
-/

namespace InlineValues

/-- A statement that is no expression. -/
def Node.IsOtherStatement (n : Node) : Prop := n.is .expressionStatement = false

namespace Parser

open ParserState

variable {s : Source} {w d : Nat} {st st₀ st₁ st' : ParserState} {rules : Rules}

/-! ## The first run -/

/-- What is known of a statement that was read from `st` to `st'`, or was not: if nothing was
reported there is one, and if it is an evaluable expression, this can be read again. -/
def Restates (s : Source) (st : ParserState) (o : Option Node) (st' : ParserState) : Prop :=
  st'.Quiet → ∃ n, o = some n ∧ ∀ e, n.form = .expressionStatement e → e.IsEvaluable →
    ∃ l' ts, Replay s (Stage.expression.within st.context) 1 st.depth
      (fun fuel => expression (grammar fuel)) st.lexer l' e ts

namespace Restates

variable {n : Node} {o : Option Node}

lemma other (h : n.IsOtherStatement) : Restates s st (some n) st' := by
  refine fun _ => ⟨n, rfl, fun e hform => ?_⟩
  have his : n.is .expressionStatement = true := by rw [Node.is, Node.kind, hform]; rfl
  rw [h] at his
  cases his

lemma loud (h : ¬ st'.Quiet) : Restates s st o st' := fun hquiet => absurd hquiet h

/-- Nothing is known of what came before but the place. -/
lemma of_same (hsame : st.SamePlace s st₁) (h : Restates s st₁ o st') : Restates s st o st' := by
  intro hquiet
  obtain ⟨n, ho, hreplay⟩ := h hquiet
  refine ⟨n, ho, fun e hform hevaluable => ?_⟩
  rw [hsame.context, hsame.depth] at hreplay
  obtain ⟨l', ts, hreplay⟩ := hreplay e hform hevaluable
  exact ⟨l', ts, hreplay.of_agrees hsame.agrees.symm⟩

end Restates

/-- A production that gives another statement. -/
lemma Yields.restates {p : Parser Node} (h : p.Yields Node.IsOtherStatement) (st₁ : ParserState) :
    Gives (do return some (← p)) st₁ (Restates s st) :=
  (h.gives st₁).bind fun _ _ hn => .pure (.other hn)

lemma Yields.map_restates {p : Parser Node} (h : p.Yields Node.IsOtherStatement)
    (st₁ : ParserState) : (some <$> p).Gives st₁ (Restates s st) :=
  .map ((h.gives st₁).mono fun _ _ hn => .other hn)

/-- An expression as a statement. -/
lemma restates_expressionStatement
    (hexpression : Replays s w .expression 1 (expression rules)
      fun fuel => expression (grammar fuel)) (hs : st.Sound s w) :
    (expressionStatement rules).Gives st (Restates s st) := by
  refine .pos ((hexpression st hs).bind fun inner st₁ h => ?_)
  obtain ⟨h₁, hrepeats⟩ := h
  cases inner with
  | none => exact fun hquiet => nomatch hrepeats hquiet
  | some inner =>
    refine (skips_semicolon st₁ h₁.sound).bind fun _ st₂ h₂ => .finish (.pure fun hquiet => ?_)
    obtain ⟨_, ⟨⟩, hreplay⟩ := hrepeats (h₂.tells.quiet ⟨hquiet.diagnostics, hquiet.lexer⟩)
    refine ⟨_, rfl, fun e hform hevaluable => ?_⟩
    cases hform
    exact ⟨_, hreplay hevaluable⟩

/-! ### Other statements -/

lemma yields_finish (pos : Nat) (form : Form Node)
    (h : form.kind ≠ .node .expressionStatement) : (finish pos form).Yields Node.IsOtherStatement :=
  .finish fun _ _ => beq_eq_false_iff_ne.mpr h

lemma yields_jump {form : Option Node → Form Node}
    (h : ∀ o, (form o).kind ≠ .node .expressionStatement) :
    (jump form).Yields Node.IsOtherStatement := by
  have hrest (start : Nat) (label : Option Node) : Yields (do
      semicolon
      finish start (form label)) Node.IsOtherStatement :=
    .bind fun _ => yields_finish start _ (h label)
  exact .bind fun _ => .bind fun _ => .bind fun _ => .bind fun _ => .ite
    (.bind fun _ => hrest _ _) (.ite (.bind fun _ => hrest _ _) (.bind fun _ => hrest _ _))

section

variable (rules : Rules)

lemma yields_block : (block rules).Yields Node.IsOtherStatement :=
  .bind fun _ => .bind fun _ => .bind fun _ => .bind fun _ => .bind fun _ => .bind fun _ =>
    .bind fun _ => yields_finish _ _ nofun

lemma yields_labeledStatement : (labeledStatement rules).Yields Node.IsOtherStatement :=
  .bind fun _ => .bind fun _ => .bind fun _ => .bind fun _ => yields_finish _ _ nofun

lemma yields_returnStatement : (returnStatement rules).Yields Node.IsOtherStatement :=
  .bind fun _ => .bind fun _ => .bind fun _ => .ite
    (.bind fun _ => .bind fun _ => yields_finish _ _ nofun)
    (.bind fun _ => .bind fun _ => yields_finish _ _ nofun)

lemma yields_throwStatement : (throwStatement rules).Yields Node.IsOtherStatement :=
  .bind fun _ => .bind fun _ => .bind fun _ => .ite
    (.bind fun _ => .bind fun _ => .bind fun _ => yields_finish _ _ nofun)
    (.bind fun _ => .bind fun _ => yields_finish _ _ nofun)

lemma yields_ifStatement : (ifStatement rules).Yields Node.IsOtherStatement :=
  .bind fun _ => .bind fun _ => .bind fun _ => .bind fun _ => .bind fun _ => .ite
    (.bind fun _ => yields_finish _ _ nofun)
    (.bind fun _ => yields_finish _ _ nofun)

lemma yields_doStatement : (doStatement rules).Yields Node.IsOtherStatement :=
  .bind fun _ => .bind fun _ => .bind fun _ => .bind fun _ => .bind fun _ => .bind fun _ =>
    yields_finish _ _ nofun

lemma yields_whileStatement : (whileStatement rules).Yields Node.IsOtherStatement :=
  .bind fun _ => .bind fun _ => .bind fun _ => .bind fun _ => yields_finish _ _ nofun

lemma yields_withStatement : (withStatement rules).Yields Node.IsOtherStatement :=
  .bind fun _ => .bind fun _ => .bind fun _ => .bind fun _ => yields_finish _ _ nofun

lemma yields_forRest (start : Nat) (binding : Option Node) :
    (forRest rules start binding).Yields Node.IsOtherStatement := by
  have hrest (test incrementor : Option Node) : Yields (do
      expect .closeParen
      let body ← rules .statement
      finish start (.forStatement binding test incrementor body)) Node.IsOtherStatement :=
    .bind fun _ => .bind fun _ => yields_finish _ _ nofun
  have htest (test : Option Node) : Yields (do
      expect .semicolon
      let incrementor ← if ← at? .closeParen then pure none
        else inContext allowIn (expression rules)
      expect .closeParen
      let body ← rules .statement
      finish start (.forStatement binding test incrementor body)) Node.IsOtherStatement :=
    .bind fun _ => .bind fun _ => .ite (.bind fun _ => hrest _ _) (.bind fun _ => hrest _ _)
  exact .bind fun _ => .bind fun _ => .ite (.bind fun _ => htest _) (.bind fun _ => htest _)

lemma yields_forStatement : (forStatement rules).Yields Node.IsOtherStatement := by
  refine .bind fun _ => .bind fun _ => .bind fun _ => .bind fun _ => .bind fun _ => .bind fun _ =>
    .ite ?_ (.ite ?_ (yields_forRest rules _ _))
  · exact .bind fun _ => .bind fun _ => .bind fun _ => .bind fun _ =>
      yields_finish _ _ nofun
  · exact .bind fun _ => .bind fun _ => .bind fun _ => .bind fun _ =>
      yields_finish _ _ nofun

lemma yields_switchStatement : (switchStatement rules).Yields Node.IsOtherStatement :=
  .bind fun _ => .bind fun _ => .bind fun _ => .bind fun _ => yields_finish _ _ nofun

lemma yields_tryStatement : (tryStatement rules).Yields Node.IsOtherStatement := by
  have hrest (start : Nat) (body : Node) (catching : Option Node) : Yields (do
      let finalBlock ← if catching.isNone || (← at? .finallyKeyword) then do
          expect .finallyKeyword
          some <$> block rules
        else pure none
      finish start (.tryStatement body catching finalBlock)) Node.IsOtherStatement :=
    .bind fun _ => .ite (.bind fun _ => .bind fun _ => yields_finish _ _ nofun)
      (.bind fun _ => yields_finish _ _ nofun)
  exact .bind fun _ => .bind fun _ => .bind fun _ => .bind fun _ =>
    .ite (.bind fun _ => hrest _ _ _) (.bind fun _ => hrest _ _ _)

end

lemma yields_emptyStatement : (emptyNode .emptyStatement).Yields Node.IsOtherStatement :=
  .bind fun _ => .bind fun _ => yields_finish _ _ nofun

lemma yields_debuggerStatement : debuggerStatement.Yields Node.IsOtherStatement :=
  .bind fun _ => .bind fun _ => .bind fun _ => yields_finish _ _ nofun

lemma yields_importDeclaration : importDeclaration.Yields Node.IsOtherStatement := by
  have hrest (start : Nat) (clause : Option Node) : Yields (do
      let source ← if ← at? .stringLiteral then some <$> literalNode else do
        report .expressionExpected
        pure none
      semicolon
      finish start (.importDeclaration clause source)) Node.IsOtherStatement :=
    .bind fun _ => .ite
      (.bind fun _ => .bind fun _ => yields_finish _ _ nofun)
      (.bind fun _ => .bind fun _ => .bind fun _ => yields_finish _ _ nofun)
  exact .bind fun _ => .bind fun _ => .bind fun _ => .ite
    (.bind fun _ => hrest _ _) (.bind fun _ => hrest _ _)

/-! ### Declarations -/

section

variable (rules : Rules) (start : Nat)

lemma yields_functionDeclaration (modifiers : Option (Sequence Node)) (isAsync : Bool) :
    (functionDeclaration rules start modifiers isAsync).Yields Node.IsOtherStatement := by
  have hrest (isGenerator : Bool) (name : Option Node) : Yields (do
      let signature ← signature rules isAsync isGenerator
      let body ← functionBody? rules isAsync isGenerator
      finish start (.functionDeclaration
        { modifiers, isAsync, isGenerator, name, body
          typeParameters := signature.typeParameters
          parameters := signature.parameters
          returnType := signature.returnType })) Node.IsOtherStatement :=
    .bind fun _ => .bind fun _ => yields_finish _ _ nofun
  exact .bind fun _ => .bind fun _ => .bind fun _ => .ite
    (.bind fun _ => hrest _ _) (.bind fun _ => hrest _ _)

lemma yields_interfaceDeclaration (modifiers : Option (Sequence Node)) :
    (interfaceDeclaration rules start modifiers).Yields Node.IsOtherStatement :=
  .bind fun _ => .bind fun _ => .bind fun _ => .bind fun _ => .bind fun _ =>
    yields_finish _ _ nofun

lemma yields_typeAlias (modifiers : Option (Sequence Node)) :
    (typeAlias rules start modifiers).Yields Node.IsOtherStatement :=
  .bind fun _ => .bind fun _ => .bind fun _ => .bind fun _ => .bind fun _ => .bind fun _ =>
    yields_finish _ _ nofun

lemma yields_enumDeclaration (modifiers : Option (Sequence Node)) :
    (enumDeclaration rules start modifiers).Yields Node.IsOtherStatement :=
  .bind fun _ => .bind fun _ => .bind fun _ => yields_finish _ _ nofun

lemma yields_moduleDeclaration (modifiers : Option (Sequence Node)) :
    (moduleDeclaration rules start modifiers).Yields Node.IsOtherStatement :=
  .bind fun _ => .bind fun _ => .bind fun _ => .bind fun _ => yields_finish _ _ nofun

lemma yields_variableStatement (modifiers : Option (Sequence Node)) :
    (variableStatement rules start modifiers).Yields Node.IsOtherStatement :=
  .bind fun _ => .bind fun _ => yields_finish _ _ nofun

lemma yields_exportAssignment (modifiers : List Node) (isEquals : Bool) :
    (exportAssignment rules start modifiers isEquals).Yields Node.IsOtherStatement :=
  .bind fun _ => .bind fun _ => .bind fun _ => yields_finish _ _ nofun

lemma yields_exportList (modifiers : List Node) (typeOnly : Bool) :
    (exportList start modifiers typeOnly).Yields Node.IsOtherStatement := by
  have hrest (clause source : Option Node) : Yields (do
      semicolon
      finish start (.exportDeclaration (← sequence? modifiers) typeOnly clause source))
      Node.IsOtherStatement :=
    .bind fun _ => .bind fun _ => yields_finish _ _ nofun
  exact .bind fun _ => .bind fun _ => .ite (.bind fun _ => hrest _ _) (.bind fun _ => hrest _ _)

/-- What no word declares is reported. -/
lemma restates_declarationRest (modifiers : Option (Sequence Node)) (hs : st.Sound s w) :
    (declarationRest rules start modifiers).Gives st (Restates s st₀) := by
  refine .kind ?_
  split
  case h_1 => exact (yields_functionDeclaration rules start modifiers false).restates st
  case h_2 => exact .advance ((yields_functionDeclaration rules start modifiers true).restates _)
  case h_3 =>
    have hparts : (classParts rules modifiers).Gives st fun _ _ => True := trivial
    exact hparts.bind fun parts st₁ _ =>
      (yields_finish start (.classDeclaration parts) nofun).restates st₁
  case h_4 => exact (yields_interfaceDeclaration rules start modifiers).restates st
  case h_5 => exact (yields_typeAlias rules start modifiers).restates st
  case h_6 => exact (yields_enumDeclaration rules start modifiers).restates st
  case h_7 | h_8 | h_9 => exact (yields_moduleDeclaration rules start modifiers).restates st
  case h_10 | h_11 | h_12 | h_13 =>
    exact (yields_variableStatement rules start modifiers).restates st
  case h_14 => exact (gives_report_loud _ hs).bind fun _ _ hloud => .pure (.loud hloud)

lemma restates_declaration (modifiers : List Node) (hs : st.Sound s w) :
    (declaration rules start modifiers).Gives st (Restates s st₀) :=
  (reads_modifiersWhile spots_atDeclarationModifier st hs).bind fun _ _ h₁ =>
    .sequence? fun modifiers' _ => restates_declarationRest rules start modifiers' h₁.sound

lemma restates_exported (decorators : List Node) (hs : st.Sound s w) :
    (exported rules start decorators).Gives st (Restates s st₀) := by
  refine (reads_tokenNode st hs).bind fun keyword st₁ h₁ => ?_
  refine (skips_optional .equals st₁ h₁.sound).bind fun b st₂ h₂ => .ite ?_ ?_
  · exact (yields_exportAssignment rules start decorators true).restates st₂
  refine .at? fun b _ _ => .ite ?_ ?_
  · refine (peeks_defaultDeclares st₂ h₂.sound).bind fun b st₃ h₃ => .ite ?_ ?_
    · exact (reads_tokenNode st₃ (h₃.sound h₂.sound)).bind fun _ st₄ h₄ =>
        restates_declaration rules start _ h₄.sound
    · exact .advance ((yields_exportAssignment rules start decorators false).restates _)
  refine (peeks_atTypeExport st₂ h₂.sound).bind fun typeOnly st₃ h₃ => ?_
  have hs₃ := h₃.sound h₂.sound
  refine .when_bind (P := fun st₄ => st₄.Sound s w)
    (fun _ => (skips_advance st₃ hs₃).mono fun _ _ h₄ => h₄.sound) (fun _ => hs₃) fun st₄ hs₄ => ?_
  refine .kind (.ite ?_ ?_)
  · exact (yields_exportList start decorators typeOnly).restates st₄
  · exact restates_declaration rules start _ hs₄

end

/-! ### Any statement -/

section

variable (hr : rules.Sound s w) (hexpression : Replays s w .expression 1 (expression rules)
  fun fuel => expression (grammar fuel))
include hr hexpression

omit hr in
lemma restates_otherStatement (hs : st.Sound s w) :
    (otherStatement rules).Gives st (Restates s st) := by
  refine .atIdentifier fun b _ => ?_
  refine .ite_test (P := fun _ st₁ => st.SamePlace s st₁) (fun _ => peeks_nextIs _ st hs)
    (fun _ => .refl st) (fun st₁ _ _ => (yields_labeledStatement rules).restates st₁)
    fun st₁ h₁ => ?_
  refine (spots_atExpression st₁ (h₁.sound hs)).bind fun b st₂ h => ?_
  have h₂ := h₁.trans h.1
  refine .ite ?_ ?_
  · exact (restates_expressionStatement hexpression (h₂.sound hs)).mono fun _ _ h => h.of_same h₂
  · exact (gives_report_loud _ (h₂.sound hs)).bind fun _ _ hloud => .pure (.loud hloud)

omit hr in
lemma restates_wordStatement (hs : st.Sound s w) :
    (wordStatement rules).Gives st (Restates s st) := by
  refine (peeks_atDeclaration st hs).bind fun b st₁ h₁ => .ite ?_ ?_
  · exact .pos (restates_declaration rules _ _ (h₁.sound hs))
  refine (spots_atVariables st₁ (h₁.sound hs)).bind fun b st₂ h => .ite ?_ ?_
  · exact .pos ((yields_variableStatement rules _ none).map_restates st₂)
  · have h₂ := h₁.trans h.1
    exact (restates_otherStatement hexpression (h₂.sound hs)).mono fun _ _ h => h.of_same h₂

/-- Of all statements only an expression has that form, and it is read again. -/
theorem restates_statement (hs : st.Sound s w) : (statement rules).Gives st (Restates s st) := by
  refine .kind ?_
  split
  case h_1 => exact (yields_block rules).restates st
  case h_2 => exact yields_emptyStatement.restates st
  case h_3 =>
    refine .pos ((reads_decorators hr st hs).bind fun decorators st₁ h₁ => ?_)
    exact .at? fun b _ _ => .ite (restates_exported rules _ _ h₁.sound)
      (restates_declaration rules _ _ h₁.sound)
  case h_4 => exact (yields_ifStatement rules).restates st
  case h_5 => exact (yields_doStatement rules).restates st
  case h_6 => exact (yields_whileStatement rules).restates st
  case h_7 => exact (yields_forStatement rules).restates st
  case h_8 => exact (yields_jump fun _ => by nofun).restates st
  case h_9 => exact (yields_jump fun _ => by nofun).restates st
  case h_10 => exact (yields_returnStatement rules).restates st
  case h_11 => exact (yields_throwStatement rules).restates st
  case h_12 => exact (yields_withStatement rules).restates st
  case h_13 => exact (yields_switchStatement rules).restates st
  case h_14 => exact (yields_tryStatement rules).restates st
  case h_15 => exact yields_debuggerStatement.restates st
  case h_16 =>
    refine (peeks_nextIs _ st hs).bind fun b st₁ h₁ => .ite ?_ ?_
    · exact (restates_otherStatement hexpression (h₁.sound hs)).mono fun _ _ h => h.of_same h₁
    · exact yields_importDeclaration.restates st₁
  case h_17 => exact .pos (restates_exported rules _ _ hs)
  case h_18 => exact restates_wordStatement hexpression hs

end

/-! ## The second run -/

end Parser

/-- The tokens with which an evaluable expression can start. -/
def TokenKind.operationStarts : List TokenKind :=
  [openParen, openBracket] ++ [identifier, thisKeyword, nullKeyword, trueKeyword, falseKeyword,
    numericLiteral, bigIntLiteral, stringLiteral] ++ prefixSigns

lemma TokenKind.isCalm_of_isInfix {k : TokenKind} (h : k.isInfix = true) : k.isCalm = true := by
  cases k
  all_goals first | (exfalso; revert h; decide) | decide

lemma TokenKind.isCalm_of_isName {k : TokenKind} (h : k.isName = true) : k.isCalm = true := by
  cases k
  all_goals first | (exfalso; revert h; decide) | decide

lemma Lexeme.isCalm_mark (optional : Bool) : ∀ t ∈ mark optional, t.kind.isCalm = true := by
  cases optional <;> decide

/-- An evaluable expression is made of calm tokens. -/
lemma Node.MadeOf.calm {level : Nat} {n : Node} {ts : List Lexeme} (h : n.MadeOf s level ts) :
    ∀ t ∈ ts, t.kind.isCalm = true := by
  have hsigns : ∀ k ∈ TokenKind.prefixSigns, k.isCalm = true := by decide
  have hbrackets {k k' : TokenKind} {us : List Lexeme}
      (hk : k ∈ [TokenKind.openParen, .openBracket])
      (hk' : k' ∈ [TokenKind.closeParen, .closeBracket]) (hus : ∀ t ∈ us, t.kind.isCalm = true) :
      ∀ t ∈ .ofKind k :: us ++ [.ofKind k'], t.kind.isCalm = true := by
    have hcalm : ∀ k ∈ [TokenKind.openParen, .openBracket] ++
        [TokenKind.closeParen, .closeBracket], k.isCalm = true := by
      decide
    exact List.forall_mem_append.mpr
      ⟨List.forall_mem_cons.mpr ⟨hcalm k (List.mem_append_left _ hk), hus⟩,
        List.forall_mem_singleton.mpr (hcalm k' (List.mem_append_right _ hk'))⟩
  have hlisted (trailing : Bool) {parts : List (Node × List Lexeme)}
      (h : ∀ part ∈ parts, ∀ t ∈ part.2, t.kind.isCalm = true) :
      ∀ t ∈ Lexeme.listed trailing (parts.map (·.2)), t.kind.isCalm = true :=
    Lexeme.forall_mem_listed trailing (P := fun t => t.kind.isCalm = true) (by decide)
      (List.forall_mem_map.mpr h)
  induction h with
  | leaf _ kind =>
    have hoperands : ∀ k ∈ [TokenKind.identifier, .thisKeyword, .nullKeyword, .trueKeyword,
        .falseKeyword, .numericLiteral, .bigIntLiteral, .stringLiteral], k.isCalm = true := by
      decide
    exact List.forall_mem_singleton.mpr (hoperands _ (TokenKind.mem_of_isOperand kind))
  | access _ _ _ _ kind ih =>
    have hpoint : ∀ optional, (TokenKind.point optional).isCalm = true := by decide
    exact List.forall_mem_append.mpr ⟨ih, List.forall_mem_cons.mpr ⟨hpoint _,
      List.forall_mem_singleton.mpr (TokenKind.isCalm_of_isName kind)⟩⟩
  | @index _ _ _ optional _ _ _ _ _ iho ihe =>
    exact List.forall_mem_append.mpr
      ⟨List.forall_mem_append.mpr ⟨iho, Lexeme.isCalm_mark optional⟩,
        hbrackets (by simp) (by simp) ihe⟩
  | @call _ _ optional _ _ _ _ _ _ _ iho ihs =>
    exact List.forall_mem_append.mpr
      ⟨List.forall_mem_append.mpr ⟨iho, Lexeme.isCalm_mark optional⟩,
        hbrackets (by simp) (by simp) (hlisted false ihs)⟩
  | array _ _ _ ihs => exact hbrackets (by simp) (by simp) (hlisted _ ihs)
  | parenthesized _ _ ih => exact hbrackets (by simp) (by simp) ih
  | sign _ hk _ ih => exact List.forall_mem_cons.mpr ⟨hsigns _ hk, ih⟩
  | update _ hk _ ih =>
    have hupdates : ∀ k ∈ [TokenKind.plusPlus, .minusMinus], k.isCalm = true := by decide
    exact List.forall_mem_append.mpr ⟨ih, List.forall_mem_singleton.mpr (hupdates _ hk)⟩
  | binary _ hk _ _ ihl ihr =>
    exact List.forall_mem_append.mpr
      ⟨ihl, List.forall_mem_cons.mpr ⟨TokenKind.isCalm_of_isInfix hk, ihr⟩⟩
  | conditional _ _ _ _ ihe iha ihb =>
    exact List.forall_mem_append.mpr ⟨List.forall_mem_append.mpr
      ⟨ihe, List.forall_mem_cons.mpr ⟨by decide, iha⟩⟩, List.forall_mem_cons.mpr ⟨by decide, ihb⟩⟩
  | lift _ _ ih => exact ih

/-- No colon stands behind the first of the lexemes, so that it is no label. -/
def Lexeme.Unlabeled (ts : List Lexeme) : Prop := ∀ u ∈ ts.tail.head?, u.kind ≠ .colon

namespace Node.MadeOf

variable {level : Nat} {n : Node} {ts : List Lexeme}

lemma head_ne_colon (h : n.MadeOf s level ts) (more : List Lexeme) :
    ∀ u ∈ (ts ++ more).head?, u.kind ≠ .colon := by
  obtain ⟨t, us, rfl, -, hkind⟩ := h.starts_kind
  rintro u ⟨⟩ hcolon
  rw [hcolon] at hkind
  revert hkind
  simp [TokenKind.isOperand, TokenKind.prefixSigns]

/-- Behind an expression of one lexeme stands what comes behind the expression. -/
lemma unlabeled_append (h : n.MadeOf s level ts) (hts : Lexeme.Unlabeled ts) {v : Lexeme}
    (hv : v.kind ≠ .colon) (vs : List Lexeme) : Lexeme.Unlabeled (ts ++ v :: vs) := by
  obtain ⟨t, us, rfl, -⟩ := h.starts_kind
  cases us with
  | nil =>
    rintro u ⟨⟩
    exact hv
  | cons => exact hts

lemma unlabeled_marked (h : n.MadeOf s level ts) (hts : Lexeme.Unlabeled ts) (optional : Bool)
    {v : Lexeme} (hv : v.kind ≠ .colon) (vs : List Lexeme) :
    Lexeme.Unlabeled (ts ++ Lexeme.mark optional ++ v :: vs) := by
  rw [List.append_assoc]
  cases optional with
  | false => exact h.unlabeled_append hts hv vs
  | true => exact h.unlabeled_append hts (v := .ofKind .questionDot) (by decide) _

/-- The first lexeme of an expression is no label. -/
lemma unlabeled (h : n.MadeOf s level ts) : Lexeme.Unlabeled ts := by
  induction h with
  | leaf => exact fun u hu => nomatch hu
  | parenthesized _ h => exact h.head_ne_colon _
  | @access _ _ _ optional _ _ _ _ object _ _ ih =>
    have hpoint : ∀ optional, TokenKind.point optional ≠ .colon := by decide
    exact object.unlabeled_append ih (v := .ofKind (.point optional)) (hpoint optional) _
  | index _ object _ ih => exact object.unlabeled_marked ih _ (by decide) _
  | call _ _ object _ ih => exact object.unlabeled_marked ih _ (by decide) _
  | @array _ elements _ parts _ _ made =>
    cases parts with
    | nil =>
      rintro u ⟨⟩
      decide
    | cons part parts =>
      obtain ⟨more, hmore⟩ := Lexeme.exists_listed elements.trailingComma part.2 (parts.map (·.2))
      rw [List.map_cons, hmore]
      have hhead := (made part List.mem_cons_self).head_ne_colon (more ++ [.ofKind .closeBracket])
      rwa [← List.append_assoc] at hhead
  | sign _ _ h =>
    have hhead := h.head_ne_colon []
    rwa [List.append_nil] at hhead
  | update _ hk h ih =>
    have hsigns : ∀ k ∈ [TokenKind.plusPlus, .minusMinus], k ≠ .colon := by decide
    exact h.unlabeled_append ih (hsigns _ hk) _
  | @binary _ _ _ k _ _ _ hk left _ ih =>
    refine left.unlabeled_append ih (v := .ofKind k) (fun hcolon => ?_) _
    rw [show k = .colon from hcolon] at hk
    cases hk
  | conditional _ condition _ _ ih =>
    rw [List.append_assoc, List.cons_append]
    exact condition.unlabeled_append ih (v := .ofKind .question) (by decide) _
  | lift _ _ ih => exact ih

end Node.MadeOf

namespace Parser

open ParserState

/-- In front of the lexemes of an expression stands one with which an expression can start. -/
lemma Follows.kind_mem {level : Nat} {n : Node} {ts : List Lexeme} (h : Follows d ts st)
    (hmade : n.MadeOf s level ts) : st.kind ∈ TokenKind.operationStarts := by
  obtain ⟨t, us, rfl, hgreater, hkind⟩ := hmade.starts_kind
  rw [h.kind_eq hgreater, TokenKind.operationStarts, List.mem_append, List.mem_append]
  rcases hkind with hkind | hkind | ⟨-, hkind⟩
  · exact .inl (.inr (TokenKind.mem_of_isOperand hkind))
  · exact .inl (.inl hkind)
  · exact .inr hkind

/-- Behind the last lexeme a statement ends, and so does the text. -/
lemma Follows.gives_semicolon (h : Follows d [] st) :
    semicolon.Gives st fun _ st' => st'.Quiet ∧ st'.kind = .endOfFile := by
  have hlast := h.spelled.last
  have hlastKind : st.kind = .endOfFile ∨
      (st.kind = .semicolon ∧ st.lexer.scan.token.kind = .endOfFile) := by
    rw [ParserState.kind, h.current]
    exact hlast.kind
  have hends : canEndStatement.Gives st fun b st' => b = true ∧ st' = st := by
    refine .kind ?_
    rcases hlastKind with hkind | ⟨hkind, -⟩ <;> rw [hkind] <;> exact ⟨rfl, rfl⟩
  refine hends.bind fun b st' hst => ?_
  obtain ⟨rfl, rfl⟩ := hst
  rw [if_pos rfl]
  refine .discard ?_
  rcases hlastKind with hkind | ⟨hkind, hscan⟩
  · have hne : st'.kind ≠ .semicolon := by rw [hkind]; decide
    refine (Gives.optional_missing hne).mono fun _ st₁ hst => ?_
    rw [hst.2]
    exact ⟨h.quiet, hkind⟩
  · refine (Gives.optional_taken hkind).mono fun _ st₁ hst => ?_
    rw [hst.2]
    refine ⟨⟨h.quiet.diagnostics, ?_⟩, hscan⟩
    exact (hlast.diagnostics (h.current.symm.trans hkind)).trans h.quiet.lexer

/-- A statement that was read again, with nothing behind it. -/
structure MirrorsStatement (e : Node) (o : Option Node) (st : ParserState) : Prop where
  alike : ∃ n e', o = some n ∧ n.form = .expressionStatement e' ∧ e.Alike e'
  quiet : st.Quiet
  ended : st.kind = .endOfFile

section

variable {l' : Lexer} {level : Nat} {e : Node} {ts : List Lexeme} {fuel : Nat}
  (hagain : Rereads .expression 1 (fun fuel => expression (grammar fuel)) l' e ts)
  (hlevels : d + e.levels ≤ maxParserDepth) (h : Follows d ts st)
  (hfuel : 4 * (ts.length + (maxParserDepth - d)) + 1 ≤ fuel)
include hagain hlevels h hfuel

lemma gives_expressionStatement_again :
    (expressionStatement (grammar fuel)).Gives st (MirrorsStatement e) := by
  refine .pos ((hagain [] st fuel d (.nil l') (by simpa using h) hlevels
    (by simpa using hfuel)).bind fun o st₁ h₁ => ?_)
  obtain ⟨e', rfl, halike⟩ := h₁.alike
  exact h₁.follows.gives_semicolon.bind fun _ st₂ h₂ => .finish (.pure
    ⟨⟨_, e', rfl, rfl, halike⟩, ⟨h₂.1.diagnostics, h₂.1.lexer⟩, h₂.2⟩)

/-- No label stands in front of the lexemes of an expression. -/
lemma gives_otherStatement_again (hmade : e.MadeOf s level ts)
    (hkind : st.kind ∈ TokenKind.operationStarts) :
    (otherStatement (grammar fuel)).Gives st (MirrorsStatement e) := by
  obtain ⟨t, us, rfl, hgreater, -⟩ := hmade.starts_kind
  have hcolon : (st.advanced.kind == .colon) = false := by
    have hends : ∀ u ∈ us.head?, (u.kind != .colon) = true := fun u hu =>
      bne_iff_ne.mpr (hmade.unlabeled u hu)
    rcases @Follows.kind_behind d us _ (fun k => k != .colon) (h.advanced hgreater) hends
      with hne | hmem
    · simpa using hne
    · have hclosing :
          ∀ k ∈ [TokenKind.endOfFile, .semicolon, .greaterThan], (k == .colon) = false := by
        decide
      exact hclosing _ hmem
  refine .atIdentifier fun b _ => ?_
  refine .ite_test (P := fun b st₁ => b = false ∧ st.Returns st₁) (fun _ => ?_)
    (fun _ => ⟨rfl, .refl st⟩) (fun _ _ h₁ => absurd h₁.1 (by simp)) fun st₁ h₁ => ?_
  · exact (gives_nextIs_returns _ st).mono fun b st₁ h₁ => ⟨h₁.1.trans hcolon, h₁.2⟩
  have hsame : st₁.kind = st.kind := h₁.2.current
  have hat : atExpression.Gives st₁ fun b st₂ => b = true ∧ st₂ = st₁ := by
    have hstarts :
        ∀ k ∈ TokenKind.operationStarts, k = .identifier ∨ startsExpression k = true := by
      decide
    refine .kind ?_
    rw [hsame]
    rcases hstarts _ hkind with hname | hother
    · rw [hname]
      refine .get (.kind ?_)
      rw [hsame, hname]
      exact ⟨rfl, rfl⟩
    · rw [if_pos hother]
      exact ⟨rfl, rfl⟩
  refine hat.bind fun b st₂ h₂ => ?_
  obtain ⟨rfl, rfl⟩ := h₂
  exact gives_expressionStatement_again hagain hlevels (h.returns h₁.2) hfuel

/-- No declaration stands in front of the lexemes of an expression. -/
theorem gives_statement_again (hmade : e.MadeOf s level ts) :
    (statement (grammar fuel)).Gives st (MirrorsStatement e) := by
  have hmem := h.kind_mem hmade
  have hdeclaration : atDeclaration.Gives st fun b st₁ => b = false ∧ st₁ = st := by
    refine .kind ?_
    split
    case h_12 => exact ⟨rfl, rfl⟩
    all_goals
      rename_i hk
      rw [hk] at hmem
      exact absurd hmem (by decide)
  have hvariables : atVariables.Gives st fun b st₁ => b = false ∧ st₁ = st := by
    refine .kind ?_
    split
    case h_6 => exact ⟨rfl, rfl⟩
    all_goals
      rename_i hk
      rw [hk] at hmem
      exact absurd hmem (by decide)
  refine .kind ?_
  split
  case h_18 =>
    refine hdeclaration.bind fun b st₁ h₁ => ?_
    obtain ⟨rfl, rfl⟩ := h₁
    refine hvariables.bind fun b st₂ h₂ => ?_
    obtain ⟨rfl, rfl⟩ := h₂
    exact gives_otherStatement_again hagain hlevels h hfuel hmade hmem
  all_goals
    rename_i hk
    rw [hk] at hmem
    exact absurd hmem (by decide)

end

end Parser
end InlineValues

import InlineValues.Grammar.Assignment
import InlineValues.Proofs.Grammar.Lookahead
import InlineValues.Proofs.Tree.Operation

/-!
# What a production gives wherever it runs

Some properties of what a production gives do not depend on the text or on the state in which it
starts (`Parser.Yields`).  The productions below the operators between two operands give tight nodes
only, which every such operator takes as its operand.  Most of these nodes are no evaluable
expressions either (`Node.IsForeignOperand`).
-/

namespace InlineValues

/-- An operand for every operator. -/
def Node.IsTight (n : Node) : Prop := n.form.isTight = true

/-- An operand for every operator that is no evaluable expression. -/
structure Node.IsForeignOperand (n : Node) : Prop where
  foreign : n.IsForeign
  tight : n.IsTight

namespace Parser

open ParserState

variable {α β : Type} {st : ParserState}

/-- Whatever the state, the result has a property. -/
def Yields (p : Parser α) (P : α → Prop) : Prop := ∀ st, P (p.run st).1

/-- Nothing has to be known of a step that the result does not come from. -/
lemma Gives.after {p : Parser α} {f : α → Parser β} {Q : β → ParserState → Prop}
    (h : ∀ a st', (f a).Gives st' Q) : (p >>= f).Gives st Q := h _ _

namespace Yields

variable {P : α → Prop} {Q : β → Prop} {p : Parser α}

lemma gives (h : p.Yields P) (st : ParserState) : p.Gives st fun a _ => P a := h st

lemma mono {P' : α → Prop} (h : p.Yields P) (hP : ∀ a, P a → P' a) : p.Yields P' :=
  fun st => hP _ (h st)

lemma pure {a : α} (h : P a) : (Pure.pure a : Parser α).Yields P := fun _ => h

/-- Only the last step matters. -/
lemma bind {f : α → Parser β} (h : ∀ a, (f a).Yields Q) : (p >>= f).Yields Q :=
  fun st => h (p.run st).1 (p.run st).2

lemma bind_of {f : α → Parser β} (hp : p.Yields P) (h : ∀ a, P a → (f a).Yields Q) :
    (p >>= f).Yields Q :=
  fun st => h _ (hp st) (p.run st).2

lemma pure_bind {a : α} {f : α → Parser β} (h : (f a).Yields Q) :
    ((Pure.pure a : Parser α) >>= f).Yields Q := h

lemma finish {pos : Nat} {form : Form Node} {P : Node → Prop}
    (h : ∀ origin stop, P ⟨origin, stop, form⟩) : (Parser.finish pos form).Yields P :=
  fun _ => h _ _

lemma ite {c : Prop} [Decidable c] {q : Parser α} (hp : p.Yields P) (hq : q.Yields P) :
    (if c then p else q).Yields P := by
  split
  · exact hp
  · exact hq

/-- What every round of a loop keeps is kept by the loop. -/
lemma repeatFrom {step : α → Parser (ForInStep α)}
    (hstep : ∀ a, P a → (step a).Yields fun r => P r.value) {a : α} (h : P a) :
    (Parser.repeatFrom a step).Yields P :=
  bind fun _ _ => gives_iterate_keeping (I := fun a _ => P a) (fun _ _ h => h)
    (fun a st ha => hstep a ha st) _ a h

/-- What there is has a property. -/
lemma option {P : Node → Prop} {p : Parser Node} (h : p.Yields P) :
    Parser.Yields (do return some (← p)) fun o => ∀ n ∈ o, P n := by
  refine bind_of h fun n hn => pure ?_
  rintro m ⟨⟩
  exact hn

lemma nested {P : Node → Prop} {p : Parser (Option Node)} (h : p.Yields fun o => ∀ n ∈ o, P n) :
    (nested p).Yields fun o => ∀ n ∈ o, P n := by
  have hrefuse : refuse.Yields fun o => ∀ n ∈ o, P n :=
    bind fun _ => bind fun _ => ite (bind fun _ => pure nofun) (pure nofun)
  intro st
  exact Gives.nested (Q := fun o _ => ∀ n ∈ o, P n) (fun _ => h.gives _) fun _ => hrefuse.gives st

lemma foreign {p : Parser Node} (h : p.Yields Node.IsForeignOperand) :
    p.Yields Node.IsForeign := h.mono fun _ hn => hn.foreign

lemma tight {p : Parser Node} (h : p.Yields Node.IsForeignOperand) : p.Yields Node.IsTight :=
  h.mono fun _ hn => hn.tight

end Yields

/-! ## Operands that are no evaluable expressions -/

section

variable (rules : Rules) (start : Nat) (object : Node)

lemma yields_template : (template rules).Yields Node.IsForeignOperand :=
  .bind fun _ => .bind fun _ => .bind fun _ => .finish fun _ _ => ⟨.of_form rfl, rfl⟩

lemma yields_taggedTemplate (typeArguments : Option (Sequence Node)) (chained : Bool) :
    (taggedTemplate rules start object typeArguments chained).Yields Node.IsForeignOperand := by
  refine .bind fun b => ?_
  split
  all_goals exact .bind fun _ => .finish fun _ _ => ⟨.of_form rfl, rfl⟩

/-- What has type arguments, be it a call or a template, is no evaluable expression. -/
lemma gives_callRest_typed (chained : Bool) (hkind : st.kind = .lessThan) :
    (callRest rules start object chained).Gives st fun n _ => n.IsForeign := by
  refine Gives.bind (P := fun typeArguments _ => typeArguments.isSome = true) (.at?_eq hkind ?_) ?_
  · exact rfl
  intro typeArguments st₁ htyped
  obtain ⟨typeArguments, rfl⟩ := Option.isSome_iff_exists.mp htyped
  refine .after fun k st₂ => Yields.gives ?_ st₂
  split
  · exact (yields_taggedTemplate rules start object _ _).foreign
  · exact (yields_taggedTemplate rules start object _ _).foreign
  · exact .bind fun _ => .finish fun _ _ => .of_form rfl

lemma yields_objectLiteral : (objectLiteral rules).Yields Node.IsForeignOperand :=
  .bind fun _ => .bind fun _ => .bind fun _ => .finish fun _ _ => ⟨.of_form rfl, rfl⟩

lemma yields_functionExpression :
    (functionExpression rules).Yields Node.IsForeignOperand := by
  refine .bind fun _ => .bind fun _ => .bind fun _ => .bind fun _ => .bind fun b => ?_
  split
  all_goals
    exact .bind fun _ => .bind fun _ => .bind fun _ => .finish fun _ _ => ⟨.of_form rfl, rfl⟩

lemma yields_classExpression : (classExpression rules).Yields Node.IsForeignOperand :=
  .bind fun _ => .bind fun _ => .bind fun _ => .bind fun _ => .finish fun _ _ => ⟨.of_form rfl, rfl⟩

lemma yields_keywordUnary (operator : KeywordOperator) :
    (keywordUnary rules operator).Yields Node.IsForeignOperand :=
  .bind fun _ => .bind fun _ => .bind fun _ => .finish fun _ _ => ⟨.of_form rfl, rfl⟩

lemma yields_typeAssertion : (typeAssertion rules).Yields Node.IsForeignOperand :=
  .bind fun _ => .bind fun _ => .bind fun _ => .bind fun _ => .bind fun _ =>
    .finish fun _ _ => ⟨.of_form rfl, rfl⟩

end

/-! ## Operands for every operator -/

/-- If there is a node, it is an operand for every operator. -/
def TightIfAny (o : Option Node) : Prop := ∀ n ∈ o, n.IsTight

lemma tight_tokenNode : tokenNode.Yields Node.IsTight :=
  .bind fun _ => .bind fun _ => .bind fun _ => .finish fun _ _ => rfl

lemma tight_nameNode {form : List Char → Form Node} (h : ∀ text, (form text).isTight = true) :
    (nameNode form).Yields Node.IsTight :=
  .bind fun _ => .bind fun _ => .bind fun _ => .finish fun _ _ => h _

lemma tight_literalNode : literalNode.Yields Node.IsTight := by
  have hform (names : Array (List Char)) (n : Nat) (k : TokenKind) (text : List Char) :
      (literalForm names n k text).isTight = true := by
    unfold literalForm
    split
    · rfl
    split <;> rfl
  exact fun _ => hform _ _ _ _

section

variable (rules : Rules) (start : Nat) (object : Node)

lemma tight_elementAccess (chained : Bool) :
    (elementAccess rules start object chained).Yields Node.IsTight := by
  refine .bind fun _ => .bind fun index => ?_
  split
  · exact .bind fun _ => .bind fun _ => .finish fun _ _ => rfl
  · exact .bind fun _ => .finish fun _ _ => rfl

lemma tight_callRest (chained : Bool) :
    (callRest rules start object chained).Yields Node.IsTight := by
  refine .bind fun typeArguments => .bind fun k => ?_
  split
  · exact (yields_taggedTemplate rules start object _ _).tight
  · exact (yields_taggedTemplate rules start object _ _).tight
  · exact .bind fun _ => .finish fun _ _ => rfl

lemma tight_arrayLiteral : (arrayLiteral rules).Yields Node.IsTight :=
  .bind fun _ => .bind fun _ => .bind fun _ => .finish fun _ _ => rfl

lemma tight_chainRest : (chainRest rules start object).Yields Node.IsTight := by
  have hrest (isCall : Bool) : Parser.Yields (if isCall then callRest rules start object true
      else do
        if ← at? .openBracket then elementAccess rules start object true
        else
          let name ← memberName
          finish start (.propertyAccess object true name)) Node.IsTight := by
    refine .ite (tight_callRest rules start object true) (.bind fun b => .ite ?_ ?_)
    · exact tight_elementAccess rules start object true
    · exact .bind fun _ => .finish fun _ _ => rfl
  refine .bind fun k => ?_
  split
  · exact .pure_bind (hrest true)
  · exact .bind hrest
  · exact .pure_bind (hrest false)

/-- `new` makes an object, unless a point stands behind it. -/
lemma gives_newExpression_or {P : Node → Prop} (hobject : ∀ n, n.IsForeignOperand → P n)
    (htarget : ∀ n keyword name, n.form = .propertyAccess keyword false name →
      keyword.form = .token st.kind → P n) :
    (newExpression rules).Gives st fun n _ => P n := by
  have hclose (start : Nat) (callee : Option Node) (typeArguments : Option (Sequence Node)) :
      Parser.Yields (do
        let arguments ← if ← at? .openParen then some <$> arguments rules else pure none
        finish start (.new callee typeArguments arguments)) P :=
    .bind fun b => by
      split
      all_goals exact .bind fun _ => .finish fun _ _ => hobject _ ⟨.of_form rfl, rfl⟩
  have hrest (start : Nat) (callee : Option Node) : Parser.Yields (do
      let typeArguments ← if ← at? .lessThan then
          if ← opensTypeArguments then some <$> typeArguments rules else pure none
        else pure none
      let arguments ← if ← at? .openParen then some <$> arguments rules else pure none
      finish start (.new callee typeArguments arguments)) P := by
    refine .bind fun b => .ite (.bind fun b => .ite (.bind fun _ => hclose _ _ _) ?_) ?_
    all_goals exact .pure_bind (hclose _ _ _)
  refine .pos ((gives_nextIs_returns _ st).bind fun isMeta st₁ h => .ite ?_ ?_)
  · rw [← show st₁.kind = st.kind from h.2.current] at htarget
    have hkeyword : tokenNode.Gives st₁ fun keyword _ => keyword.form = .token st₁.kind := rfl
    refine hkeyword.bind fun keyword st₂ hkeyword => ?_
    exact .after fun _ _ => .after fun _ _ => gives_finish (htarget _ _ _ rfl hkeyword)
  · refine .after fun _ _ => .after fun start _ => .after fun k st₂ => ?_
    refine Yields.gives ?_ st₂
    split
    all_goals
      refine .bind fun callee => ?_
      cases callee with
      | none => exact .pure_bind (hrest _ none)
      | some callee => exact .bind fun callee => hrest _ callee

lemma tight_newExpression : (newExpression rules).Yields Node.IsTight := fun _ =>
  gives_newExpression_or rules (fun _ h => h.tight) fun _ _ _ hform _ => by
    rw [Node.IsTight, hform]
    rfl

end

variable {rules : Rules}

lemma tight_memberStep (start : Nat) (calls : Bool) (object : Node) (h : object.IsTight) :
    (memberStep rules start calls object).Yields fun r => Node.IsTight r.value := by
  have hdone : Parser.Yields (return ForInStep.done object : Parser (ForInStep Node))
      fun r => Node.IsTight r.value := .pure h
  have hyield {p : Parser Node} (hp : p.Yields Node.IsTight) :
      Parser.Yields (do return ForInStep.yield (← p)) fun r => Node.IsTight r.value :=
    hp.bind_of fun n hn => .pure hn
  have hproperty (chained : Bool) (name : Option Node) :
      (finish start (.propertyAccess object chained name)).Yields Node.IsTight :=
    .finish fun _ _ => rfl
  refine .bind fun k => ?_
  split
  case h_1 => exact .bind fun _ => .bind fun name => hyield (hproperty false name)
  case h_2 =>
    exact .ite hdone (.bind fun _ => hyield (tight_chainRest rules start object))
  case h_3 => exact hyield (tight_elementAccess rules start object false)
  case h_4 =>
    exact .bind fun _ => .ite hdone (.bind fun _ => hyield (.finish fun _ _ => rfl))
  case h_5 | h_6 => exact hyield (yields_taggedTemplate rules start object none false).tight
  case h_7 => exact .ite hdone (hyield (tight_callRest rules start object false))
  case h_8 =>
    refine .ite hdone (.bind fun _ => .ite hdone ?_)
    exact hyield (tight_callRest rules start object false)
  case h_9 => exact hdone

lemma tight_memberRest (start : Nat) (calls : Bool) {object : Node} (h : object.IsTight) :
    (memberRest rules start calls object).Yields Node.IsTight :=
  .repeatFrom (tight_memberStep start calls) h

lemma tight_primaryRest (k : TokenKind) : (primaryRest k).Yields TightIfAny := by
  unfold primaryRest
  split
  case h_11 | h_12 => exact .bind fun _ => tight_literalNode.option
  case h_13 => exact (tight_nameNode fun _ => rfl).option
  case h_14 =>
    refine .bind fun _ => .ite (tight_nameNode fun _ => rfl).option ?_
    exact .bind fun _ => .pure nofun
  all_goals first | exact tight_literalNode.option | exact tight_tokenNode.option

lemma tight_primary : (primary rules).Yields TightIfAny := by
  refine .bind fun k => ?_
  split
  case h_1 => exact (yields_template rules).tight.option
  case h_2 => exact (tight_newExpression rules).option
  case h_3 =>
    refine Yields.option (P := Node.IsTight) ?_
    exact .bind fun _ => .bind fun _ => .bind fun _ => .bind fun _ => .finish fun _ _ => rfl
  case h_4 => exact (tight_arrayLiteral rules).option
  case h_5 => exact (yields_objectLiteral rules).tight.option
  case h_6 => exact (yields_functionExpression rules).tight.option
  case h_7 =>
    exact .bind fun _ => .ite (yields_functionExpression rules).tight.option (tight_primaryRest _)
  case h_8 | h_9 => exact (yields_classExpression rules).tight.option
  case h_10 => exact tight_primaryRest _

lemma tight_leftHandSide (hprimary : (rules .primary).Yields TightIfAny) :
    (leftHandSide rules).Yields TightIfAny := by
  refine .bind fun start => .bind fun k => ?_
  split
  case' h_1 | h_2 => refine tight_tokenNode.option.bind_of fun first h => ?_
  case' h_3 => refine hprimary.bind_of fun first h => ?_
  all_goals
    cases first with
    | none => exact .pure nofun
    | some first => exact (tight_memberRest start true (h first rfl)).option

lemma tight_update (hleft : (rules .leftHandSide).Yields TightIfAny) :
    (update rules).Yields TightIfAny := by
  refine .bind fun start => hleft.bind_of fun operand h => ?_
  cases operand with
  | none => exact .pure nofun
  | some operand =>
    have hbehind (k : TokenKind) : Parser.Yields (do
        advance
        return some (← finish start (.postfixUnary operand k))) TightIfAny :=
      .bind fun _ => Yields.option (P := Node.IsTight) (.finish fun _ _ => rfl)
    exact .bind fun k => .bind fun _ => .ite (hbehind k) (.pure h)

lemma tight_unary (hleft : (rules .leftHandSide).Yields TightIfAny) :
    (unary rules).Yields TightIfAny := by
  have hsign (k : TokenKind) (operand : Parser (Option Node)) :
      (signUnary k operand).Yields Node.IsTight :=
    .bind fun _ => .bind fun _ => .bind fun _ => .finish fun _ _ => rfl
  have hword (operator : KeywordOperator) := (yields_keywordUnary rules operator).tight
  have hupdate := tight_update hleft
  refine .bind fun k => ?_
  split
  case h_7 | h_8 | h_9 => exact (hword _).option
  case h_10 => exact .bind fun _ => .ite (hword .await).option hupdate
  case h_11 => exact (yields_typeAssertion rules).tight.option
  case h_12 => exact hupdate
  all_goals exact (hsign _ _).option

end Parser
end InlineValues

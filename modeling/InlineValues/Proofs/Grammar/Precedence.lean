import InlineValues.Grammar.SourceFile
import InlineValues.Proofs.Grammar.Results

/-!
# Operands by their precedences

On every text and from every state a chain of operators that is read at a precedence binds at that
precedence, and it ends where no operator continues it (`ParserState.EndsChain`), for whatever
reason it ends, unless the bound on its rounds was reached.  All grammars have this (`Rules.Ranked`,
`ranked_grammar`), whether their trees lie on the text or not.

Which operator a chain sees is a function of the state (`ParserState.operator?`).  A `>` that was
extended once is not extended further, so that a chain and the chains around it see the same
operator in turn.
-/

namespace InlineValues

/-! ## Where a chain of operators ends -/

namespace ParserState

variable {st st' : ParserState} {precedence : Nat}

/-- The state after a `>` was extended by the characters behind it. -/
def extended (st : ParserState) : ParserState :=
  { st with
    lexer := st.lexer.rescanGreater
    current := st.lexer.rescanGreater.token.kind }

/-- Something keeps the current token from being an operator: an `in` would end the head of a loop,
and the words in front of a type stand on the line of their operand. -/
def isBarred (st : ParserState) : Bool :=
  (st.kind == .inKeyword && st.context.disallowIn) ||
    ((st.kind == .asKeyword || st.kind == .satisfiesKeyword) && st.lexer.token.afterLineBreak)

/-- The token that may continue an operand. -/
def operator? (st : ParserState) : Option TokenKind :=
  if st.extended.isBarred then none else some st.extended.kind

/-- No operator continues an operand that is read at a precedence. -/
def EndsChain (st : ParserState) (precedence : Nat) : Prop :=
  ∀ k, st.operator? = some k → k.continues precedence = false

lemma operator?_eq_some {k : TokenKind} :
    st.operator? = some k ↔ st.extended.isBarred = false ∧ st.extended.kind = k := by
  simp [operator?]

/-- Which operator is seen depends on the token and on the context. -/
lemma operator?_congr (htoken : st'.extended.lexer.token = st.extended.lexer.token)
    (hcontext : st'.context = st.context) : st'.operator? = st.operator? := by
  have hsame : st'.extended.context = st.extended.context := hcontext
  have hkind : st'.extended.kind = st.extended.kind := congrArg Token.kind htoken
  rw [operator?, operator?, isBarred, isBarred, hkind, htoken, hsame]

lemma operator?_extended (st : ParserState) : st.extended.operator? = st.operator? :=
  operator?_congr (Lexer.rescanGreater_idem st.lexer).token rfl

lemma EndsChain.congr (h : st.EndsChain precedence) (hoperator : st'.operator? = st.operator?) :
    st'.EndsChain precedence := by
  intro k hk
  rw [hoperator] at hk
  exact h k hk

/-- No operator goes on with the right operand of a node, if it is an operation that has one. -/
def Ended (st : ParserState) (n : Node) : Prop :=
  ∀ left operator right, n.form = .binary left operator (some right) →
    st.EndsChain operator.precedence

lemma Ended.of_isBinary {n : Node} (h : n.form.isBinary = false) : st.Ended n := by
  intro left operator right hform
  rw [hform] at h
  cases h

lemma Ended.congr {n : Node} (h : st.Ended n) (hoperator : st'.operator? = st.operator?) :
    st'.Ended n :=
  fun left operator right hform => (h left operator right hform).congr hoperator

end ParserState

namespace Parser

open ParserState

variable {α : Type} {st : ParserState} {rules : Rules}

/-! ## Looking for an operator -/

/-- What is known where an operator that continues an operand was looked for. -/
structure FindsOperator (precedence : Nat) (st : ParserState) (o : Option TokenKind)
    (st' : ParserState) : Prop where
  state : st' = st.extended
  none : o = none → st.EndsChain precedence
  some : ∀ k, o = some k → st.operator? = some k ∧ k.continues precedence = true

namespace FindsOperator

variable {precedence : Nat} {st st' : ParserState} {o : Option TokenKind} {k : TokenKind}

/-- Looking for an operator does not change which one is seen. -/
theorem operator? (h : FindsOperator precedence st o st') : st'.operator? = st.operator? := by
  rw [h.state, operator?_extended]

lemma kind (h : FindsOperator precedence st (Option.some k) st') : st'.kind = k := by
  rw [h.state]
  exact (operator?_eq_some.mp (h.some k rfl).1).2

end FindsOperator

instance (precedence : Nat) : (operatorAt? precedence).Frames := by
  unfold operatorAt?
  infer_instance

/-- For whatever reason no operator is found, none is seen that continues the operand. -/
lemma finds_operatorAt? (precedence : Nat) (st : ParserState) :
    (operatorAt? precedence).Gives st (FindsOperator precedence st) := by
  have hbarred (h : st.extended.isBarred = true) : st.EndsChain precedence := by
    intro k hk
    rw [(operator?_eq_some.mp hk).1] at h
    cases h
  refine Gives.bind (P := fun k st' => st' = st.extended ∧ k = st.extended.kind) ⟨rfl, rfl⟩ ?_
  rintro k st₁ ⟨rfl, rfl⟩
  split
  case isTrue hcontinues =>
    refine .pure ⟨rfl, fun _ k hk => ?_, nofun⟩
    rw [(operator?_eq_some.mp hk).2] at hcontinues
    simpa using hcontinues
  case isFalse hcontinues =>
    refine .get ?_
    split
    case isTrue hin =>
      exact .pure ⟨rfl, fun _ => hbarred (by rw [isBarred, hin, Bool.true_or]), nofun⟩
    case isFalse hin =>
      refine .afterLineBreak_eq rfl ?_
      split
      case isTrue hword =>
        exact .pure ⟨rfl, fun _ => hbarred (by rw [isBarred, hword, Bool.or_true]), nofun⟩
      case isFalse hword =>
        have hfree : st.extended.isBarred = false :=
          Bool.or_eq_false_iff.mpr ⟨Bool.eq_false_iff.mpr hin, Bool.eq_false_iff.mpr hword⟩
        refine .pure ⟨rfl, nofun, fun k hk => ?_⟩
        cases hk
        exact ⟨operator?_eq_some.mpr ⟨hfree, rfl⟩, by simpa using hcontinues⟩

/-! ## Chains of operators -/

/-- A loop ends where its last round ended, unless the bound on its rounds was reached.  What each
round keeps is a property of the result. -/
lemma gives_iterate_until {I : α → Prop} {J : ParserState → Prop}
    {step : α → Parser (ForInStep α)}
    (hround : ∀ a st, I a → (step a).Gives st fun r st' =>
      I r.value ∧ ∀ a', r = .done a' → J st') (fuel : Nat) (a : α) (h : I a) :
    (iterate step fuel a).Gives st fun a' st' => I a' ∧ (st'.stalled = false → J st') := by
  induction fuel generalizing a st with
  | zero => exact .modify_bind ⟨h, nofun⟩
  | succ fuel ih =>
    refine .pos ((hround a st h).bind fun r st₁ hr => ?_)
    obtain ⟨hkeeps, hdone⟩ := hr
    cases r with
    | done a' => exact ⟨hkeeps, fun _ => hdone a' rfl⟩
    | yield a' =>
      refine .pos (.when_bind (P := fun _ => True) (fun _ => trivial) (fun _ => trivial) ?_)
      intro st₂ _
      exact ih a' hkeeps

/-- An operation that is made from an operand binds as its operator does. -/
lemma gives_binaryStep_binds (precedence start : Nat) (left : Node)
    (h : left.form.Binds precedence) :
    (binaryStep rules precedence start left).Gives st fun r st' =>
      r.value.form.Binds precedence ∧ ∀ n, r = .done n → st'.EndsChain precedence := by
  refine (finds_operatorAt? precedence st).bind fun o st₁ h₁ => ?_
  cases o with
  | none => exact .pure ⟨h, fun _ _ => (h₁.none rfl).congr h₁.operator?⟩
  | some k =>
    obtain ⟨-, hcontinues⟩ := h₁.some k rfl
    have hclose (form : Form Node) (hform : form.Binds precedence) (st' : ParserState) :
        Gives (do return ForInStep.yield (← finish start form)) st' fun r st₂ =>
          (ForInStep.value r).form.Binds precedence ∧ ∀ n, r = .done n → st₂.EndsChain precedence :=
      ⟨hform, nofun⟩
    refine .advance ?_
    split
    case isTrue has =>
      rw [eq_of_beq has] at hcontinues
      exact .after fun type => hclose _ (.of_continues rfl rfl hcontinues)
    case isFalse =>
      split
      case isTrue hsatisfies =>
        rw [eq_of_beq hsatisfies] at hcontinues
        exact .after fun type => hclose _ (.of_continues rfl rfl hcontinues)
      case isFalse =>
        have hloose := TokenKind.not_loose_of_precedence (TokenKind.continues_iff.mp hcontinues).1
        exact .after fun right => hclose _ (.of_continues rfl hloose hcontinues)

/-- A chain ends with an operand, unless the bound on its rounds was reached. -/
lemma binds_binary (h : (rules .unary).Yields TightIfAny) (precedence : Nat) :
    (binary rules precedence).Gives st fun o st' =>
      ∀ n ∈ o, n.form.Binds precedence ∧ (st'.stalled = false → st'.EndsChain precedence) := by
  refine .pos ((h.gives st).bind fun first st₁ hfirst => ?_)
  cases first with
  | none => exact nofun
  | some first =>
    refine Gives.bind (.get (gives_iterate_until (I := fun n => n.form.Binds precedence)
      (J := fun st' => st'.EndsChain precedence) (fun left st₂ hleft => ?_) _ first ?_)) ?_
    · exact gives_binaryStep_binds precedence _ left hleft
    · exact .of_isTight (hfirst first rfl) precedence
    · rintro n st₂ h₂ m ⟨⟩
      exact h₂

end Parser

/-! ## Grammars -/

/-- A grammar whose symbols of expressions give operands by their precedences. -/
structure Rules.Ranked (rules : Rules) : Prop where
  unary : (rules .unary).Yields Parser.TightIfAny
  leftHandSide : (rules .leftHandSide).Yields Parser.TightIfAny
  primary : (rules .primary).Yields Parser.TightIfAny
  binary : ∀ precedence st, (rules (.binary precedence)).Gives st fun o st' =>
    ∀ n ∈ o, n.form.Binds precedence ∧ (st'.stalled = false → st'.EndsChain precedence)

namespace Parser

lemma ranked_production {rules : Rules} (h : rules.Ranked) : (production rules).Ranked where
  unary := (tight_unary h.leftHandSide).nested
  leftHandSide := tight_leftHandSide h.primary
  primary := tight_primary
  binary precedence _ := binds_binary h.unary precedence

/-- Down to every depth. -/
theorem ranked_grammar (fuel : Nat) : (grammar fuel).Ranked := by
  induction fuel with
  | zero =>
    have hnone : Parser.Yields (do stall; return none : Parser (Option Node)) TightIfAny :=
      .bind fun _ => .pure nofun
    exact ⟨hnone, hnone, hnone, fun _ _ => nofun⟩
  | succ fuel ih => exact ranked_production ih

end Parser
end InlineValues

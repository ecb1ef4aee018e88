import InlineValues.Grammar.Assignment
import InlineValues.Proofs.Grammar.Expression
import InlineValues.Proofs.Grammar.Precedence

/-!
# Reading operators, arrow functions and assignments

None of these is empty: an operator was seen before it is taken, and everything else starts with an
operand.  An arrow function has its arrow behind a lone name, and otherwise what opens its
parameters.
-/

namespace InlineValues
namespace Parser

open ParserState

variable {s : Source} {w : Nat} {st st₀ : ParserState} {rules : Rules}

/-! ## Unary operators -/

lemma gives_signUnary {operator : TokenKind} {operand : Parser (Option Node)}
    (hoperand : operand.Fills s w)
    (hrecalls : ∀ st : ParserState, st.Sound s w → operand.Gives st fun o st' =>
      st'.Quiet → (Form.prefixUnary operator o).Recalls s)
    (hs : st.Sound s w) (hkind : st.kind ≠ .endOfFile) :
    (signUnary operator operand).Gives st fun n st' => st.FillsTo s w st' (some n) := by
  refine .pos ((gives_advance hs).bind fun _ st₁ h₁ => ?_)
  refine ((hoperand st₁ h₁.sound).and (hrecalls st₁ h₁.sound)).bind fun operand st₂ h => ?_
  obtain ⟨h₂, hshown⟩ := h
  have hall := (h₁.toReads.spent (h₁.lt hkind)).after h₂.reads.toCovers
  refine hall.evaluatedFills rfl (fun c hc => ?_) hshown
  cases operator
  case plusPlus | minusMinus => exact h₂.proper c (Option.mem_toList.mp hc)
  all_goals cases hc

lemma peeks_awaitIsOperator : awaitIsOperator.Peeks s w := by
  intro st hs
  refine .get (.ite (.refl st) ?_)
  exact peeks_nextKindOnSameLine followsAwait st hs

instance : awaitIsOperator.Frames := by
  unfold awaitIsOperator
  infer_instance

section

variable (hr : rules.Sound s w)
include hr

lemma gives_keywordUnary (operator : KeywordOperator) (hs : st.Sound s w)
    (hkind : st.kind ≠ .endOfFile) :
    (keywordUnary rules operator).Gives st fun n st' => st.FillsTo s w st' (some n) := by
  refine .pos ((gives_advance hs).bind fun _ st₁ h₁ => ?_)
  refine (hr.reads .unary rfl st₁ h₁.sound).bind fun operand st₂ h₂ => ?_
  exact ((h₁.toReads.spent (h₁.lt hkind)).after h₂.toCovers).filledNode rfl rfl

lemma gives_typeAssertion (hs : st.Sound s w) (hkind : st.kind = .lessThan) :
    (typeAssertion rules).Gives st fun n st' => st.FillsTo s w st' (some n) := by
  refine .pos ((gives_expect .lessThan hs).bind fun _ st₁ h₁ => ?_)
  refine (reads_type hr st₁ h₁.reads.sound).bind fun type st₂ h₂ => ?_
  refine (skips_expect .greaterThan st₂ h₂.sound).bind fun _ st₃ h₃ => ?_
  refine (hr.reads .unary rfl st₃ h₃.sound).bind fun operand st₄ h₄ => ?_
  have hopen := h₁.reads.spent (h₁.lt hkind (by simp))
  exact (((hopen.after h₂.toCovers).skip h₃).trans h₄).filledNode rfl rfl

end

section

variable (hr : rules.Complete s w)
include hr

/-- An operand that a sign changes is shown as it was read. -/
lemma shows_leftHandSide (hs : st.Sound s w) :
    (rules .leftHandSide).Gives st fun o st' => st.ShowsTo s w st' o := by
  obtain ⟨fuel, hfuel, hrules⟩ := hr.deepAll
  exact (hr.fillsAll .leftHandSide rfl).shows hs (Nat.le_refl w) hfuel (hrules _ (by simp))
    fun _ => .leftHandSide

/-- So is a chain of operators that is assigned to. -/
lemma shows_binary (hs : st.Sound s w) :
    (rules (.binary 0)).Gives st fun o st' => st.ShowsTo s w st' o := by
  obtain ⟨fuel, hfuel, hrules⟩ := hr.deepAll
  exact (hr.fillsAll (.binary 0) rfl).shows hs (Nat.le_refl w) hfuel (hrules _ (by simp))
    fun _ => .chain

lemma fills_update : (update rules).Fills s w := by
  intro st hs
  refine .pos ((shows_leftHandSide hr hs).bind fun operand st₁ h₁ => ?_)
  cases operand with
  | none => exact h₁.toFillsTo
  | some operand =>
    refine .kind (.afterLineBreak fun b => .ite ?_ h₁.toFillsTo)
    refine (skips_advance st₁ h₁.reads.sound).bind fun _ st₂ h₂ => .finish (.pure ?_)
    exact (h₁.skip h₂).reads.evaluatedFills rfl rfl rfl (forall_mem_toList h₁.proper)
      (h₁.skip h₂).shown (h₁.skip h₂).lt_here

lemma fills_unary : (unary rules).Fills s w := by
  intro st hs
  have hsign (x : Nonterminal) (hx : x.isProper = true) (hkind : st.kind ≠ .endOfFile)
      (hrecalls : ∀ st' : ParserState, st'.Sound s w → (rules x).Gives st' fun o st'' =>
        st''.Quiet → (Form.prefixUnary st.kind o).Recalls s) :
      Gives (do return some (← signUnary st.kind (rules x))) st
        fun o st' => st.FillsTo s w st' o :=
    (gives_signUnary (hr.fillsAll x hx) hrecalls hs hkind).bind fun n st₁ h₁ => h₁
  have hword (operator : KeywordOperator) (hkind : st.kind ≠ .endOfFile) :
      Gives (do return some (← keywordUnary rules operator)) st
        fun o st' => st.FillsTo s w st' o :=
    (gives_keywordUnary hr.toSound operator hs hkind).bind fun n st₁ h₁ => h₁
  refine .kind ?_
  split
  case h_1 hk | h_2 hk =>
    refine hsign .leftHandSide rfl (by simp [hk]) fun st' hs' => ?_
    rw [hk]
    exact (shows_leftHandSide hr hs').mono fun _ _ h => h.shown
  case h_3 hk | h_4 hk | h_5 hk | h_6 hk =>
    refine hsign .unary rfl (by simp [hk]) fun _ _ _ => .of_shown ?_
    rw [hk]
    rfl
  case h_7 hk => exact hword .delete (by simp [hk])
  case h_8 hk => exact hword .typeOf (by simp [hk])
  case h_9 hk => exact hword .void (by simp [hk])
  case h_10 hk =>
    refine (peeks_awaitIsOperator st hs).bind fun b st₁ h₁ => ?_
    have hread := h₁.reads hs
    refine .ite ?_ ?_
    · have hne : st₁.kind ≠ .endOfFile := by simp [h₁.kind, hk]
      exact (gives_keywordUnary hr.toSound .await hread.sound hne).bind fun n st₂ h₂ =>
        hread.after_fills h₂
    · exact (fills_update hr st₁ hread.sound).mono fun o st₂ h₂ => hread.after_fills h₂
  case h_11 hk => exact (gives_typeAssertion hr.toSound hs hk).bind fun n st₁ h₁ => h₁
  case h_12 => exact fills_update hr st hs

end

/-! ## Binary operators -/

/-- The end of the file is no operator. -/
lemma gives_operatorAt? (precedence : Nat) (hs : st.Sound s w) :
    (operatorAt? precedence).Gives st fun o st' =>
      st.Reads s w st' [] ∧ (∀ k ∈ o, st'.kind ≠ .endOfFile) := by
  have hextended : (rescan Lexer.rescanGreater).Gives st fun _ st' => st.Reads s w st' [] :=
    (gives_rescan hs hs.lexer.rescanGreater (Lexer.adds_rescanGreater _)
      (Lexer.fullStart_rescanGreater _)).mono fun _ _ h => h.1
  refine (finds_operatorAt? precedence st).mono fun o st' h => ⟨?_, ?_⟩
  · rw [h.state]
    exact hextended
  · rintro k rfl hend
    obtain ⟨-, hcontinues⟩ := h.some k rfl
    rw [← h.kind, hend] at hcontinues
    cases hcontinues

/-- What is known of the operand that a chain has read so far: it binds at the precedence of the
chain, and what it ends with goes no further. -/
structure Chains (s : Source) (w precedence : Nat) (st₀ : ParserState) (n : Node)
    (st : ParserState) : Prop extends st₀.FillsTo s w st (some n) where
  binds : n.form.Binds precedence
  ended : st.Ended n

/-- A chain starts with an operand that is no operation. -/
lemma chains_first (hr : rules.Sound s w) (hranked : rules.Ranked) (precedence : Nat)
    (hs : st.Sound s w) :
    (rules .unary).Gives st fun o st' => ∀ n ∈ o, Chains s w precedence st n st' := by
  refine ((hr.fills .unary rfl rfl st hs).and (hranked.unary.gives st)).mono fun o st₁ h => ?_
  rintro n rfl
  have htight := h.2 n rfl
  exact ⟨h.1, .of_isTight htight precedence, .of_isBinary (Form.isBinary_of_isTight htight)⟩

section

variable (hr : rules.Sound s w)
include hr

/-- A word with a type behind it closes the operand in front of it. -/
lemma gives_typedOperand {st₁ : ParserState} {left : Node} (hlt : st₁.here < st.here)
    (form : Option Node → Form Node)
    (hchildren : ∀ type, (form type).children = left :: type.toList)
    (hmodest : ∀ type, (form type).isModestNode = true)
    (hbinary : ∀ type, (form type).isBinary = false) (h : st₀.FillsTo s w st (some left)) :
    Gives (do
      let type ← rules .type
      return ForInStep.yield (← finish st₀.here (form type))) st
      (Round (fun n st' => st₀.FillsTo s w st' (some n) ∧ st'.Ended n) st₁) := by
  refine (reads_type hr st h.reads.sound).bind fun type st₂ h₂ => ?_
  have hparts : st₀.Reads s w st₂ (form type).children := by
    rw [hchildren]
    exact h.reads.trans h₂
  have hfilled := hparts.filledNode (hmodest type) (Nat.lt_of_lt_of_le h.lt_here h₂.le)
  refine .finish (.yield ⟨hfilled, .of_isBinary (hbinary type)⟩ ?_)
  exact Nat.lt_of_lt_of_le hlt h₂.le

end

section

variable (hr : rules.Sound s w) (hranked : rules.Ranked)
include hr hranked

/-- An operator that goes on with a chain joins what was read so far to its right operand. -/
lemma gives_binaryStep (precedence : Nat) {left : Node} (h : Chains s w precedence st₀ left st) :
    (binaryStep rules precedence st₀.here left).Gives st
      (Round (Chains s w precedence st₀) st) := by
  suffices hround : (binaryStep rules precedence st₀.here left).Gives st
      (Round (fun n st' => st₀.FillsTo s w st' (some n) ∧ st'.Ended n) st) by
    refine (hround.and (gives_binaryStep_binds precedence st₀.here left h.binds)).mono ?_
    rintro r st' ⟨⟨⟨hfills, hended⟩, hlt⟩, hbinds, -⟩
    exact ⟨⟨hfills, hbinds, hended⟩, hlt⟩
  refine ((gives_operatorAt? precedence h.reads.sound).and (finds_operatorAt? precedence st)).bind
    fun operator st₁ h₁ => ?_
  obtain ⟨⟨h₁, hkind⟩, hfinds⟩ := h₁
  have hleft := h.skip h₁
  cases operator with
  | none => exact .done ⟨hleft, h.ended.congr hfinds.operator?⟩
  | some k =>
    obtain ⟨hoperator, hcontinues⟩ := hfinds.some k rfl
    refine (gives_advance h₁.sound).bind fun _ st₂ h₂ => ?_
    have hlt := h₂.lt (hkind k rfl)
    have hmoved : st.here < st₂.here := Nat.lt_of_le_of_lt h₁.le hlt
    replace hleft := hleft.skip h₂.toReads
    refine .ite (gives_typedOperand hr hmoved _ (fun _ => rfl) (fun _ => rfl) (fun _ => rfl) hleft)
      (.ite (gives_typedOperand hr hmoved _ (fun _ => rfl) (fun _ => rfl) (fun _ => rfl) hleft) ?_)
    refine ((hr.reads_behind (x := .binary k.precedence) (by simp) h₁.sound h₂.toCovers hlt).and
      (hranked.binary k.precedence st₂)).bind fun right st₃ h₃ => ?_
    obtain ⟨h₃, hright⟩ := h₃
    have hjoins : k.Joins left right := by
      refine .of_binds (TokenKind.continues_iff.mp hcontinues).1 h.binds.loose
        (fun r hr => (hright r hr).1) fun l k' r hform => ?_
      exact h.ended l k' r hform k hoperator
    refine .finish (.yield ⟨?_, fun l k' r hform => ?_⟩ (Nat.lt_of_lt_of_le hmoved h₃.le))
    · have hassigns : k.isAssignmentOperator = false := (Bool.or_eq_false_iff.mp
        (TokenKind.not_loose_of_precedence (TokenKind.continues_iff.mp hcontinues).1)).1
      exact (hleft.reads.trans h₃).operationFills (h.proper left rfl) (.of_joins hjoins)
        (fun _ => .of_shown (if_neg (by simp [hassigns]))) (Nat.lt_of_lt_of_le hleft.lt_here h₃.le)
    · cases hform
      exact ((hright r rfl).2 h₃.sound.moving).congr (operator?_congr rfl rfl)

lemma fills_binary (precedence : Nat) : (binary rules precedence).Fills s w := by
  intro st hs
  refine .pos (((hr.fills .unary rfl rfl st hs).and
    (chains_first hr hranked precedence hs)).bind fun first st₁ h₁ => ?_)
  obtain ⟨hfirst, hchains⟩ := h₁
  cases first with
  | none => exact hfirst
  | some first =>
    exact (Gives.repeatFrom (fun _ _ h => h.reads.sound) (hchains first rfl)
      fun _ _ => gives_binaryStep hr hranked precedence).bind fun n st₂ h₂ => h₂.toFillsTo

end

section

variable (hr : rules.Sound s w)
include hr

/-! ## Arrow functions -/

lemma gives_arrowBody (isAsync : Bool) (hs : st.Sound s w) :
    (arrowBody rules isAsync).Gives st fun o st' => st.Covers s w st' o.toList := by
  refine .at? fun b _ _ => .ite ?_ ?_
  · exact .map (gives_functionBody hr _ _ hs)
  · exact ((reads_assignment hr).inContext _ st hs).mono fun _ _ h => h.toCovers

/-- A lone parameter stands behind a word or in front of the arrow. -/
lemma gives_nameArrow {st₁ : ParserState} {name : Node} (isAsync : Bool)
    (h : st₀.Reads s w st₁ []) (hname : st₁.FillsTo s w st (some name))
    (hown : st₀.here < st₁.here ∨ st.kind = .equalsGreaterThan) :
    (nameArrow rules st₀.here name isAsync).Gives st fun n st' => st₀.FillsTo s w st' (some n) := by
  refine .nodeAt (.sequence fun parameters hparameters => ?_)
  have hchildren : (Form.parameter ⟨none, false, some name, false, none, none⟩).children = [name] :=
    rfl
  have hparameter := hname.reads.wrap hchildren rfl rfl
    (.of_evaluated rfl rfl rfl (.of_isBinary rfl) (forall_mem_toList hname.proper))
  rw [← hparameters] at hparameter
  refine (gives_expect .equalsGreaterThan hparameter.sound).bind fun _ st₂ h₂ => ?_
  have hspent : st₀.Spends s w st₂ parameters.items := by
    rcases hown with hlt | hkind
    · exact ((h.spent hlt).after hparameter.toCovers).skip h₂.reads
    · exact (h.after hparameter).spend h₂.reads (h₂.lt hkind (by simp))
  refine (gives_arrowBody hr isAsync h₂.reads.sound).bind fun body st₃ h₃ => ?_
  have hall : st₀.Spends s w st₃ (Form.arrowFunction
      { modifiers := none, isAsync, isGenerator := false, name := none, typeParameters := none
        parameters, returnType := none, body }).children := by
    change st₀.Spends s w st₃ ([] ++ [] ++ [] ++ parameters.items ++ [] ++ body.toList)
    simpa using hspent.trans_covers h₃
  exact hall.filledNode rfl rfl

/-- What the parameters of an arrow function open with is no part of them. -/
lemma gives_parametersArrow (hs : st.Sound s w)
    (hkind : st.kind = .asyncKeyword ∨ st.kind = .lessThan ∨ st.kind = .openParen) :
    (parametersArrow rules).Gives st fun n st' => st.FillsTo s w st' (some n) := by
  refine .pos ((gives_optional .asyncKeyword hs).bind fun isAsync st₁ h₁ => ?_)
  refine (gives_signature hr isAsync false h₁.reads.sound).bind fun signature st₂ h₂ => ?_
  have hsignature : st.Spends s w st₂ signature.children := by
    cases isAsync with
    | true => exact (h₁.reads.spent (h₁.lt rfl (by simp))).after h₂.toCovers
    | false =>
      obtain ⟨rfl, hne⟩ := h₁.same rfl
      exact h₂.opened (hkind.resolve_left hne)
  refine (skips_expect .equalsGreaterThan st₂ h₂.sound).bind fun _ st₃ h₃ => ?_
  refine (gives_arrowBody hr isAsync h₃.sound).bind fun body st₄ h₄ => ?_
  have hall : st.Spends s w st₄ (Form.arrowFunction
      { modifiers := none, isAsync, isGenerator := false, name := none, body
        typeParameters := signature.typeParameters
        parameters := signature.parameters
        returnType := signature.returnType }).children := by
    change st.Spends s w st₄ (FunctionParts.children _)
    rw [FunctionParts.children_ofSignature]
    exact (hsignature.skip h₃).trans_covers h₄
  exact hall.filledNode rfl rfl

lemma fills_arrowFunction? : (arrowFunction? rules).Fills s w := by
  intro st hs
  have hbrackets (st₁ : ParserState) (h₁ : st.SamePlace s st₁)
      (hkind : st.kind = .asyncKeyword ∨ st.kind = .lessThan ∨ st.kind = .openParen) :
      Gives (do if ← opensArrow then return some (← parametersArrow rules) else return none) st₁
        fun o st' => st.FillsTo s w st' o := by
    refine (peeks_opensArrow st₁ (h₁.sound hs)).bind fun b st₂ h₂ => ?_
    have hread := (h₁.trans h₂).reads hs
    rw [← (h₁.trans h₂).kind] at hkind
    refine .ite ?_ hread.fillsNone
    exact (gives_parametersArrow hr hread.sound hkind).bind fun n st₃ h₃ => hread.after_fills h₃
  refine .kind ?_
  split
  case h_1 hk => exact hbrackets st (.refl st) (.inr (.inr hk))
  case h_2 hk => exact hbrackets st (.refl st) (.inr (.inl hk))
  case h_3 hk =>
    refine (gives_opensAsyncArrow hs).bind fun b st₁ h => ?_
    obtain ⟨h₁, hword⟩ := h
    split
    case isTrue htrue =>
      refine .pos ((gives_advance (h₁.sound hs)).bind fun _ st₂ h₂ => ?_)
      have hname : st₂.kind.isName = true := by
        rw [ParserState.kind, h₂.sound.current, h₂.token]
        exact isName_of_isWord (hword htrue)
      refine (gives_identifierNode h₂.sound hname).bind fun name st₃ h₃ => ?_
      have hlt : st₁.here < st₂.here := h₂.lt (by simp [h₁.kind, hk])
      have hne : st₂.kind ≠ .endOfFile := by
        rw [ParserState.kind, h₂.sound.current, h₂.token]
        exact isWord_ne_end (hword htrue)
      exact (gives_nameArrow hr true h₂.toReads (h₃.fills hne) (.inl hlt)).bind fun n st₄ h₄ =>
        (h₁.reads hs).after_fills h₄
    case isFalse => exact hbrackets st₁ h₁ (.inl hk)
  case h_4 => exact hs.reads.fillsNone

/-! ## Assignments -/

lemma gives_yieldExpression (hs : st.Sound s w) (hkind : st.kind ≠ .endOfFile) :
    (yieldExpression rules).Gives st fun n st' => st.FillsTo s w st' (some n) := by
  refine .pos ((gives_advance hs).bind fun _ st₁ h₁ => ?_)
  have hword := h₁.toReads.spent (h₁.lt hkind)
  refine .afterLineBreak fun _ => .at? fun _ _ _ => ?_
  refine (spots_atExpression st₁ h₁.sound).bind fun b st₂ h => ?_
  obtain ⟨h₂, _⟩ := h
  have hread := h₂.reads h₁.sound
  refine .ite ((hword.skip hread).filledNode rfl rfl) ?_
  refine (skips_optional .asterisk st₂ hread.sound).bind fun delegates st₃ h₃ => ?_
  refine (reads_assignment hr st₃ h₃.sound).bind fun inner st₄ h₄ => ?_
  exact (((hword.skip hread).skip h₃).trans h₄).filledNode rfl rfl

lemma gives_conditionalRest {condition : Node} (h : st₀.FillsTo s w st (some condition)) :
    (conditionalRest rules st₀.here condition).Gives st
      fun n st' => st₀.FillsTo s w st' (some n) := by
  refine (skips_optional .question st h.reads.sound).bind fun b st₁ h₁ => .ite ?_ (h.skip h₁)
  have hcondition := h.skip h₁
  refine ((reads_assignment hr).inContext _ st₁ h₁.sound).bind fun whenTrue st₂ h₂ => ?_
  refine (skips_expect .colon st₂ h₂.sound).bind fun _ st₃ h₃ => ?_
  refine ((reads_assignment hr).inContext _ st₃ h₃.sound).bind fun whenFalse st₄ h₄ => ?_
  have hbranches := (h₂.skip h₃).trans h₄
  have hall := hcondition.reads.trans hbranches
  exact hall.filledNode rfl (Nat.lt_of_lt_of_le hcondition.lt_here hbranches.le)

lemma gives_assignmentRest {left : Node} (hs : st₀.Sound s w)
    (h : st₀.ShowsTo s w st (some left)) :
    (assignmentRest rules st₀.here left).Gives st fun n st' => st₀.FillsTo s w st' (some n) := by
  have hrest : Gives (if left.form.isAssignable && st.kind.isAssignmentOperator then do
        advance
        let right ← rules .assignment
        finish st₀.here (.binary left st.kind right)
      else conditionalRest rules st₀.here left) st fun n st' => st₀.FillsTo s w st' (some n) := by
    split
    case isTrue hassigns =>
      have hloose : (Form.binary left st.kind (none : Option Node)).isLoose = true := by
        rw [Form.isLoose, (Bool.and_eq_true_iff.mp hassigns).2, Bool.true_or]
      refine (skips_advance st h.reads.sound).bind fun _ st₁ h₁ => ?_
      refine (reads_assignment hr st₁ h₁.sound).bind fun right st₂ h₂ => ?_
      refine ((h.skip h₁).reads.trans h₂).operationFills (h.proper left rfl) (.of_isLoose hloose)
        (fun hquiet e he => ?_) (Nat.lt_of_lt_of_le (h.skip h₁).lt_here h₂.le)
      rw [Form.shown, if_pos (Bool.and_eq_true_iff.mp hassigns).2] at he
      exact (h.skip h₁).shown (h₂.tells.quiet hquiet) e he
    case isFalse => exact gives_conditionalRest hr h.toFillsTo
  refine .kind ?_
  dsimp only
  split
  · split
    case isTrue harrow =>
      have hkind : st.kind = .equalsGreaterThan := eq_of_beq harrow
      exact gives_nameArrow hr false hs.reads h.toFillsTo (.inr hkind)
    case isFalse => exact hrest
  · exact hrest

end

lemma fills_assignment (hr : rules.Complete s w) : (assignment rules).Fills s w := by
  intro st hs
  refine .at? fun b hb _ => .get ?_
  split
  case isTrue hyield =>
    rw [Bool.and_eq_true] at hyield
    have hkind : st.kind ≠ .endOfFile := by simp [hb hyield.1]
    exact (gives_yieldExpression hr.toSound hs hkind).bind fun n st₁ h₁ => h₁
  case isFalse =>
    refine (fills_arrowFunction? hr.toSound st hs).bind fun arrow st₁ h₁ => ?_
    cases arrow with
    | some arrow => exact h₁
    | none =>
      have hread : st.Reads s w st₁ [] := h₁.reads
      refine .pos ((shows_binary hr hread.sound).bind fun left st₂ h₂ => ?_)
      cases left with
      | none => exact hread.after_fills h₂.toFillsTo
      | some left =>
        exact (gives_assignmentRest hr.toSound hread.sound h₂).bind fun n st₃ h₃ =>
          hread.after_fills h₃

end Parser
end InlineValues

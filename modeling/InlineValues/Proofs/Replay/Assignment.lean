import InlineValues.Proofs.Replay.Operator

/-!
# Assignments and conditional expressions that are read again

What is read where an assignment may stand is a chain of operators, perhaps with an assignment
operator or the branches of a conditional expression behind it.  Arrow functions and `yield` are no
evaluable expressions, and where they were not read the first time they are not the second time: in
front of the lexemes of an expression no arrow follows.
-/

namespace InlineValues

/-- Whether an expression can be assigned to does not depend on where its parts stand. -/
lemma Node.Alike.isAssignable {n n' : Node} (h : n.Alike n') :
    n'.form.isAssignable = n.form.isAssignable := by
  have hshape (form : Form Node) :
      (form.shape.map fun _ => n).isAssignable = form.isAssignable := by
    cases form <;> rfl
  rw [← hshape, ← h.form, hshape]

namespace Parser

open ParserState

variable {s : Source} {w d : Nat} {st : ParserState} {rules : Rules}

/-! ## Arrow functions and `yield` -/

lemma yields_nameArrow (rules : Rules) (start : Nat) (name : Node) (isAsync : Bool) :
    (nameArrow rules start name isAsync).Yields Node.IsForeign :=
  .bind fun _ => .bind fun _ => .bind fun _ => .bind fun _ => .finish fun _ _ => .of_form rfl

lemma yields_parametersArrow (rules : Rules) : (parametersArrow rules).Yields Node.IsForeign :=
  .bind fun _ => .bind fun _ => .bind fun _ => .bind fun _ => .bind fun _ =>
    .finish fun _ _ => .of_form rfl

lemma yields_yieldExpression (rules : Rules) :
    (yieldExpression rules).Yields Node.IsForeign := by
  refine .bind fun _ => .bind fun _ => .bind fun _ => .bind fun _ => .bind fun _ => .ite ?_ ?_
  · exact .finish fun _ _ => .of_form rfl
  · exact .bind fun _ => .bind fun _ => .finish fun _ _ => .of_form rfl

/-- An arrow function is no evaluable expression, and without one nothing was read. -/
lemma gives_arrowFunction?_or (hs : st.Sound s w) :
    (arrowFunction? rules).Gives st fun o st' =>
      (∃ n, o = some n ∧ n.IsForeign) ∨ (o = none ∧ st.SamePlace s st') := by
  have hbrackets (st₁ : ParserState) (h₁ : st.SamePlace s st₁) :
      Gives (do if ← opensArrow then return some (← parametersArrow rules) else return none) st₁
        fun o st' => (∃ n, o = some n ∧ n.IsForeign) ∨ (o = none ∧ st.SamePlace s st') := by
    refine (peeks_opensArrow st₁ (h₁.sound hs)).bind fun b st₂ h₂ =>
      .ite ?_ (.inr ⟨rfl, h₁.trans h₂⟩)
    exact ((yields_parametersArrow rules).gives st₂).bind fun n _ hn => .inl ⟨n, rfl, hn⟩
  refine .kind ?_
  split
  case h_1 | h_2 => exact hbrackets st (.refl st)
  case h_3 =>
    refine (gives_opensAsyncArrow hs).bind fun b st₁ h₁ => .ite ?_ (hbrackets st₁ h₁.1)
    refine .pos (.advance (Gives.bind (P := fun _ _ => True) trivial fun name st₂ _ => ?_))
    exact ((yields_nameArrow rules _ name true).gives st₂).bind fun n _ hn => .inl ⟨n, rfl, hn⟩
  case h_4 => exact .inr ⟨rfl, .refl st⟩

/-- In front of the lexemes of an expression there is no arrow function. -/
lemma gives_arrowFunction?_again {n : Node} {ts rest : List Lexeme} (hmade : n.MadeOf s 2 ts)
    (h : Follows d (ts ++ rest) st) :
    (arrowFunction? rules).Gives st fun o st' => o = none ∧ Follows d (ts ++ rest) st' := by
  obtain ⟨t, us, rfl, hgreater, hkind⟩ := hmade.starts_kind
  have hsame : st.kind = t.kind := h.kind_eq hgreater
  rw [← hsame] at hgreater hkind
  refine .kind ?_
  split
  case h_1 hk =>
    refine (gives_opensArrow_calm (h.calm_ahead hgreater) hk).bind fun b st₁ h₁ => ?_
    obtain ⟨rfl, hreturns⟩ := h₁
    exact .pure ⟨rfl, h.returns hreturns⟩
  case h_4 => exact .pure ⟨rfl, h⟩
  all_goals
    rename_i hk
    rw [hk] at hkind
    exact absurd hkind (by decide)

/-! ## What follows the first operand -/

/-- The first operand is read again, and what follows it decides what the expression is. -/
lemma gives_assignment_again {Q : Option Node → ParserState → Prop} {c : Context} {l' : Lexer}
    {left : Node} {ts rest : List Lexeme} {fuel : Nat}
    (hleft : Rereads (Stage.chain.within c) 2 (fun fuel => grammar fuel (.binary 0)) l' left ts)
    (hmade : left.MadeOf s 2 ts) (htail : Lexer.Tail (Stage.chain.within c).ends l' rest)
    (h : Follows d (ts ++ rest) st) (hlevels : d + left.levels ≤ maxParserDepth + 1)
    (hfuel : 4 * (ts.length + rest.length + (maxParserDepth - d)) + 2 ≤ fuel)
    (hrest : ∀ start left' st', left.Alike left' → Follows d rest st' →
      st'.lexer.rescanGreater = st'.lexer →
      (assignmentRest (grammar fuel) start left').Gives st' fun n st'' => Q (some n) st'') :
    (assignment (grammar fuel)).Gives st Q := by
  have hyield : st.kind ≠ .yieldKeyword := by
    obtain ⟨t, us, rfl, hgreater, hkind⟩ := hmade.starts_kind
    rw [← h.kind_eq hgreater] at hkind
    intro hk
    rw [hk] at hkind
    exact absurd hkind (by decide)
  refine .at?_ne hyield (.get ?_)
  rw [Bool.false_and, if_neg (by simp)]
  refine (gives_arrowFunction?_again hmade h).bind fun o st₁ h₁ => ?_
  obtain ⟨rfl, hfollows⟩ := h₁
  refine .pos ((hleft rest st₁ fuel d htail hfollows hlevels hfuel).bind fun o st₂ h₂ => ?_)
  obtain ⟨left', rfl, halike⟩ := h₂.alike
  exact (hrest _ left' st₂ halike h₂.follows (h₂.joined rfl)).bind fun _ _ hQ => hQ

/-- Where no arrow follows, an assignment operator or the branches of a condition may follow. -/
lemma gives_assignmentRest_again {Q : Node → ParserState → Prop} {start : Nat} {left : Node}
    (harrow : st.kind ≠ .equalsGreaterThan)
    (h : Gives (if left.form.isAssignable && st.kind.isAssignmentOperator then do
        advance
        let right ← rules .assignment
        finish start (.binary left st.kind right)
      else conditionalRest rules start left) st Q) :
    (assignmentRest rules start left).Gives st Q := by
  refine .kind ?_
  dsimp only
  split
  · rw [if_neg (by simpa using harrow)]
    exact h
  · exact h

variable {c c' : Context} {l l₁ l₂ l₃ : Lexer} {left right whenTrue whenFalse n : Node}
  {ts us vs : List Lexeme}

/-- A chain is an expression by itself where nothing follows that goes on with it. -/
lemma Rereads.unassigned
    (h : Rereads (Stage.chain.within c) 2 (fun fuel => grammar fuel (.binary 0)) l left ts)
    (hmade : left.MadeOf s 2 ts) :
    Rereads (Stage.expression.deeper.within c) 2 (fun fuel => assignment (grammar fuel)) l left
      ts := by
  intro rest st fuel d htail hfollows hlevels hfuel
  have hends : ∀ k, Stage.expression.ends k = true →
      k = .comma ∨ k = .colon ∨ k = .closeParen ∨ k = .closeBracket := by
    simp [Stage.expression, or_assoc]
  have htail' : Lexer.Tail (Stage.chain.within c).ends l rest := htail.mono fun k hk => by
    obtain ⟨hin, hk⟩ := Stage.ends_within.mp hk
    refine Stage.ends_within.mpr ⟨hin, ?_⟩
    rcases hends k hk with rfl | rfl | rfl | rfl <;> rfl
  refine gives_assignment_again h hmade htail' hfollows hlevels hfuel
    fun start left' st₁ halike hfollows₁ _ => ?_
  have hbehind : st₁.kind ∈ [TokenKind.comma, .colon, .closeParen, .closeBracket, .endOfFile,
      .semicolon, .greaterThan] := by
    rcases hfollows₁.kind_behind htail.head with hk | hk
    · rcases hends _ (Stage.ends_within.mp hk).2 with hk | hk | hk | hk <;> simp [hk]
    · revert hk
      simp
      tauto
  have hplain : ∀ k ∈ [TokenKind.comma, .colon, .closeParen, .closeBracket, .endOfFile, .semicolon,
      .greaterThan],
      k ≠ .equalsGreaterThan ∧ k.isAssignmentOperator = false ∧ k ≠ .question := by
    decide
  obtain ⟨harrow, hassigns, hquestion⟩ := hplain _ hbehind
  refine gives_assignmentRest_again harrow ?_
  rw [if_neg (by simp [hassigns])]
  exact .optional_ne hquestion (.pure (.unjoined rfl ⟨left', rfl, halike⟩ hfollows₁))

/-- An assignment is read again. -/
lemma Replay.assigned {k : TokenKind}
    (hleft : Replay s (Stage.chain.within c) 2 d (fun fuel => grammar fuel (.binary 0)) l l₁ left
      ts)
    (hkind : l₁.token.kind = k) (hassigns : k.isAssignmentOperator = true)
    (hassignable : left.form.isAssignable = true)
    (hright : Replay s (Stage.expression.within c) 1 d (fun fuel => grammar fuel .assignment)
      l₁.scan l₂ right us)
    (hform : n.form = .binary left k (some right)) :
    Replay s (Stage.expression.deeper.within c) 2 d (fun fuel => assignment (grammar fuel)) l l₂ n
      (ts ++ .ofKind k :: us) := by
  have hinfix : k.isInfix = true := by simp [TokenKind.isInfix, hassigns]
  have hself : l₁.rescanGreater = l₁ := Lexer.rescanGreater_eq_self fun hgreater => by
    rw [← hkind, hgreater] at hassigns
    cases hassigns
  have hpath : l₁.Path [.ofKind k] l₁.scan := .single_of_eq hself hkind
  have hlevels : n.levels = max left.levels (right.levels + 1) := by
    rw [Node.levels_binary hform, hassigns]
    rfl
  refine ⟨.binary hform hinfix hleft.madeOf hright.madeOf,
    hleft.path.trans (hpath.trans hright.path), fun hdepth => ?_,
    fun rest st fuel d htail hfollows hdepth hfuel => ?_⟩
  · have hlevels₁ : d + left.levels ≤ maxParserDepth + 1 := hleft.levels hdepth
    have hlevels₂ : d + right.levels ≤ maxParserDepth := hright.levels hdepth
    simp only [Stage.within, Stage.deeper, Stage.expression]
    omega
  replace hdepth : d + n.levels ≤ maxParserDepth + 1 := hdepth
  simp only [List.append_assoc, List.cons_append, List.length_append, List.length_cons]
    at hfollows hfuel
  have htail' : Lexer.Tail (Stage.chain.within c).ends l₁ (.ofKind k :: (us ++ rest)) :=
    htail.append (hpath.trans hright.path) fun u hu => by
      cases hu
      refine Stage.ends_within_of_ne ?_ (by simp [Stage.chain, Lexeme.ofKind,
        TokenKind.joinsOperand, hinfix])
      rintro rfl
      cases hassigns
  refine gives_assignment_again hleft.again hleft.madeOf htail' hfollows (by omega) (by
    simp only [List.length_cons, List.length_append]
    omega) fun start left' st₁ halike hfollows₁ hjoined => ?_
  have hfirst := hfollows₁.spelled.first
  rw [hjoined] at hfirst
  have hkind₁ : st₁.kind = k := hfollows₁.current.trans hfirst.kind
  refine gives_assignmentRest_again (fun harrow => ?_) ?_
  · rw [← hkind₁, harrow] at hassigns
    cases hassigns
  rw [if_pos (by rw [halike.isAssignable, hkind₁, hassignable, hassigns, Bool.true_and])]
  refine .advance ((hright.again rest _ fuel d htail (hfollows₁.advanced_of_first hfirst)
    (by simp only [Stage.within, Stage.expression]; omega) (by omega)).bind fun o st₂ h₂ => ?_)
  obtain ⟨right', rfl, hright'⟩ := h₂.alike
  refine ⟨⟨_, rfl, .intro ?_ ?_⟩, h₂.follows.closed _ _, fun h => by cases h⟩
  · rw [hform, hkind₁]
    rfl
  · rw [Node.children, hform]
    exact .cons halike (.cons hright' .nil)

/-- A conditional expression is read again. -/
lemma Replay.conditional
    (hleft : Replay s (Stage.chain.within c) 2 d (fun fuel => grammar fuel (.binary 0)) l l₁ left
      ts)
    (hquestion : l₁.token.kind = .question)
    (htrue : Replay s (Stage.expression.within c') 1 d (fun fuel => grammar fuel .assignment)
      l₁.scan l₂ whenTrue us)
    (hcolon : l₂.token.kind = .colon)
    (hfalse : Replay s (Stage.expression.within c) 1 d (fun fuel => grammar fuel .assignment)
      l₂.scan l₃ whenFalse vs)
    (hform : n.form = .conditional left (some whenTrue) (some whenFalse)) :
    Replay s (Stage.expression.deeper.within c) 2 d (fun fuel => assignment (grammar fuel)) l l₃ n
      (ts ++ .ofKind .question :: us ++ .ofKind .colon :: vs) := by
  have hpath : l₁.Path [.ofKind .question] l₁.scan := .single hquestion (by decide)
  have hpath' : l₂.Path [.ofKind .colon] l₂.scan := .single hcolon (by decide)
  have hbranch : l₂.Path (.ofKind .colon :: vs) l₃ := hpath'.trans hfalse.path
  have hbranches : l₁.Path (.ofKind .question :: (us ++ .ofKind .colon :: vs)) l₃ :=
    hpath.trans (htrue.path.trans hbranch)
  have hlevels := Node.levels_conditional hform
  refine ⟨.conditional hform hleft.madeOf htrue.madeOf hfalse.madeOf, ?_,
    fun hdepth => ?_, fun rest st fuel d htail hfollows hdepth hfuel => ?_⟩
  · rw [List.append_assoc, List.cons_append]
    exact hleft.path.trans hbranches
  · have hlevels₁ : d + left.levels ≤ maxParserDepth + 1 := hleft.levels hdepth
    have hlevels₂ : d + whenTrue.levels ≤ maxParserDepth := htrue.levels hdepth
    have hlevels₃ : d + whenFalse.levels ≤ maxParserDepth := hfalse.levels hdepth
    simp only [Stage.within, Stage.deeper, Stage.expression]
    omega
  replace hdepth : d + n.levels ≤ maxParserDepth + 1 := hdepth
  simp only [List.append_assoc, List.cons_append, List.length_append, List.length_cons]
    at hfollows hfuel
  have htail₁ : Lexer.Tail (Stage.chain.within c).ends l₁
      (.ofKind .question :: (us ++ .ofKind .colon :: vs) ++ rest) :=
    htail.append hbranches fun u hu => by
      cases hu
      exact Stage.ends_within_of_ne (by decide) rfl
  have htail₂ : Lexer.Tail (Stage.expression.within c').ends l₂ (.ofKind .colon :: vs ++ rest) :=
    htail.append hbranch fun u hu => by
      cases hu
      exact Stage.ends_within_of_ne (by decide) rfl
  simp only [List.append_assoc, List.cons_append] at htail₁ htail₂
  refine gives_assignment_again hleft.again hleft.madeOf htail₁ hfollows (by omega) (by
    simp only [List.length_cons, List.length_append]
    omega) fun start left' st₁ halike hfollows₁ _ => ?_
  have hkind₁ : st₁.kind = .question := hfollows₁.kind_eq (by decide)
  refine gives_assignmentRest_again (by simp [hkind₁]) ?_
  rw [if_neg (by rw [hkind₁, Bool.and_eq_true]; exact fun h => absurd h.2 (by decide))]
  refine .optional_eq hkind₁ ((htrue.again.inContext _ htail₂ (hfollows₁.advanced (by decide)) rfl
    (by simp only [Stage.within, Stage.expression]; omega) (by
      simp only [List.length_cons, List.length_append]
      omega)).bind fun o st₂ h₂ => ?_)
  obtain ⟨whenTrue', rfl, htrue'⟩ := h₂.alike
  have hfollows₂ := h₂.follows
  refine .expect_eq (hfollows₂.kind_eq (by decide)) ?_
  refine (hfalse.again.inContext _ htail (hfollows₂.advanced (by decide)) hfollows₂.plain
    (by simp only [Stage.within, Stage.expression]; omega) (by omega)).bind fun o st₃ h₃ => ?_
  obtain ⟨whenFalse', rfl, hfalse'⟩ := h₃.alike
  refine .unjoined rfl ⟨_, rfl, .intro ?_ ?_⟩ (h₃.follows.closed _ _)
  · rw [hform]
    rfl
  · rw [Node.children, hform]
    exact .cons halike (.cons htrue' (.cons hfalse' .nil))

/-! ## Assignments -/

section

variable {st₀ : ParserState} {start : Nat}
  (hassignment : Replays s w .expression 1 (rules .assignment)
    fun fuel => grammar fuel .assignment)
  (hread : st₀.Reads s w st [])
  (hrepeats : Repeats s .chain 2 (fun fuel => grammar fuel (.binary 0)) st₀ (some left) st)
include hassignment hread hrepeats

/-- What is assigned is read again. -/
lemma repeats_assigned (hassignable : left.form.isAssignable = true)
    (hassigns : st.kind.isAssignmentOperator = true) :
    Gives (do
      advance
      let right ← rules .assignment
      finish start (.binary left st.kind right)) st fun n st' =>
      Repeats s Stage.expression.deeper 2 (fun fuel => assignment (grammar fuel)) st₀ (some n)
        st' := by
  have h₁ : Advances s w st st.advanced := gives_advance hread.sound
  refine .advance ((hassignment _ h₁.sound).bind fun right st₂ h => ?_)
  obtain ⟨h₂, hrepeatsRight⟩ := h
  intro hquiet
  have hquiet₂ : st₂.Quiet := ⟨hquiet.diagnostics, hquiet.lexer⟩
  obtain ⟨right, rfl, hright⟩ := hrepeatsRight hquiet₂
  obtain ⟨_, ⟨⟩, hleft⟩ := hrepeats ((h₁.tells.trans h₂.tells).quiet hquiet₂)
  refine ⟨_, rfl, fun hevaluable => ?_⟩
  obtain ⟨ts, hleft⟩ := hleft (hevaluable.operand List.mem_cons_self)
  have hoperand : right ∈ (Form.binary left st.kind (some right)).children := by
    exact List.mem_cons_of_mem _ (List.mem_singleton_self right)
  obtain ⟨us, hright⟩ := hright (hevaluable.operand hoperand)
  rw [show st.advanced.depth = st₀.depth from hread.depth,
    show st.advanced.context = st₀.context from hread.context] at hright
  exact ⟨_, hleft.assigned hread.sound.current.symm hassigns hassignable hright rfl⟩

/-- The branches of a condition are read again, or there are none again. -/
lemma repeats_conditionalRest :
    (conditionalRest rules start left).Gives st fun n st' =>
      Repeats s Stage.expression.deeper 2 (fun fuel => assignment (grammar fuel)) st₀ (some n)
        st' := by
  by_cases hquestion : st.kind = .question
  · have h₁ : Advances s w st st.advanced := gives_advance hread.sound
    refine .optional_eq hquestion ((hassignment.inContext _ h₁.sound).bind fun whenTrue st₂ h => ?_)
    obtain ⟨h₂, hrepeatsTrue⟩ := h
    refine ((gives_expect_quiet .colon h₂.sound).and (skips_expect .colon st₂ h₂.sound)).bind
      fun _ st₃ h => ?_
    obtain ⟨hcolon, h₃⟩ := h
    refine (hassignment.inContext _ h₃.sound).bind fun whenFalse st₄ h => ?_
    obtain ⟨h₄, hrepeatsFalse⟩ := h
    intro hquiet
    have hquiet₄ : st₄.Quiet := ⟨hquiet.diagnostics, hquiet.lexer⟩
    have hquiet₃ := h₄.tells.quiet hquiet₄
    have hquiet₂ := h₃.tells.quiet hquiet₃
    obtain ⟨hcolonKind, rfl⟩ := hcolon hquiet₃
    obtain ⟨whenTrue, rfl, htrue⟩ := hrepeatsTrue hquiet₂
    obtain ⟨whenFalse, rfl, hfalse⟩ := hrepeatsFalse hquiet₄
    obtain ⟨_, ⟨⟩, hleft⟩ := hrepeats ((h₁.tells.trans h₂.tells).quiet hquiet₂)
    refine ⟨_, rfl, fun hevaluable => ?_⟩
    have hpart (c : Node) (hc : c ∈ [left, whenTrue, whenFalse]) : c.IsEvaluable :=
      hevaluable.operand hc
    obtain ⟨ts, hleft⟩ := hleft (hpart left (by simp))
    obtain ⟨us, htrue⟩ := htrue (hpart whenTrue (by simp))
    obtain ⟨vs, hfalse⟩ := hfalse (hpart whenFalse (by simp))
    have hcontext : st₂.advanced.context = st₀.context := h₂.context.trans hread.context
    rw [show st.advanced.depth = st₀.depth from hread.depth] at htrue
    rw [show st₂.advanced.depth = st₀.depth from h₂.depth.trans hread.depth, hcontext] at hfalse
    exact ⟨_, hleft.conditional (hread.sound.current.symm.trans hquestion) htrue
      (h₂.sound.current.symm.trans hcolonKind) hfalse rfl⟩
  · refine .optional_ne hquestion (.pure fun hquiet => ?_)
    obtain ⟨_, ⟨⟩, hleft⟩ := hrepeats hquiet
    refine ⟨_, rfl, fun hevaluable => ?_⟩
    obtain ⟨ts, hleft⟩ := hleft hevaluable
    exact ⟨ts, hleft.madeOf, hleft.path, hleft.levels,
      hleft.again.unassigned hleft.madeOf⟩

lemma repeats_assignmentRest :
    (assignmentRest rules start left).Gives st fun n st' =>
      Repeats s Stage.expression.deeper 2 (fun fuel => assignment (grammar fuel)) st₀ (some n)
        st' := by
  have hrest : Gives (if left.form.isAssignable && st.kind.isAssignmentOperator then do
        advance
        let right ← rules .assignment
        finish start (.binary left st.kind right)
      else conditionalRest rules start left) st fun n st' =>
      Repeats s Stage.expression.deeper 2 (fun fuel => assignment (grammar fuel)) st₀ (some n)
        st' := by
    split
    case isTrue hassign =>
      obtain ⟨hassignable, hassigns⟩ := Bool.and_eq_true_iff.mp hassign
      exact repeats_assigned hassignment hread hrepeats hassignable hassigns
    case isFalse => exact repeats_conditionalRest hassignment hread hrepeats
  refine .kind ?_
  dsimp only
  split
  · refine .ite ?_ hrest
    exact ((yields_nameArrow rules start left false).gives st).mono fun n st' hn => .foreign hn
  · exact hrest

end

/-- An expression without commas is read again. -/
lemma replays_assignment (hr : rules.Complete s w)
    (hbinary : Replays s w .chain 2 (rules (.binary 0)) fun fuel => grammar fuel (.binary 0))
    (hassignment : Replays s w .expression 1 (rules .assignment)
      fun fuel => grammar fuel .assignment) :
    Replays s w Stage.expression.deeper 2 (assignment rules)
      fun fuel => assignment (grammar fuel) := by
  intro st hs
  refine ((fills_assignment hr st hs).mono fun _ _ h => h.reads.forget).and ?_
  refine .at? fun b _ _ => .get (.ite ((yields_yieldExpression rules).repeats st) ?_)
  refine (gives_arrowFunction?_or hs).bind fun arrow st₁ h => ?_
  rcases h with ⟨n, rfl, hn⟩ | ⟨rfl, h₁⟩
  · exact .pure (.foreign hn)
  refine .pos ((hbinary st₁ (h₁.sound hs)).bind fun left st₂ h => ?_)
  obtain ⟨h₂, hrepeats⟩ := h
  cases left with
  | none => exact fun hquiet => nomatch hrepeats hquiet
  | some left =>
    exact (repeats_assignmentRest hassignment h₂ hrepeats).bind fun n st₃ h₃ =>
      .pure (h₃.of_same h₁)

end Parser
end InlineValues

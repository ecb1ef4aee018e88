import InlineValues.Proofs.Replay.List

/-!
# Operands that are read again

An operand is a name, a literal, an expression in parentheses or an array.  Whatever else a primary
expression can be is no evaluable expression (`replays_primary`).
-/

namespace InlineValues

lemma TokenKind.mem_of_isOperand {k : TokenKind} (h : k.isOperand = true) :
    k ∈ [identifier, thisKeyword, nullKeyword, trueKeyword, falseKeyword, numericLiteral,
      bigIntLiteral, stringLiteral] := by
  unfold isOperand at h
  split at h
  all_goals first | contradiction | simp

namespace Parser

open ParserState

variable {s : Source} {w d : Nat} {st st₀ : ParserState} {rules : Rules}

/-! ## Leaves -/

/-- The leaf that an operand becomes. -/
def leafForm (k : TokenKind) (text : List Char) : Form Node :=
  match k with
  | .identifier => .identifier text
  | .thisKeyword | .nullKeyword | .trueKeyword | .falseKeyword => .token k
  | _ => .literal k text

/-- The current token was taken as a leaf of a form. -/
structure ReadsLeaf (form : Form Node) (st : ParserState) (o : Option Node) (st' : ParserState) :
    Prop where
  node : ∃ n, o = some n ∧ n.form = form ∧ n.pos = st.here ∧ n.stop = st.lexer.stop
  lexer : st'.lexer = st.lexer.scan
  current : st'.current = st.lexer.scan.token.kind
  diagnostics : st'.diagnostics = st.diagnostics
  context : st'.context = st.context
  depth : st'.depth = st.depth

/-- The current token was taken as the operand that it becomes. -/
abbrev ReadsOperand (st : ParserState) : Option Node → ParserState → Prop :=
  ReadsLeaf (leafForm st.kind st.lexer.token.value) st

lemma gives_primaryRest_leaf (hkind : st.kind.isOperand = true) :
    (primaryRest st.kind).Gives st (ReadsOperand st) := by
  have htoken (hform : leafForm st.kind st.lexer.token.value = .token st.kind) :
      Gives (do return some (← tokenNode)) st (ReadsOperand st) :=
    ⟨⟨_, rfl, hform.symm, rfl, rfl⟩, rfl, rfl, rfl, rfl, rfl⟩
  have hliteral (hform : ∀ names n, literalForm names n st.kind st.lexer.token.value =
      leafForm st.kind st.lexer.token.value) :
      Gives (do return some (← literalNode)) st (ReadsOperand st) :=
    ⟨⟨_, rfl, hform _ _, rfl, rfl⟩, rfl, rfl, rfl, rfl, rfl⟩
  have hname (hk : st.kind = .identifier) : Gives (do
      if ← atIdentifier then return some (← identifierNode)
      report .expressionExpected
      return none) st (ReadsOperand st) := by
    have hidentifier : atIdentifier.Gives st fun b st' => b = true ∧ st' = st := by
      refine .get (.kind ?_)
      rw [hk]
      exact ⟨rfl, rfl⟩
    refine hidentifier.bind fun b st' h => ?_
    obtain ⟨rfl, rfl⟩ := h
    exact ⟨⟨_, rfl, by rw [hk]; rfl, rfl, rfl⟩, rfl, rfl, rfl, rfl, rfl⟩
  have hmem := TokenKind.mem_of_isOperand hkind
  simp only [List.mem_cons, List.not_mem_nil, or_false] at hmem
  rcases hmem with hk | hk | hk | hk | hk | hk | hk | hk
  all_goals rw [hk]
  case inl => exact hname hk
  all_goals first
    | exact htoken (by rw [hk]; rfl)
    | exact hliteral fun _ _ => by rw [hk]; rfl

/-- An operand is a primary expression of one token. -/
lemma gives_primary_leaf (hkind : st.kind.isOperand = true) :
    (primary rules).Gives st (ReadsOperand st) := by
  refine .kind ?_
  split
  case h_10 => exact gives_primaryRest_leaf hkind
  all_goals
    rename_i hk
    rw [hk] at hkind
    cases hkind

lemma printLeaf_literal {c : PrintContext} {n : Node} {k : TokenKind} {text cs : List Char}
    (hk : k.isLiteral = true) (hspelling : c.spellingOf n = cs) (hne : cs.isEmpty = false) :
    printLeaf c n k text = [.text cs] := by
  simp [printLeaf, hk, hspelling, hne]

/-- The lexeme at which the parser stands, if that is an operand or a name. -/
lemma exists_isAtom (hs : st.Sound s w) (hquiet : st.Quiet) (hkind : st.kind.isAtom = true) :
    ∃ t : Lexeme, t.IsAtom ∧ t.kind = st.kind ∧ t.value = st.lexer.token.value ∧
      t.text = (s.cursor st.lexer.token.start).textTo st.lexer.cursor ∧
      (st.kind.isName = true → t.text = st.lexer.token.value) := by
  have hsame : st.lexer.token.kind = st.kind := hs.current.symm
  obtain ⟨t, ht, htkind, htvalue, htext⟩ :=
    hs.lexer.exists_isAtom hs.noted (hsame ▸ hkind) hquiet.lexer
  refine ⟨t, ht, htkind.trans hsame, htvalue, htext, fun hname => ?_⟩
  rw [htext, hs.lexer.spelled (hsame ▸ hname)]

lemma isNumber_leafForm {k : TokenKind} (hkind : k.isOperand = true) (text : List Char) :
    (leafForm k text).isNumber = k.isNumber := by
  have hmem := TokenKind.mem_of_isOperand hkind
  simp only [List.mem_cons, List.not_mem_nil, or_false] at hmem
  rcases hmem with rfl | rfl | rfl | rfl | rfl | rfl | rfl | rfl <;> rfl

/-- A leaf is printed as the token that it was read from. -/
lemma exists_isLeaf {n : Node} (hs : st.Sound s w) (hquiet : st.Quiet)
    (hkind : st.kind.isOperand = true) (hform : n.form = leafForm st.kind st.lexer.token.value)
    (hpos : n.pos = st.here) (hstop : n.stop = st.lexer.stop) :
    ∃ t : Lexeme, n.IsLeaf s t ∧ t.kind = st.kind ∧ t.value = st.lexer.token.value := by
  have hsame : st.lexer.token.kind = st.kind := hs.current.symm
  obtain ⟨t, ht, htkind, htvalue, htext, hname⟩ :=
    exists_isAtom hs hquiet (TokenKind.isAtom_of_isOperand hkind)
  have hnumber : n.form.isNumber = t.kind.isNumber := by
    rw [hform, htkind, isNumber_leafForm hkind]
  refine ⟨t, ⟨ht, hnumber, fun c emit hc => ?_⟩, htkind, htvalue⟩
  have hend : st.lexer.token.kind ≠ .endOfFile := by
    intro hend
    rw [← hsame, hend] at hkind
    cases hkind
  have hknown : st.lexer.token.kind ≠ .unknown := by
    intro hunknown
    rw [← hsame, hunknown] at hkind
    cases hkind
  have hword (h : st.kind.isAnyKeyword = true) (h' : st.kind.isName = true) :
      t.text = st.kind.spelling := by
    rw [hname h', ← TokenKind.spelling_of_ofWord? (hs.lexer.ofWord?_value (hsame ▸ h)), hsame]
  have hliteral : c.spellingOf n = t.text := by
    rw [PrintContext.spellingOf, hc, htext]
    exact hs.lexer.slice_eq hend hknown hpos hstop
  have hne : t.text.isEmpty = false := by
    obtain ⟨a, as, hfront, -⟩ := ht.front
    rw [hfront]
    rfl
  rw [printNode, hform]
  have hmem := TokenKind.mem_of_isOperand hkind
  simp only [List.mem_cons, List.not_mem_nil, or_false] at hmem
  rcases hmem with hk | hk | hk | hk | hk | hk | hk | hk
  all_goals rw [hk] at hname hword ⊢
  case inl => exact congrArg (fun cs => [Mark.text cs]) (hname rfl).symm
  all_goals first
    | exact congrArg (fun cs => [Mark.text cs]) (hword rfl rfl).symm
    | exact printLeaf_literal rfl hliteral hne

lemma children_leafForm (k : TokenKind) (text : List Char) : (leafForm k text).children = [] := by
  unfold leafForm
  split <;> rfl

lemma levels_of_leafForm {n : Node} {k : TokenKind} {text : List Char}
    (h : n.form = leafForm k text) : n.levels = 2 := by
  obtain ⟨_, _, form⟩ := n
  obtain rfl : form = leafForm k text := h
  unfold leafForm
  split <;> rfl

lemma ReadsLeaf.follows {form : Form Node} {o : Option Node} {st' : ParserState} {t : Lexeme}
    {rest : List Lexeme} (h : ReadsLeaf form st o st') (hfollows : Follows d (t :: rest) st)
    (hgreater : t.kind ∉ TokenKind.greaterKinds) : Follows d rest st' :=
  (hfollows.advanced hgreater).of_same h.lexer h.current h.diagnostics
    (by rw [h.context, hfollows.plain]) (by rw [h.depth, hfollows.depth])

/-- What was quiet behind a leaf was quiet in front of it. -/
lemma ReadsLeaf.quiet {form : Form Node} {o : Option Node} {st' : ParserState}
    (h : ReadsLeaf form st o st') (hquiet : st'.Quiet) : st.Quiet := by
  have hclean : st.lexer.scan.diagnostics = #[] := by rw [← h.lexer, hquiet.lexer]
  exact ⟨h.diagnostics.symm.trans hquiet.diagnostics, (Lexer.fault_eq_none_of_scan hclean).1⟩

/-- A leaf is read wherever its token stands. -/
lemma Rereads.leaf {l : Lexer} {n : Node} {t : Lexeme} (ht : t.IsOperand)
    (hform : n.form = leafForm t.kind t.value) :
    Rereads .operand 0 (fun fuel => primary (grammar fuel)) l n [t] := by
  intro rest st fuel d _ hfollows _ _
  have hgreater := TokenKind.notMem_greaterKinds_of_isAtom ht.atom
  have hfirst := hfollows.spelled.first_of_kind hgreater
  have hkind : st.kind = t.kind := hfollows.current.trans hfirst.kind
  refine (gives_primary_leaf (by rw [hkind, ht.kind])).mono fun o st₁ h => ?_
  obtain ⟨n', ho, hform', -, -⟩ := h.node
  refine .unjoined rfl ⟨n', ho, .of_leaf ?_ ?_⟩ ?_
  · rw [hform, hform', hkind, hfirst.value]
  · rw [hform, children_leafForm]
  · exact h.follows hfollows hgreater

/-- An operand that was read is read again. -/
lemma ReadsLeaf.repeats {o : Option Node} {st₁ : ParserState} (h : ReadsOperand st o st₁)
    (hs : st.Sound s w) (hkind : st.kind.isOperand = true) :
    Repeats s .operand 0 (fun fuel => primary (grammar fuel)) st o st₁ := by
  intro hquiet
  obtain ⟨n, ho, hform, hpos, hstop⟩ := h.node
  refine ⟨n, ho, fun _ => ?_⟩
  obtain ⟨t, hleaf, htkind, htvalue⟩ := exists_isLeaf hs (h.quiet hquiet) hkind hform hpos hstop
  have hoperand : t.kind.isOperand = true := htkind ▸ hkind
  rw [h.lexer]
  refine ⟨[t], .leaf hleaf hoperand, ?_, fun hdepth => ?_, ?_⟩
  · exact .single (hs.current.symm.trans htkind.symm)
      (TokenKind.notMem_greaterKinds_of_isAtom hleaf.atom.atom)
  · rw [levels_of_leafForm hform]
    simp only [Stage.within, Stage.operand]
    omega
  · exact (Rereads.leaf ⟨hleaf.atom, hoperand⟩ (by rw [hform, htkind, htvalue])).within _

/-! ## Parentheses -/

/-- An expression that is read is read in parentheses. -/
lemma Rereads.parenthesized {l l' : Lexer} {n e : Node} {ts : List Lexeme}
    (h : Rereads .expression 1 (fun fuel => expression (grammar fuel)) l e ts)
    (hform : n.form = .parenthesized (some e))
    (htail : ∀ rest, Lexer.Tail Stage.operand.ends l' rest →
      Lexer.Tail Stage.expression.ends l (.ofKind .closeParen :: rest)) :
    Rereads .operand 0 (fun fuel => primary (grammar fuel)) l' n
      (.ofKind .openParen :: ts ++ [.ofKind .closeParen]) := by
  intro rest st fuel d hrest hfollows hlevels hfuel
  simp only [List.cons_append, List.append_assoc, List.nil_append, List.length_cons,
    List.length_append, List.length_nil] at hfollows hfuel
  rw [Node.levels_parenthesized hform] at hlevels
  simp only [Stage.operand] at hlevels
  have hkind : st.kind = .openParen := hfollows.kind_eq (by decide)
  refine .kind ?_
  rw [hkind]
  refine Gives.bind (P := fun n' st' => Mirrors .operand d n rest (some n') st') ?_
    fun _ _ h => .pure h
  refine .pos (.expect_eq hkind ?_)
  refine (h.inContext bracketed (htail rest hrest) (hfollows.advanced (by decide)) rfl ?_ ?_).bind
    fun o st₁ h₁ => ?_
  · simp only [Stage.expression]
    omega
  · rw [List.length_cons]
    omega
  · obtain ⟨e', rfl, halike⟩ := h₁.alike
    refine .expect_eq (h₁.follows.kind_eq (by decide))
      (gives_finish (.unjoined rfl ⟨_, rfl, ?_⟩ ?_))
    · refine .intro (by rw [hform]; rfl) ?_
      rw [Node.children, hform]
      exact .cons halike .nil
    · exact (h₁.follows.advanced (by decide)).closed _ _

/-- An expression in parentheses is read again as such. -/
lemma repeats_parenthesized
    (hexpression : Replays s (w - 1) .expression 1 (expression rules)
      fun fuel => expression (grammar fuel))
    (hs : st.Sound s w) (hkind : st.kind = .openParen) :
    Gives (do return some (← parenthesized rules)) st
      (Repeats s .operand 0 (fun fuel => primary (grammar fuel)) st) := by
  have hopen : Advances s w st st.advanced := gives_advance hs
  have hlater := hopen.sound_lt hs (hopen.lt (by simp [hkind]))
  refine Gives.bind (P := fun n st' => Repeats s .operand 0 (fun fuel => primary (grammar fuel)) st
    (some n) st') ?_ fun _ _ h => .pure h
  refine .pos (.expect_eq hkind ((hexpression.inContext bracketed hlater).bind fun o st₁ h => ?_))
  obtain ⟨h₁, hinner⟩ := h
  refine ((gives_expect_quiet .closeParen h₁.sound).and
    (skips_expect .closeParen st₁ h₁.sound)).bind fun _ st₂ h =>
      gives_finish fun hquiet => ?_
  obtain ⟨hclose, h₂⟩ := h
  have hquiet₂ : st₂.Quiet := ⟨hquiet.diagnostics, hquiet.lexer⟩
  obtain ⟨hcloseKind, rfl⟩ := hclose hquiet₂
  have hcloses : st₁.lexer.token.kind = .closeParen := h₁.sound.current.symm.trans hcloseKind
  obtain ⟨e, rfl, hreplay⟩ := hinner (h₂.tells.quiet hquiet₂)
  refine ⟨_, rfl, fun hevaluable => ?_⟩
  obtain ⟨ts, hreplay⟩ := hreplay (hevaluable.operand (List.mem_singleton_self e))
  refine ⟨_, .parenthesized rfl hreplay.madeOf, ?_, fun hdepth => ?_, ?_⟩
  · have hpath : st.lexer.Path [.ofKind .openParen] st.lexer.scan :=
      .single (hs.current.symm.trans hkind) (by decide)
    exact (hpath.trans hreplay.path).trans (.single hcloses (by decide))
  · have hlevels : st.depth + e.levels ≤ maxParserDepth := hreplay.levels hdepth
    rw [Node.levels_parenthesized rfl]
    simp only [Stage.within, Stage.operand]
    omega
  · refine Rereads.within (Rereads.parenthesized hreplay.again rfl fun rest htail => ?_) _
    exact htail.cons hcloses (by decide) rfl

/-! ## Arrays -/

/-- An array is read wherever its elements follow in brackets. -/
lemma Rereads.arrayLiteral {d' : Nat} {l l' : Lexer} {n : Node} {elements : Sequence Node}
    {multiLine : Bool} {parts : List (Node × List Lexeme)}
    (h : ListReplay s .openBracket .closeBracket d'
      (fun fuel => Parser.arrayElement (grammar fuel)) l l' elements parts)
    (hform : n.form = .arrayLiteral elements multiLine) :
    Rereads .operand 0 (fun fuel => primary (grammar fuel)) l' n
      (listLexemes .openBracket .closeBracket elements.trailingComma parts) := by
  intro rest st fuel d htail hfollows hlevels hfuel
  rw [Node.levels_arrayLiteral hform] at hlevels
  have hkind : st.kind = .openBracket := hfollows.kind_eq (by decide)
  refine .kind ?_
  rw [hkind]
  refine Gives.bind (P := fun n' st' => Mirrors .operand d n rest (some n') st') ?_
    fun _ _ h => .pure h
  refine .pos ((h.again rest st fuel d htail.leads hfollows hlevels hfuel).bind
    fun elements' st₁ h₁ => ?_)
  obtain ⟨halike, hfollows₁⟩ := h₁
  refine .isMultiLineFrom fun b => gives_finish (.unjoined rfl ⟨_, rfl, ?_⟩ ?_)
  · exact halike.arrayLiteral hform _ _ _
  · exact hfollows₁.closed _ _

/-- An array is read again if its elements are. -/
lemma repeats_arrayLiteral (hinside : RereadsInside s (w - 1) rules) (hs : st.Sound s w)
    (hkind : st.kind = .openBracket) :
    Gives (do return some (← arrayLiteral rules)) st
      (Repeats s .operand 0 (fun fuel => primary (grammar fuel)) st) := by
  refine Gives.bind (P := fun n st' => Repeats s .operand 0 (fun fuel => primary (grammar fuel)) st
    (some n) st') ?_ fun _ _ h => .pure h
  refine .pos ((gives_delimited_replay (by simp) (by simp) (reads_arrayElement hinside.sound)
    (replays_arrayElement hinside) hs hkind).bind fun elements st₁ h => ?_)
  refine .isMultiLineFrom fun b => gives_finish fun hquiet => ⟨_, rfl, fun hevaluable => ?_⟩
  obtain ⟨parts, hreplay⟩ := h.2 ⟨hquiet.diagnostics, hquiet.lexer⟩ fun e he =>
    hevaluable.operand he
  refine ⟨_, .array rfl hreplay.items hreplay.madeOf, hreplay.path, fun hdepth => ?_, ?_⟩
  · rw [Node.levels_arrayLiteral rfl]
    exact hreplay.levels hdepth
  · exact (Rereads.arrayLiteral hreplay rfl).within _

/-! ## Primary expressions -/

/-- A primary expression of one token other than an operand is no evaluable expression. -/
lemma repeats_primaryRest (hs : st.Sound s w) :
    (primaryRest st.kind).Gives st
      (Repeats s .operand 0 (fun fuel => primary (grammar fuel)) st) := by
  by_cases hkind : st.kind.isOperand = true
  · exact (gives_primaryRest_leaf hkind).mono fun _ _ h => h.repeats hs hkind
  have htoken (hform : (Form.token st.kind : Form Node).isEvaluable = false) :
      Gives (do return some (← tokenNode)) st
        (Repeats s .operand 0 (fun fuel => primary (grammar fuel)) st) :=
    .foreign (.of_form hform)
  have hliteral (st₁ : ParserState)
      (hform : ∀ names n text, (literalForm names n st₁.kind text).isEvaluable = false) :
      Gives (do return some (← literalNode)) st₁
        (Repeats s .operand 0 (fun fuel => primary (grammar fuel)) st) :=
    .foreign (.of_form (hform _ _ _))
  have hslash (hk : st.kind = .slash ∨ st.kind = .slashEquals) : Gives (do
      discard <| rescan Lexer.rescanSlash
      return some (← literalNode)) st
        (Repeats s .operand 0 (fun fuel => primary (grammar fuel)) st) := by
    have hregular : st.lexer.rescanSlash.token.kind = .regularExpressionLiteral := by
      have hslash :
          (st.lexer.token.kind == .slash || st.lexer.token.kind == .slashEquals) = true := by
        simpa [← hs.current, ParserState.kind] using hk
      rw [Lexer.rescanSlash, if_pos hslash, Lexer.kind_replaceToken, Scanned.kind_regularExpression]
    refine Gives.discard_bind (P := fun _ st₁ => st₁.kind = .regularExpressionLiteral) hregular
      fun _ st₁ h₁ => hliteral st₁ ?_
    rw [h₁]
    exact fun _ _ _ => rfl
  unfold primaryRest
  split
  case h_4 hk => exact hliteral st (by rw [hk]; exact fun _ _ _ => rfl)
  case h_6 hk | h_10 hk => exact htoken (by rw [hk]; rfl)
  case h_11 hk => exact hslash (.inl hk)
  case h_12 hk => exact hslash (.inr hk)
  case h_13 hk => exact .foreign (.of_form rfl)
  case h_14 =>
    refine .atIdentifier fun b hb => ?_
    split
    case isTrue htrue =>
      -- The name is a keyword.
      have hword : st.kind.isAnyKeyword = true := by
        have hword := hb htrue
        rw [isWord, Bool.or_eq_true, beq_iff_eq] at hword
        refine hword.resolve_left fun hk => hkind ?_
        rw [hk]
        rfl
      refine fun _ => ⟨_, rfl, fun hevaluable => ?_⟩
      have hform : (TokenKind.ofWord? st.lexer.token.value).isNone = true := hevaluable.form
      rw [hs.lexer.ofWord?_value (hs.current ▸ hword)] at hform
      cases hform
    case isFalse => exact (gives_report_loud _ hs).bind fun _ _ h => .loud h
  all_goals
    rename_i hk
    rw [hk] at hkind
    exact absurd rfl hkind

/-- A primary expression is read again. -/
lemma replays_primary (hr : rules.Sound s w) (hinside : RereadsInside s (w - 1) rules) :
    Replays s w .operand 0 (primary rules) fun fuel => primary (grammar fuel) := by
  intro st hs
  refine ((fills_primary hr st hs).mono fun _ _ h => h.reads.forget).and ?_
  refine .kind ?_
  split
  case h_1 => exact (yields_template rules).foreign.repeats st
  case h_2 hk =>
    refine Gives.bind (P := fun n st' => Repeats s .operand 0 (fun fuel => primary (grammar fuel))
      st (some n) st') ?_ fun _ _ h => .pure h
    refine (gives_newExpression_or (P := Node.IsForeign) rules (fun _ h => h.foreign)
      fun n keyword name hform hkeyword => ?_).mono fun _ _ hn => .foreign hn
    -- The keyword in front of the point is no expression.
    intro hevaluable
    have hobject : keyword ∈ n.form.operands := by
      rw [hform]
      exact List.mem_singleton_self keyword
    have hnew := (hevaluable.operand hobject).form
    rw [hkeyword, hk] at hnew
    cases hnew
  case h_3 hk => exact repeats_parenthesized hinside.expression hs hk
  case h_4 hk => exact repeats_arrayLiteral hinside hs hk
  case h_5 => exact (yields_objectLiteral rules).foreign.repeats st
  case h_6 => exact (yields_functionExpression rules).foreign.repeats st
  case h_7 hk =>
    refine (peeks_nextOnSameLine (peeks_at? .functionKeyword).skips st hs).bind fun b st₁ h₁ => ?_
    refine .ite ((yields_functionExpression rules).foreign.repeats st₁) ?_
    rw [← h₁.kind]
    exact (repeats_primaryRest (h₁.sound hs)).mono fun _ _ h => h.of_same h₁
  case h_8 | h_9 => exact (yields_classExpression rules).foreign.repeats st
  case h_10 => exact repeats_primaryRest hs

end Parser
end InlineValues

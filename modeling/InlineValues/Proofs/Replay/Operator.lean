import InlineValues.Proofs.Grammar.Assignment
import InlineValues.Proofs.Replay.Access

/-!
# Operators that are read again

Operators in front of an operand and behind it are read again as they stand (`replays_unary`).
Operators between two operands and commas are read in chains, of which every round is read again
(`replays_binary`, `replays_expression`).
-/

namespace InlineValues
namespace Parser

open ParserState

variable {s : Source} {w d cost : Nat} {st st₀ st₁ : ParserState} {rules : Rules}

/-! ## Operators in front of an operand and behind it -/

lemma Quiet.of_advanced (h : st.advanced.Quiet) : st.Quiet :=
  ⟨h.diagnostics, (Lexer.fault_eq_none_of_scan h.lexer).1⟩

section

variable {c : Context} {l : Lexer} {n e : Node} {k : TokenKind} {ts : List Lexeme}

/-- An operand that is read is read with the sign behind it. -/
lemma Rereads.updated
    (h : Rereads (Stage.operand.within c) 2 (fun fuel => grammar fuel .leftHandSide) l e ts)
    (hk : k ∈ [TokenKind.plusPlus, .minusMinus]) (hkind : l.token.kind = k)
    (hform : n.form = .postfixUnary e k) :
    Rereads (Stage.unary.deeper.within c) 2 (fun fuel => update (grammar fuel)) l.scan n
      (ts ++ [.ofKind k]) := by
  have hsigns : ∀ k ∈ [TokenKind.plusPlus, .minusMinus], k ∉ TokenKind.greaterKinds ∧
      k ≠ .inKeyword ∧ Stage.operand.ends k = true := by decide
  obtain ⟨hgreater, hin, hends⟩ := hsigns k hk
  intro rest st fuel d htail hfollows hlevels hfuel
  rw [List.append_assoc, List.singleton_append] at hfollows
  rw [List.length_append, List.length_singleton] at hfuel
  rw [Node.levels_postfixUnary hform] at hlevels
  have htail' : Lexer.Tail (Stage.operand.within c).ends l (.ofKind k :: rest) :=
    htail.cons hkind hgreater (Stage.ends_within_of_ne hin hends)
  refine .pos ((h _ st fuel d htail' hfollows hlevels ?_).bind fun o st₁ h₁ => ?_)
  · rw [List.length_cons]
    omega
  obtain ⟨e', rfl, halike⟩ := h₁.alike
  have hfirst := h₁.follows.spelled.first_of_kind hgreater
  have hkind' : st₁.kind = k := h₁.follows.current.trans hfirst.kind
  refine .kind (.afterLineBreak_eq hfirst.afterLineBreak ?_)
  rw [hkind', if_pos (by simpa using hk)]
  refine .advance (.finish (.pure (.unjoined rfl ⟨_, rfl, .intro ?_ ?_⟩ ?_)))
  · rw [hform]
    rfl
  · rw [Node.children, hform]
    exact .cons halike .nil
  · exact (h₁.follows.advanced hgreater).closed _ _

/-- An operand is read without a sign behind it where none follows. -/
lemma Rereads.update
    (h : Rereads (Stage.operand.within c) 2 (fun fuel => grammar fuel .leftHandSide) l n ts) :
    Rereads (Stage.unary.deeper.within c) 2 (fun fuel => update (grammar fuel)) l n ts := by
  intro rest st fuel d htail hfollows hlevels hfuel
  have htail' : Lexer.Tail (Stage.operand.within c).ends l rest := htail.mono fun k hk => by
    obtain ⟨hin, hjoins⟩ := Stage.ends_within.mp hk
    refine Stage.ends_within.mpr ⟨hin, ?_⟩
    simp [Stage.operand, show k.joinsOperand = true from hjoins]
  refine .pos ((h _ st fuel d htail' hfollows hlevels hfuel).bind fun o st₁ h₁ => ?_)
  obtain ⟨n', rfl, halike⟩ := h₁.alike
  refine .kind (.afterLineBreak fun b => ?_)
  have hbehind : st₁.kind.joinsOperand = true ∨
      st₁.kind ∈ [TokenKind.endOfFile, .semicolon, .greaterThan] :=
    h₁.follows.kind_behind htail.of_within.head
  have hplain : st₁.kind ≠ .plusPlus ∧ st₁.kind ≠ .minusMinus := by
    constructor
    all_goals
      intro hk
      rw [hk] at hbehind
      exact absurd hbehind (by decide)
  rw [if_neg (by simp [hplain])]
  exact .pure (.unjoined rfl ⟨n', rfl, halike⟩ h₁.follows)

/-- An operand is read behind a sign, by a production that reads signs of its kind. -/
lemma Rereads.signed {g : Stage} {cost : Nat}
    {production production' : Nat → Parser (Option Node)}
    (h : Rereads (g.within c) cost production l e ts) (hform : n.form = .prefixUnary k (some e))
    (hsign : k ∈ TokenKind.prefixSigns) (hcost : cost ≤ 2)
    (hends : ∀ k, Stage.unary.ends k = true → g.ends k = true)
    (hopened : n.levels + g.opened = e.levels + 2)
    (hproduction : ∀ fuel st Q, st.kind = k →
      Gives (do return some (← signUnary k (production fuel))) st Q →
        (production' fuel).Gives st Q) :
    Rereads (Stage.unary.deeper.within c) 2 production' l n (.ofKind k :: ts) := by
  have hsigns : ∀ k ∈ TokenKind.prefixSigns, k ∉ TokenKind.greaterKinds := by decide
  intro rest st fuel d htail hfollows hlevels hfuel
  rw [List.cons_append] at hfollows
  rw [List.length_cons] at hfuel
  have hlevels' : d + n.levels ≤ maxParserDepth + 2 := hlevels
  refine hproduction fuel st _ (hfollows.kind_eq (hsigns k hsign)) ?_
  refine Gives.bind (P := fun n' st' =>
    Mirrors (Stage.unary.deeper.within c) d n rest (some n') st') ?_ fun _ _ h => .pure h
  have htail' : Lexer.Tail (g.within c).ends l rest := htail.mono fun k hk => by
    obtain ⟨hin, hjoins⟩ := Stage.ends_within.mp hk
    exact Stage.ends_within.mpr ⟨hin, hends k hjoins⟩
  refine .pos (.advance ((h rest _ fuel d htail' (hfollows.advanced (hsigns k hsign)) ?_ ?_).bind
    fun o st₁ h₁ => ?_))
  · simp only [Stage.within]
    omega
  · omega
  · obtain ⟨e', rfl, halike⟩ := h₁.alike
    refine gives_finish (.unjoined rfl ⟨_, rfl, .intro ?_ ?_⟩ (h₁.follows.closed _ _))
    · rw [hform]
      rfl
    · rw [Node.children, hform]
      exact .cons halike .nil

/-- Without a sign in front, an operand is all that is read. -/
lemma Rereads.unary
    (h : Rereads (Stage.unary.deeper.within c) 2 (fun fuel => Parser.update (grammar fuel)) l n ts)
    (hmade : n.MadeOf s 1 ts) (hsign : ∀ t ∈ ts.head?, t.kind ∉ TokenKind.prefixSigns) :
    Rereads (Stage.unary.deeper.within c) 2 (fun fuel => Parser.unary (grammar fuel)) l n ts := by
  intro rest st fuel d htail hfollows hlevels hfuel
  have hupdate := h rest st fuel d htail hfollows hlevels hfuel
  obtain ⟨t, us, rfl, hgreater, hkind⟩ := hmade.starts_kind
  have hkind' : st.kind = t.kind := hfollows.kind_eq hgreater
  have hsign' := hsign t rfl
  rw [← hkind'] at hkind hsign'
  refine .kind ?_
  split
  case h_12 => exact hupdate
  case h_1 hk | h_2 hk | h_3 hk | h_4 hk | h_5 hk | h_6 hk =>
    rw [hk] at hsign'
    exact absurd (by decide) hsign'
  all_goals
    rename_i hk
    rw [hk] at hkind
    exact absurd hkind (by decide)

end

/-- An operand is read again with the sign behind it, or without one. -/
lemma replays_update (hr : rules.Complete s w)
    (hleft : Replays s w .operand 2 (rules .leftHandSide) fun fuel => grammar fuel .leftHandSide) :
    Replays s w Stage.unary.deeper 2 (update rules) fun fuel => update (grammar fuel) := by
  intro st hs
  refine ((fills_update hr st hs).mono fun _ _ h => h.reads.forget).and ?_
  refine .pos ((hleft st hs).bind fun operand st₁ h => ?_)
  obtain ⟨h₁, hrepeats⟩ := h
  cases operand with
  | none => exact fun hquiet => nomatch hrepeats hquiet
  | some operand =>
    refine .kind (.afterLineBreak_eq rfl ?_)
    split
    case isTrue hsign =>
      refine .advance (.finish (.pure fun hquiet => ?_))
      have hquiet₁ : st₁.Quiet := Quiet.of_advanced ⟨hquiet.diagnostics, hquiet.lexer⟩
      obtain ⟨_, ⟨⟩, hreplay⟩ := hrepeats hquiet₁
      refine ⟨_, rfl, fun hevaluable => ?_⟩
      obtain ⟨ts, hreplay⟩ := hreplay (hevaluable.operand (List.mem_singleton_self _))
      have hk : st₁.kind ∈ [TokenKind.plusPlus, .minusMinus] := by
        simp only [Bool.and_eq_true, Bool.or_eq_true, beq_iff_eq] at hsign
        simpa using hsign.1
      have hsigns : ∀ k ∈ [TokenKind.plusPlus, .minusMinus], k ∉ TokenKind.greaterKinds := by decide
      have hfirst : st₁.lexer.token.kind = st₁.kind := h₁.sound.current.symm
      refine ⟨_, .update rfl hk hreplay.madeOf, hreplay.path.trans (.single hfirst (hsigns _ hk)),
        fun hdepth => ?_, hreplay.again.updated hk hfirst rfl⟩
      rw [Node.levels_postfixUnary rfl]
      exact hreplay.levels hdepth
    case isFalse =>
      refine .pure fun hquiet => ?_
      obtain ⟨_, ⟨⟩, hreplay⟩ := hrepeats hquiet
      refine ⟨_, rfl, fun hevaluable => ?_⟩
      obtain ⟨ts, hreplay⟩ := hreplay hevaluable
      exact ⟨ts, .lift (Nat.zero_le 1) hreplay.madeOf, hreplay.path, hreplay.levels,
        hreplay.again.update⟩

/-- A sign in front of an operand is read again, if a production reads signs of its kind. -/
lemma repeats_signUnary {g : Stage} {operand : Parser (Option Node)}
    {production production' : Nat → Parser (Option Node)} (hs : st.Sound s w)
    (hsign : st.kind ∈ TokenKind.prefixSigns) (hoperand : Replays s w g cost operand production)
    (hcost : cost ≤ 2) (hlevel : g.level ≤ 1)
    (hends : ∀ k, Stage.unary.ends k = true → g.ends k = true)
    (hopened : ∀ n e : Node, n.form = .prefixUnary st.kind (some e) →
      n.levels + g.opened = e.levels + 2)
    (hproduction : ∀ fuel st' Q, st'.kind = st.kind →
      Gives (do return some (← signUnary st.kind (production fuel))) st' Q →
        (production' fuel).Gives st' Q) :
    Gives (do return some (← signUnary st.kind operand)) st
      (Repeats s Stage.unary.deeper 2 production' st) := by
  have hsigns : ∀ k ∈ TokenKind.prefixSigns, k ∉ TokenKind.greaterKinds := by decide
  have hadvance : Advances s w st st.advanced := gives_advance hs
  refine Gives.bind
    (P := fun n st' => Repeats s Stage.unary.deeper 2 production' st (some n) st') ?_
    fun _ _ h => .pure h
  refine .pos (.advance ((hoperand _ hadvance.sound).bind fun operand st₁ h =>
    gives_finish fun hquiet => ?_))
  obtain ⟨h₁, hrepeats⟩ := h
  obtain ⟨e, rfl, hreplay⟩ := hrepeats ⟨hquiet.diagnostics, hquiet.lexer⟩
  refine ⟨_, rfl, fun hevaluable => ?_⟩
  obtain ⟨ts, hreplay⟩ := hreplay (hevaluable.operand (List.mem_singleton_self e))
  have hpath : st.lexer.Path [.ofKind st.kind] st.lexer.scan :=
    .single hs.current.symm (hsigns _ hsign)
  have hopened := hopened (st₁.node st.here (.prefixUnary st.kind (some e))) e rfl
  refine ⟨_, .sign rfl hsign (.lift hlevel hreplay.madeOf), hpath.trans hreplay.path,
    fun hdepth => ?_, hreplay.again.signed rfl hsign hcost hends hopened hproduction⟩
  have hlevels : st.depth + e.levels ≤ maxParserDepth + g.opened := hreplay.levels hdepth
  simp only [Stage.within, Stage.deeper, Stage.unary]
  omega

/-- Without a sign in front, an operand is all that is read again. -/
lemma Repeats.unary_of_update {o : Option Node} (hcurrent : st.current = st.lexer.token.kind)
    (hsign : st.kind ∉ TokenKind.prefixSigns)
    (h : Repeats s Stage.unary.deeper 2 (fun fuel => update (grammar fuel)) st o st₁) :
    Repeats s Stage.unary.deeper 2 (fun fuel => unary (grammar fuel)) st o st₁ := by
  intro hquiet
  obtain ⟨n, ho, hreplay⟩ := h hquiet
  refine ⟨n, ho, fun hevaluable => ?_⟩
  obtain ⟨ts, hreplay⟩ := hreplay hevaluable
  refine ⟨ts, hreplay.madeOf, hreplay.path, hreplay.levels,
    hreplay.again.unary hreplay.madeOf fun t ht => ?_⟩
  obtain ⟨t', us, rfl, hgreater, -⟩ := hreplay.madeOf.starts_kind
  cases ht
  obtain ⟨hfirst, -⟩ := hreplay.path
  rw [Lexer.eq_of_rescanGreater (by rwa [hfirst])] at hfirst
  rwa [← hfirst, ← hcurrent]

/-- An operand with the operators in front of it is read again. -/
theorem replays_unary (hr : rules.Complete s w)
    (hleft : Replays s w .operand 2 (rules .leftHandSide) fun fuel => grammar fuel .leftHandSide)
    (hunary : Replays s w .unary 1 (rules .unary) fun fuel => grammar fuel .unary) :
    Replays s w Stage.unary.deeper 2 (unary rules) fun fuel => unary (grammar fuel) := by
  intro st hs
  refine ((fills_unary hr st hs).mono fun _ _ h => h.reads.forget).and ?_
  have hupdate (st₁ : ParserState) (h₁ : st.SamePlace s st₁)
      (hsign : st.kind ∉ TokenKind.prefixSigns) : (update rules).Gives st₁
        (Repeats s Stage.unary.deeper 2 (fun fuel => unary (grammar fuel)) st) :=
    (replays_update hr hleft st₁ (h₁.sound hs)).mono fun _ _ h =>
      .unary_of_update hs.current hsign (h.2.of_same h₁)
  refine .kind ?_
  split
  case h_1 hk | h_2 hk =>
    refine repeats_signUnary hs (by rw [hk]; decide) hleft (Nat.le_refl 2) (by decide)
      (fun k (hends : k.joinsOperand = true) => by simp [Stage.operand, hends])
      (fun n e hform => by rw [Node.levels_prefixUnary hform, hk]; rfl)
      fun fuel st' Q hkind h => .kind ?_
    rw [hkind, hk]
    rwa [hk] at h
  case h_3 hk | h_4 hk | h_5 hk | h_6 hk =>
    refine repeats_signUnary hs (by rw [hk]; decide) hunary (by decide) (Nat.le_refl 1)
      (fun _ => id) (fun n e hform => by rw [Node.levels_prefixUnary hform, hk]; rfl)
      fun fuel st' Q hkind h => .kind ?_
    rw [hkind, hk]
    rwa [hk] at h
  case h_7 | h_8 | h_9 => exact (yields_keywordUnary rules _).foreign.repeats st
  case h_10 hk =>
    refine (peeks_awaitIsOperator st hs).bind fun b st₁ h₁ => ?_
    exact .ite ((yields_keywordUnary rules _).foreign.repeats st₁)
      (hupdate st₁ h₁ (by rw [hk]; decide))
  case h_11 => exact (yields_typeAssertion rules).foreign.repeats st
  case h_12 => exact hupdate st (.refl st) (by simp_all [TokenKind.prefixSigns])

/-! ## Operators between two operands -/

/-- What is known of the operator that is looked for at a precedence: it is the current token, once
a `>` is extended, or that token does not continue the operand.  In the head of a loop an `in` is no
operator. -/
structure SeesOperator (precedence : Nat) (st : ParserState) (o : Option TokenKind)
    (st' : ParserState) : Prop where
  state : st' = st.extended
  some : ∀ k, o = some k → st'.kind = k ∧ k.continues precedence = true ∧
    (st.context.disallowIn = true → k ≠ .inKeyword)
  none : o = none → st'.kind.continues precedence = true →
    (st.context.disallowIn = true → st'.kind ≠ .inKeyword) →
      st'.kind ∈ [TokenKind.asKeyword, .satisfiesKeyword]

lemma gives_operatorAt?_sees (precedence : Nat) :
    (operatorAt? precedence).Gives st (SeesOperator precedence st) := by
  refine (finds_operatorAt? precedence st).mono fun o st₁ h => ?_
  have hcontext : st₁.context = st.context := by
    rw [h.state]
    rfl
  refine ⟨h.state, ?_, fun hnone hcontinues hallowed => ?_⟩
  · rintro k rfl
    obtain ⟨hseen, hcontinues⟩ := h.some k rfl
    refine ⟨h.kind, hcontinues, fun hbars hin => ?_⟩
    have hfree : st₁.isBarred = false := by
      rw [h.state]
      exact (operator?_eq_some.mp hseen).1
    rw [isBarred, hcontext, h.kind, hbars, hin] at hfree
    cases hfree
  · have hbarred : st₁.isBarred = true := by
      rw [h.state] at hcontinues ⊢
      by_contra hfree
      have hseen := operator?_eq_some.mpr ⟨Bool.eq_false_iff.mpr hfree, rfl⟩
      rw [h.none hnone _ hseen] at hcontinues
      cases hcontinues
    rw [isBarred, hcontext, Bool.or_eq_true, Bool.and_eq_true, Bool.and_eq_true, beq_iff_eq]
      at hbarred
    rcases hbarred with ⟨hin, hbars⟩ | ⟨hword, -⟩
    · exact absurd hin (hallowed hbars)
    · simpa using hword

/-- An operator that continues an operand stands between two. -/
lemma isInfix_of_continues {k : TokenKind} {precedence : Nat}
    (h : k.continues precedence = true) (has : k ≠ .asKeyword)
    (hsatisfies : k ≠ .satisfiesKeyword) :
    k.isInfix = true := by
  have hprecedence : k.precedence ≠ 0 := Nat.pos_iff_ne_zero.mp (TokenKind.continues_iff.mp h).1
  simp [TokenKind.isInfix, hprecedence, has, hsatisfies]

/-- The operands of an operator that assigns nothing are as deep as the operation. -/
lemma Node.levels_of_isAssignmentOperator_eq_false {n left right : Node} {k : TokenKind}
    (hform : n.form = .binary left k (some right)) (hassigns : k.isAssignmentOperator = false) :
    n.levels = max left.levels right.levels := by
  rw [Node.levels_binary hform, hassigns]
  rfl

/-- Behind an operator that is read again, its right operand is. -/
lemma extends_binaryStep {precedence : Nat} {c : Context} {k : TokenKind} {left right n : Node}
    {l l' : Lexer} {us : List Lexeme}
    (hkind : l.rescanGreater.token.kind = k) (hcontinues : k.continues precedence = true)
    (has : k ≠ .asKeyword) (hsatisfies : k ≠ .satisfiesKeyword)
    (hin : c.disallowIn = true → k ≠ .inKeyword)
    (h : Replay s (Stage.chain.within c) 2 d (fun fuel => grammar fuel (.binary k.precedence))
      l.rescanGreater.scan l' right us) (hform : n.form = .binary left k (some right)) :
    Extends s (Stage.chain.within c) 1 d (fun fuel => binaryStep (grammar fuel) precedence) left l n
      l' (.ofKind k :: us) := by
  have hinfix := isInfix_of_continues hcontinues has hsatisfies
  have hends : (Stage.chain.within c).ends k = true :=
    Stage.ends_within.mpr ⟨hin, by simp [Stage.chain, TokenKind.joinsOperand, hinfix]⟩
  have hassigns : k.isAssignmentOperator = false := (Bool.or_eq_false_iff.mp
    (TokenKind.not_loose_of_precedence (TokenKind.continues_iff.mp hcontinues).1)).1
  have hlevels := Node.levels_of_isAssignmentOperator_eq_false hform hassigns
  refine ⟨fun ts hts => .binary hform hinfix hts h.madeOf, ⟨hkind, h.path⟩,
    ⟨_, us, rfl, hends⟩, by omega, fun hdepth hleft => ?_,
    fun rest st fuel d start left' halike htail hfollows hdepth hfuel => ?_⟩
  · have hright := h.levels hdepth
    omega
  have hfirst := hfollows.spelled.first
  refine (gives_operatorAt?_sees precedence).bind fun o st₁ h₁ => ?_
  have hstate := h₁.state
  have hkind₁ : st₁.kind = k := by
    rw [hstate]
    exact hfirst.kind
  cases o with
  | none =>
    have hword := h₁.none rfl (by rw [hkind₁, hcontinues]) (by simp [hfollows.plain])
    rw [hkind₁] at hword
    simp [has, hsatisfies] at hword
  | some k' =>
    obtain ⟨hk', -⟩ := h₁.some k' rfl
    obtain rfl : k = k' := hkind₁.symm.trans hk'
    have hfollows₁ : Follows d (us ++ rest) st₁.advanced := by
      rw [hstate]
      exact hfollows.extended.advanced_of_first hfirst
    refine .advance ?_
    rw [if_neg (by simpa using has), if_neg (by simpa using hsatisfies)]
    refine (h.again rest _ fuel d htail hfollows₁ (by omega)
      (by rw [List.length_cons] at hfuel; omega)).bind fun o st₂ h₂ => ?_
    obtain ⟨right', rfl, hright⟩ := h₂.alike
    refine .finish (.pure ⟨_, rfl, .intro ?_ ?_, h₂.follows.closed _ _⟩)
    · rw [hform]
      rfl
    · rw [Node.children, hform]
      exact .cons halike (.cons hright .nil)

/-- What ended a chain ends it again. -/
lemma rereadsStop_binaryStep {precedence : Nat} {c : Context} {l : Lexer}
    (hkind : l.rescanGreater.token.kind.continues precedence = true →
      (c.disallowIn = true → l.rescanGreater.token.kind ≠ .inKeyword) →
        l.rescanGreater.token.kind ∈ [TokenKind.asKeyword, .satisfiesKeyword]) :
    RereadsStop (Stage.chain.within c) (fun fuel => binaryStep (grammar fuel) precedence) l := by
  intro rest st fuel d start left htail hfollows
  refine (gives_operatorAt?_sees precedence).bind fun o st₁ h₁ => ?_
  have hstate := h₁.state
  cases o with
  | none =>
    rw [hstate]
    exact .pure ⟨rfl, hfollows.extended, fun _ => Lexer.rescanGreater_rescanGreater _⟩
  | some k =>
    exfalso
    obtain ⟨hk, hcontinues, -⟩ := h₁.some k rfl
    have hk : st.extended.lexer.token.kind = k := by
      rw [← hk, hstate]
      rfl
    cases rest with
    | nil =>
      have hlast := hfollows.extended.spelled.last.kind
      rw [hk] at hlast
      rcases hlast with rfl | ⟨rfl, -⟩ <;> cases hcontinues
    | cons t rest =>
      have hfirst : st.extended.lexer.token.kind = t.kind := hfollows.spelled.first.kind
      obtain rfl : t.kind = k := hfirst.symm.trans hk
      obtain ⟨hin, hends⟩ := Stage.ends_within.mp (htail.head t rfl)
      have hsame := htail.leads.kind_eq fun hclose => by
        rw [hclose] at hcontinues
        cases hcontinues
      rw [hsame] at hkind
      have hword := hkind hcontinues hin
      simp only [List.mem_cons, List.not_mem_nil, or_false] at hword
      rcases hword with hword | hword <;> rw [hword] at hends <;> cases hends

lemma chainRound_binaryStep {precedence start : Nat} {left : Node} (hs : st.Sound s w)
    (hbinary : ∀ precedence, Replays s (w - 1) .chain 2 (rules (.binary precedence))
      fun fuel => grammar fuel (.binary precedence)) :
    (binaryStep rules precedence start left).Gives st
      (ChainRound s .chain 1 (fun fuel => binaryStep (grammar fuel) precedence) left st) := by
  refine ((gives_operatorAt? precedence hs).and (gives_operatorAt?_sees precedence)).bind
    fun o st₁ h => ?_
  obtain ⟨⟨h₁, hend⟩, hsees⟩ := h
  have hstate := hsees.state
  have hlexer : st₁.lexer = st.lexer.rescanGreater := by rw [hstate]; rfl
  cases o with
  | none =>
    refine .pure (.stop h₁.tells ?_)
    rw [hlexer]
    have hagrees := (Lexer.rescanGreater_idem st.lexer).symm
    refine ⟨hagrees, rereadsStop_binaryStep fun hcontinues hallowed => ?_⟩
    rw [Lexer.rescanGreater_rescanGreater, ← hlexer, ← h₁.sound.current] at hcontinues hallowed ⊢
    exact hsees.none rfl hcontinues hallowed
  | some k =>
    obtain ⟨hkind, hcontinues, hin⟩ := hsees.some k rfl
    have hforeign {p : Parser (Option Node)} {form : Option Node → Form Node}
        (hform : ∀ type, (form type).isEvaluable = false) : Gives (do
          let type ← p
          return ForInStep.yield (← finish start (form type))) st₁.advanced
        (ChainRound s .chain 1 (fun fuel => binaryStep (grammar fuel) precedence) left st) :=
      Gives.bind (P := fun _ _ => True) trivial fun type st₂ _ =>
        .finish (.pure (.foreign (.of_form (hform type))))
    have h₂ : Advances s w st₁ st₁.advanced := gives_advance h₁.sound
    refine .advance ?_
    split
    · exact hforeign fun _ => rfl
    case isFalse has =>
    split
    · exact hforeign fun _ => rfl
    case isFalse hsatisfies =>
    refine (hbinary k.precedence _ (h₂.sound_lt h₁.sound (h₂.lt (hend k rfl)))).bind
      fun right st₃ h => .finish (.pure ?_)
    obtain ⟨h₃, hrepeats⟩ := h
    have htells := (h₁.tells.trans h₂.tells).trans h₃.tells
    refine .longer ⟨htells.diagnostics, htells.lexer⟩
      (fun hevaluable => hevaluable.operand List.mem_cons_self) fun hquiet hevaluable => ?_
    obtain ⟨right, rfl, hreplay⟩ := hrepeats ⟨hquiet.diagnostics, hquiet.lexer⟩
    have hright : right ∈ Node.children (st₃.node start (.binary left k (some right))) :=
      List.mem_cons_of_mem _ (List.mem_singleton_self right)
    have hcontext : st₁.advanced.context = st.context := by
      rw [hstate]
      rfl
    have hscan : st₁.advanced.lexer = st.lexer.rescanGreater.scan := by
      rw [← hlexer]
      rfl
    have hdepth : st₁.advanced.depth = st.depth := by
      rw [hstate]
      rfl
    rw [hcontext, hscan, hdepth] at hreplay
    obtain ⟨us, hreplay⟩ := hreplay (hevaluable.operand hright)
    rw [ParserState.kind, h₁.sound.current, hlexer] at hkind
    exact ⟨_, extends_binaryStep hkind hcontinues (by simpa using has) (by simpa using hsatisfies)
      hin hreplay rfl⟩

/-- A chain of operators is read again. -/
lemma replays_binary (hr : rules.Sound s w) (hranked : rules.Ranked) (precedence : Nat)
    (hunary : Replays s w .unary 1 (rules .unary) fun fuel => grammar fuel .unary)
    (hbinary : ∀ precedence, Replays s (w - 1) .chain 2 (rules (.binary precedence))
      fun fuel => grammar fuel (.binary precedence)) :
    Replays s w .chain 1 (binary rules precedence) fun fuel => binary (grammar fuel) precedence :=
  replays_chainOf (binaryStep rules precedence) (fun fuel => binaryStep (grammar fuel) precedence)
    (by decide) Chains.toFillsTo
    (fun _ hs => chains_first hr hranked precedence hs) hunary fun hleft =>
      (gives_binaryStep hr hranked precedence hleft).and
        (chainRound_binaryStep hleft.reads.sound hbinary)

/-! ## Expressions with commas between them -/

/-- Behind a comma that is read again, the right operand is. -/
lemma extends_commaStep {c : Context} {left right n : Node} {l l' : Lexer} {us : List Lexeme}
    (hkind : l.token.kind = .comma)
    (h : Replay s (Stage.expression.within c) 1 d (fun fuel => grammar fuel .assignment) l.scan l'
      right us)
    (hform : n.form = .binary left .comma (some right)) :
    Extends s (Stage.expression.within c) 1 d (fun fuel => commaStep (grammar fuel)) left l n l'
      (.ofKind .comma :: us) := by
  have hpath : l.Path [.ofKind .comma] l.scan := .single hkind (by decide)
  have hends : (Stage.expression.within c).ends .comma = true :=
    Stage.ends_within_of_ne (by decide) rfl
  have hlevels := Node.levels_of_isAssignmentOperator_eq_false hform rfl
  refine ⟨fun ts hts => .binary hform rfl hts h.madeOf, hpath.trans h.path,
    ⟨_, us, rfl, hends⟩, by omega, fun hdepth hleft => ?_,
    fun rest st fuel d start left' halike htail hfollows hdepth hfuel => ?_⟩
  · have hright := h.levels hdepth
    omega
  refine .optional_eq (hfollows.kind_eq (by decide)) ?_
  refine (h.again rest _ fuel d htail (hfollows.advanced (by decide)) (by omega)
    (by rw [List.length_cons] at hfuel; omega)).bind fun o st₁ h₁ => ?_
  obtain ⟨right', rfl, hright⟩ := h₁.alike
  refine .finish (.pure ⟨_, rfl, .intro ?_ ?_, h₁.follows.closed _ _⟩)
  · rw [hform]
    rfl
  · rw [Node.children, hform]
    exact .cons halike (.cons hright .nil)

/-- Where there was no comma, there is none again. -/
lemma rereadsStop_commaStep {c : Context} {l : Lexer} (hkind : l.token.kind ≠ .comma) :
    RereadsStop (Stage.expression.within c) (fun fuel => commaStep (grammar fuel)) l := by
  intro rest st fuel d start left htail hfollows
  refine .optional_ne (fun hcomma => ?_) (.pure ⟨rfl, hfollows, nofun⟩)
  cases rest with
  | nil =>
    have hlast := hfollows.spelled.last.kind
    rw [← hfollows.current, ← ParserState.kind, hcomma] at hlast
    rcases hlast with hlast | ⟨hlast, -⟩ <;> cases hlast
  | cons t rest =>
    have hcomma : t.kind = .comma := by
      rcases hfollows.kind_or with hkind | ⟨hkind, -⟩
      · rw [← hkind, hcomma]
      · rw [hcomma] at hkind
        cases hkind
    have hsame := htail.leads.kind_eq (by rw [hcomma]; decide)
    rw [hcomma] at hsame
    rw [Lexer.eq_of_rescanGreater (by rw [hsame]; decide)] at hsame
    exact hkind hsame

lemma chainRound_commaStep {start : Nat} {left : Node} (hs : st.Sound s w)
    (hassignment : Replays s w .expression 1 (rules .assignment)
      fun fuel => grammar fuel .assignment) :
    (commaStep rules start left).Gives st
      (ChainRound s .expression 1 (fun fuel => commaStep (grammar fuel)) left st) := by
  by_cases hcomma : st.kind = .comma
  · have h₁ : Advances s w st st.advanced := gives_advance hs
    refine .optional_eq hcomma ((hassignment _ h₁.sound).bind fun right st₂ h => .finish (.pure ?_))
    obtain ⟨h₂, hrepeats⟩ := h
    have htells := h₁.tells.trans h₂.tells
    refine .longer ⟨htells.diagnostics, htells.lexer⟩
      (fun hevaluable => hevaluable.operand List.mem_cons_self) fun hquiet hevaluable => ?_
    obtain ⟨right, rfl, hreplay⟩ := hrepeats ⟨hquiet.diagnostics, hquiet.lexer⟩
    have hright : right ∈ Node.children (st₂.node start (.binary left .comma (some right))) :=
      List.mem_cons_of_mem _ (List.mem_singleton_self right)
    obtain ⟨us, hreplay⟩ := hreplay (hevaluable.operand hright)
    exact ⟨_, extends_commaStep (hs.current.symm.trans hcomma) hreplay rfl⟩
  · refine .optional_ne hcomma (.pure (.stop (.refl s st) ?_))
    exact ⟨.refl _, rereadsStop_commaStep (hs.current ▸ hcomma)⟩

/-- Expressions with commas between them are read again. -/
lemma replays_expression (hr : rules.Sound s w)
    (hassignment : Replays s w .expression 1 (rules .assignment)
      fun fuel => grammar fuel .assignment) :
    Replays s w .expression 1 (expression rules) fun fuel => expression (grammar fuel) := by
  have hfirst (st : ParserState) (hs : st.Sound s w) :
      (rules .assignment).Gives st fun o st' => ∀ n ∈ o, st.FillsTo s w st' (some n) := by
    refine (hr.fills .assignment rfl rfl st hs).mono fun o st' h => ?_
    rintro n rfl
    exact h
  exact replays_chainOf (I := fun st₀ n st => st₀.FillsTo s w st (some n)) (commaStep rules)
    (fun fuel => commaStep (grammar fuel)) (by decide) id hfirst hassignment fun hleft =>
      (gives_commaStep hr hleft).and (chainRound_commaStep hleft.reads.sound hassignment)

end Parser
end InlineValues

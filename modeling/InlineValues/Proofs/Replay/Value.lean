import InlineValues.Proofs.Query.Report
import InlineValues.Proofs.Replay.File

/-!
# Values that are read again

An expression that is shown as a value can be evaluated in place of the code that it was found in:
what is printed for an evaluable expression is, in parentheses, parsed without diagnostics to one
expression in parentheses, which is alike (`isExpression_of_mem_reportedNodes`).

Such an expression is no statement of its own.  It was read by one of the five productions whose
results are shown as a whole (`Node.Recalled`), and it was read again there up to what followed it.
In the second text only parentheses follow, so that from each of the five the expression is one
where a statement may stand (`Node.Recalled.rereads`).
-/

namespace InlineValues

namespace Parser

variable {s : Source} {l : Lexer} {n e : Node} {ts : List Lexeme}

/-! ## At the end of a text -/

/-- A primary expression is an operand without accesses and calls behind it. -/
lemma Rereads.leftHandSide_of_primary
    (h : Rereads .operand 1 (fun fuel => grammar fuel .primary) l n ts) (hmade : n.MadeOf s 0 ts)
    (hend : l.token.kind = .endOfFile) :
    Rereads .operand 2 (fun fuel => grammar fuel .leftHandSide) l n ts :=
  ((h.within {}).leftHandSide hmade (endsRounds_of_endOfFile hend)).unfold fun _ => rfl

/-- An operand is a chain without operators. -/
lemma Rereads.chain_of_leftHandSide
    (h : Rereads .operand 2 (fun fuel => grammar fuel .leftHandSide) l n ts)
    (hmade : n.MadeOf s 0 ts) (hend : l.token.kind = .endOfFile) :
    Rereads .chain 2 (fun fuel => grammar fuel (.binary 0)) l n ts := by
  have hsame : l.rescanGreater = l := Lexer.rescanGreater_eq_self (by simp [hend])
  have hunary : Rereads (Stage.unary.within {}) 1 (fun fuel => grammar fuel .unary) l n ts :=
    Rereads.nested ((h.within {}).update.unary (.lift (Nat.zero_le 1) hmade)
      hmade.head_notMem_prefixSigns) (Nat.le_refl 1) fun _ => rfl
  have hstop : RereadsStop (Stage.chain.within {}) (fun fuel => binaryStep (grammar fuel) 0) l := by
    refine rereadsStop_binaryStep fun hcontinues => ?_
    rw [hsame, hend] at hcontinues
    cases hcontinues
  have hrounds : RereadsRounds (Stage.chain.within {}) 1 (fun fuel => grammar fuel .unary)
      (fun fuel => binaryStep (grammar fuel) 0) l n ts := Rereads.rounds hunary
  exact Rereads.unfold (hrounds.stop hstop) fun _ => rfl

/-- A chain is an expression without assignments. -/
lemma Rereads.assignment_of_chain
    (h : Rereads .chain 2 (fun fuel => grammar fuel (.binary 0)) l n ts) (hmade : n.MadeOf s 2 ts) :
    Rereads .expression 1 (fun fuel => grammar fuel .assignment) l n ts :=
  Rereads.nested ((h.within {}).unassigned hmade) (Nat.zero_le 1) fun _ => rfl

/-- A primary expression is an expression without operators. -/
lemma Rereads.assignment_of_primary
    (h : Rereads .operand 1 (fun fuel => grammar fuel .primary) l n ts) (hmade : n.MadeOf s 0 ts)
    (hend : l.token.kind = .endOfFile) :
    Rereads .expression 1 (fun fuel => grammar fuel .assignment) l n ts :=
  ((h.leftHandSide_of_primary hmade hend).chain_of_leftHandSide hmade hend).assignment_of_chain
    (.lift (Nat.zero_le 2) hmade)

/-- An expression without commas is an expression. -/
lemma Rereads.expression_of_assignment
    (h : Rereads .expression 1 (fun fuel => grammar fuel .assignment) l n ts)
    (hend : l.token.kind = .endOfFile) :
    Rereads .expression 1 (fun fuel => expression (grammar fuel)) l n ts := by
  have hrounds : RereadsRounds (Stage.expression.within {}) 1 (fun fuel => grammar fuel .assignment)
      (fun fuel => commaStep (grammar fuel)) l n ts := Rereads.rounds (h.within {})
  exact hrounds.stop (rereadsStop_commaStep (by simp [hend]))

/-- In parentheses, an expression is a primary one. -/
lemma Rereads.primary_of_expression
    (h : Rereads .expression 1 (fun fuel => expression (grammar fuel)) l e ts)
    (hform : n.form = .parenthesized (some e)) (hend : l.token.kind = .endOfFile) :
    Rereads .operand 1 (fun fuel => grammar fuel .primary) l n
      (.ofKind .openParen :: ts ++ [.ofKind .closeParen]) := by
  refine (h.parenthesized hform fun rest htail => ?_).unfold fun _ => rfl
  obtain ⟨parens, rfl⟩ := htail.eq_replicate hend (by decide)
  refine ⟨.parens l (parens + 1), ?_⟩
  rintro t ⟨⟩
  rfl

end Parser

/-! ## Expressions that are shown -/

section

variable {s : Source} {e : Node}

/-- What was read by a production that reads again what it has read is read at the end of a text. -/
theorem Node.ReadBy.rereads {g : Stage} {cost : Nat} {production : Nat → Parser (Option Node)}
    (h : e.ReadBy s production) (hevaluable : e.IsEvaluable)
    (hreplays : ∀ w fuel, 4 * w ≤ fuel → Parser.Replays s w g cost (production fuel) production)
    (hends : g.ends .endOfFile = false) {l : Lexer} (hend : l.token.kind = .endOfFile) :
    ∃ ts, e.MadeOf s g.level ts ∧ Parser.Rereads g cost production l e ts := by
  obtain ⟨w, fuel, st, hs, hfuel, hread⟩ := h
  have hrun := hread.and (hreplays w fuel hfuel st hs)
  obtain ⟨⟨ho, hquiet⟩, -, hrepeats⟩ := hrun
  obtain ⟨n, ho', hreplay⟩ := hrepeats hquiet
  obtain rfl : e = n := Option.some.inj (ho.symm.trans ho')
  obtain ⟨ts, hreplay⟩ := hreplay hevaluable
  exact ⟨ts, hreplay.madeOf, hreplay.again.ended hend hends⟩

/-- An expression that is shown as a whole is read as an expression at the end of a text. -/
theorem Node.Recalled.rereads (h : e.Recalled s) (hevaluable : e.IsEvaluable) {l : Lexer}
    (hend : l.token.kind = .endOfFile) :
    ∃ ts, e.MadeOf s 2 ts ∧ Parser.Rereads .expression 1
      (fun fuel => Parser.expression (Parser.grammar fuel)) l e ts := by
  cases h with
  | expression h =>
    exact h.rereads hevaluable (fun w fuel hfuel => Parser.replays_expression
      (Parser.sound_grammar s w fuel (by omega))
      (Parser.replaysAll_grammar s w fuel hfuel).assignment) rfl hend
  | assignment h =>
    obtain ⟨ts, hmade, hagain⟩ := h.rereads hevaluable
      (fun w fuel hfuel => (Parser.replaysAll_grammar s w fuel hfuel).assignment) rfl hend
    exact ⟨ts, hmade, hagain.expression_of_assignment hend⟩
  | chain h =>
    obtain ⟨ts, hmade, hagain⟩ := h.rereads hevaluable
      (fun w fuel hfuel => (Parser.replaysAll_grammar s w fuel hfuel).binary 0) rfl hend
    exact ⟨ts, hmade, (hagain.assignment_of_chain hmade).expression_of_assignment hend⟩
  | leftHandSide h =>
    obtain ⟨ts, hmade, hagain⟩ := h.rereads hevaluable
      (fun w fuel hfuel => (Parser.replaysAll_grammar s w fuel hfuel).leftHandSide) rfl hend
    have hmade₂ : e.MadeOf s 2 ts := .lift (Nat.zero_le 2) hmade
    exact ⟨ts, hmade₂, ((hagain.chain_of_leftHandSide hmade hend).assignment_of_chain
      hmade₂).expression_of_assignment hend⟩
  | primary h =>
    obtain ⟨ts, hmade, hagain⟩ := h.rereads hevaluable
      (fun w fuel hfuel => (Parser.replaysAll_grammar s w fuel hfuel).primary) rfl hend
    exact ⟨ts, .lift (Nat.zero_le 2) hmade,
      (hagain.assignment_of_primary hmade hend).expression_of_assignment hend⟩

/-- What is alike an expression in parentheses is one. -/
lemma Node.Alike.exists_parenthesized {n n' : Node} (h : n.Alike n')
    (hform : n.form = .parenthesized (some e)) :
    ∃ e', n'.form = .parenthesized (some e') ∧ e.Alike e' := by
  have hforms := h.form
  have hchildren := h.children
  rw [hform] at hforms
  rw [Node.children, Node.children, hform] at hchildren
  cases hform' : n'.form with
  | parenthesized o =>
    cases o with
    | none => cases hform' ▸ hforms
    | some e' =>
      rw [hform'] at hchildren
      exact ⟨e', rfl, (List.forall₂_cons.mp hchildren).1⟩
  | _ => cases hform' ▸ hforms

/-- An expression that is shown as a whole is, in parentheses and as a statement, parsed without
diagnostics to one expression in parentheses. -/
lemma Node.Recalled.exists_isExpression (h : e.Recalled s) (hevaluable : e.IsEvaluable)
    (hlevels : e.levels + 2 < maxParserDepth) {options : PrintOptions}
    (hcut : (print (some s) options e).truncated = false) (fileName : String) :
    ∃ p e', (parse fileName
        (.ofChars ('(' :: (print (some s) options e).text ++ [')', ';']))).IsExpression p ∧
      p.form = .parenthesized (some e') ∧ e.Alike e' := by
  let n : Node := ⟨e.toOrigin, e.stop, .parenthesized (some e)⟩
  -- Any lexer at the end of a text will do.
  have hend : (Lexer.start (.ofString "")).scan.token.kind = .endOfFile := by decide
  obtain ⟨ts, hmade, hagain⟩ := h.rereads hevaluable hend
  have hprimary := hagain.primary_of_expression (n := n) rfl hend
  have hmade' : n.MadeOf s 0 (.ofKind .openParen :: ts ++ [.ofKind .closeParen]) :=
    .parenthesized rfl hmade
  have hspells : Spells
      (Source.ofChars ('(' :: (print (some s) options e).text ++ [')', ';'])).chars
      (.ofKind .openParen :: ts ++ [.ofKind .closeParen]) := by
    have hclosed := (hmade.writes_print hcut).parenthesized.spells [';'] []
      (endsOperand_cons (by decide)) (.nil (.inr rfl))
    rwa [List.append_nil, List.append_assoc] at hclosed
  obtain ⟨p, hp, halike⟩ := ((hprimary.assignment_of_primary hmade' hend).expression_of_assignment
    hend).exists_isExpression hmade' (by rwa [Node.levels_parenthesized rfl])
      hspells fileName
  obtain ⟨e', hform, halike⟩ := halike.exists_parenthesized rfl
  exact ⟨p, e', hp, hform, halike⟩

end

/-! ## Values -/

/-- In a text without diagnostics, what is shown as a whole was read as such. -/
lemma recalls_root_parse {fileName : String} {s : Source}
    (h : (parse fileName s).diagnostics = []) : (parse fileName s).root.Recalls s := by
  obtain ⟨knownNames, hroot, hdiagnostics⟩ := exists_parse_eq fileName s
  rw [hroot]
  exact (readsFile_parseWith fileName s knownNames).recalled
    (ParserState.quiet_iff.mpr (hdiagnostics.symm.trans h))

/-- **Values can be evaluated.**  The text of every value that is an evaluable expression can be
evaluated: in parentheses, it is parsed without diagnostics to one expression in parentheses, which
is alike.  An evaluable expression is built by operators, accesses, calls and lists from names,
literals and parentheses (`Form.isEvaluable`).  The object of an access may be any such expression,
but no number in front of a point, since the point may be taken for a part of the number once
nothing stands between them.

The parentheses must not make the expression too deep for the parser. -/
theorem isExpression_of_mem_reportedNodes {fileName : String} {s : Source} {limits : ScopeLimits}
    {offset : Nat} {visible : Span} {n : Node} {text : List Char}
    (hclean : (parse fileName s).diagnostics = [])
    (hr : .expression n text ∈ reportedNodes limits (parse fileName s) offset visible)
    (hevaluable : n.IsEvaluable) (hlevels : n.levels + 2 < maxParserDepth) (fileName' : String) :
    ∃ p e, (parse fileName' (.ofChars ('(' :: text ++ [')', ';']))).IsExpression p ∧
      p.form = .parenthesized (some e) ∧ n.Alike e := by
  obtain ⟨c, -, hin⟩ := inside_reportedNodes fileName s limits offset visible hr
  obtain ⟨rfl, hcut⟩ := hin.renders
  obtain ⟨m, hm, hshown⟩ := (hin.expressed n _ rfl).shown
  have hrecalled := recalls_root_parse hclean m hm n hshown hevaluable
  exact hrecalled.exists_isExpression hevaluable hlevels hcut fileName'

/-- The condition of a loop around the token, a call with an access and a list as arguments. -/
theorem isExpression_loopCondition :
    ∃ (n : Node) (text : List Char),
      (parse "a.ts" (.ofString "while (f(a.b, [c])) d;")).diagnostics = [] ∧
        .expression n text ∈
          reportedNodes {} (parse "a.ts" (.ofString "while (f(a.b, [c])) d;")) 3 ⟨0, 22⟩ ∧
        n.IsEvaluable ∧ n.levels + 2 < maxParserDepth ∧
        ∃ p e, (parse "a.ts" (.ofChars ('(' :: text ++ [')', ';']))).IsExpression p ∧
          p.form = .parenthesized (some e) ∧ n.Alike e := by
  have hclean : (parse "a.ts" (.ofString "while (f(a.b, [c])) d;")).diagnostics = [] := by
    decide +kernel
  have hfound : ((reportedNodes {} (parse "a.ts" (.ofString "while (f(a.b, [c])) d;")) 3
      ⟨0, 22⟩).any fun
    | .expression n _ => n.levels + 2 < maxParserDepth && n.form.isEvaluable &&
        n.form.operands.all fun part => part.form.isEvaluable &&
          part.form.operands.all fun c => c.form.isEvaluable && c.form.operands.isEmpty
    | .lookup _ _ => false) = true := by decide +kernel
  obtain ⟨r, hr, hfacts⟩ := List.any_eq_true.mp hfound
  cases r with
  | lookup => cases hfacts
  | expression n text =>
    simp only [Bool.and_eq_true, decide_eq_true_eq, List.all_eq_true, List.isEmpty_iff] at hfacts
    obtain ⟨⟨hlevels, hform⟩, hparts⟩ := hfacts
    have hleaf {c : Node} (h : c.form.isEvaluable = true ∧ c.form.operands = []) :
        c.IsEvaluable := .intro h.1 (by simp [h.2])
    have hevaluable : n.IsEvaluable := .intro hform fun part hpart =>
      .intro (hparts part hpart).1 fun c hc => hleaf ((hparts part hpart).2 c hc)
    exact ⟨n, text, hclean, hr, hevaluable, hlevels,
      isExpression_of_mem_reportedNodes hclean hr hevaluable hlevels "a.ts"⟩

end InlineValues

import InlineValues.Proofs.Grammar.SourceFile
import InlineValues.Proofs.Replay.Statement

/-!
# Expressions that are printed and read again

A text that is nothing but an expression of operators is parsed, the expression is printed, and what
was printed is parsed once more: nothing is reported, and the tree is the same up to the places of
its nodes (`alike_parse_print`).

The first pass has kept, for the first statement of the file, that it can be read again
(`gives_fileStatements_first`).  The printed text is made of the lexemes of the expression, so that
the second pass stands in front of them (`Spells.follows`) and reads the statement again
(`gives_sourceFile_again`).  `replaysAll_grammar` closes the circle of the productions, as
`complete_grammar` does for a single pass.
-/

namespace InlineValues
namespace Parser

open ParserState

variable {s : Source} {w d : Nat} {st : ParserState} {rules : Rules}

/-! ## The grammar -/

/-- The symbols of expressions read again what they have read. -/
structure ReplaysAll (s : Source) (w : Nat) (rules : Rules) : Prop where
  assignment : Replays s w .expression 1 (rules .assignment) fun fuel => grammar fuel .assignment
  binary : ∀ precedence, Replays s w .chain 2 (rules (.binary precedence))
    fun fuel => grammar fuel (.binary precedence)
  unary : Replays s w .unary 1 (rules .unary) fun fuel => grammar fuel .unary
  leftHandSide : Replays s w .operand 2 (rules .leftHandSide) fun fuel => grammar fuel .leftHandSide
  primary : Replays s w .operand 1 (rules .primary) fun fuel => grammar fuel .primary

lemma replays_zero {g : Stage} {cost : Nat} {p : Parser (Option Node)}
    {production : Nat → Parser (Option Node)} : Replays s 0 g cost p production :=
  fun _ hs => absurd hs.left_lt (Nat.not_lt_zero _)

/-- With one more level of the grammar, what is read is read again one level deeper or behind one
more token. -/
theorem replaysAll_grammar (s : Source) (w fuel : Nat) (hfuel : 4 * w ≤ fuel) :
    ReplaysAll s w (grammar fuel) := by
  induction w generalizing fuel with
  | zero => exact ⟨replays_zero, fun _ => replays_zero, replays_zero, replays_zero, replays_zero⟩
  | succ w ih =>
    have hinside (n : Nat) (hn : 4 * w ≤ n) : RereadsInside s w (grammar n) := by
      have hsound := (complete_grammar s w n hn).toSound
      exact ⟨hsound, replays_expression hsound (ih n hn).assignment, (ih n hn).assignment⟩
    have hunary (n : Nat) (hn : 4 * w ≤ n) : Replays s (w + 1) .unary 1 (grammar (n + 1) .unary)
        fun fuel => grammar fuel .unary := by
      rw [grammar, production]
      exact (replays_unary (complete_grammar s w n hn) (ih n hn).leftHandSide
        (ih n hn).unary).nested (Nat.le_refl 1) fun _ => rfl
    have hprimary (n : Nat) (hn : 4 * w + 2 ≤ n) : Replays s (w + 1) .operand 1
        (grammar (n + 1) .primary) fun fuel => grammar fuel .primary :=
      (replays_primary (sound_grammar s (w + 1) n (by omega)) (hinside n (by omega))).unfold
        fun _ => rfl
    obtain ⟨n, rfl⟩ : ∃ n, fuel = n + 2 := ⟨fuel - 2, by omega⟩
    have hsound := sound_grammar s (w + 1) (n + 1) (by omega)
    exact {
      assignment := by
        rw [grammar, production]
        exact (replays_assignment (complete_grammar s w (n + 1) (by omega))
          ((ih (n + 1) (by omega)).binary 0) (ih (n + 1) (by omega)).assignment).nested
            (Nat.zero_le 1) fun _ => rfl
      binary := fun precedence => (replays_binary hsound (ranked_grammar (n + 1)) precedence
        (hunary n (by omega)) (ih (n + 1) (by omega)).binary).unfold fun _ => rfl
      unary := hunary (n + 1) (by omega)
      leftHandSide := (replays_leftHandSide hsound
        (fills_primary (sound_grammar s (w + 1) n (by omega))) (hinside (n + 1) (by omega))
          (hprimary n (by omega))).unfold fun _ => rfl
      primary := hprimary (n + 1) (by omega) }

/-! ## The first pass -/

/-- A statement of a file is read one level deeper. -/
lemma restates_grammar {fuel : Nat} (hfuel : 4 * w + 2 ≤ fuel) (hs : st.Sound s w) :
    (grammar (fuel + 1) .statement).Gives st
      (Restates s { st with depth := st.depth + 1 }) := by
  have hr := (complete_grammar s (w - 1) fuel (by omega)).toSound
  have hexpression :=
    replays_expression hr (replaysAll_grammar s (w - 1) fuel (by omega)).assignment
  rw [grammar, production]
  refine gives_nested_quiet hs (fun _ _ => .loud) fun hdepth => ?_
  refine (restates_statement hr hexpression (hs.deeper hdepth)).mono fun o st₁ h hquiet => ?_
  exact h ⟨hquiet.diagnostics, hquiet.lexer⟩

/-- A statement of a file that is an evaluable expression is read again from its lexemes. -/
def ReadsAgain (s : Source) (n : Node) : Prop :=
  ∀ e, n.form = .expressionStatement e → e.IsEvaluable → ∃ l l' ts,
    Replay s .expression 1 1 (fun fuel => expression (grammar fuel)) l l' e ts

/-- If nothing was reported, nothing was read yet, or the first statement is read again. -/
def FirstAgain (s : Source) (st : ParserState) (nodes : List Node) (st' : ParserState) : Prop :=
  st'.Quiet → (nodes = [] ∧ st' = st) ∨ ∃ n, nodes.getLast? = some n ∧ ReadsAgain s n

/-- A round of the statements of a file keeps what is known of the first one. -/
lemma gives_fileRound_first {fuel : Nat} (hfuel : 4 * w + 2 ≤ fuel)
    (hplain : st.context.disallowIn = false) (hdepth : st.depth = 0)
    {nodes : List Node} {st₁ : ParserState} (hs₁ : st₁.Sound s w) (h₁ : FirstAgain s st nodes st₁) :
    Gives (do
      if ← at? .endOfFile then return ForInStep.done nodes
      if ← at? .closeBrace then
        report .declarationOrStatementExpected
        advance
        return .yield nodes
      return .yield (← consStatement (grammar (fuel + 1)) nodes)) st₁ fun r st₂ =>
      FirstAgain s st r.value st₂ := by
  have hr := (complete_grammar s w (fuel + 1) (by omega)).toSound
  refine .at? fun _ _ _ => .ite (.pure h₁) (.at? fun _ _ _ => .ite ?_ ?_)
  · refine ((peeks_report (by nofun) st₁ hs₁).and (gives_report_loud _ hs₁)).bind fun _ st₂ h₂ => ?_
    refine (gives_advance (h₂.1.sound hs₁)).bind fun _ st₃ h₃ => .pure fun hquiet => ?_
    exact absurd (h₃.tells.quiet hquiet) h₂.2
  have hstatement : (consStatement (grammar (fuel + 1)) nodes).Gives st₁ fun nodes' st₂ =>
      st₂.Quiet → ∃ n, nodes' = n :: nodes ∧ st₁.Quiet ∧
        (st₁ = st → ReadsAgain s n) := by
    refine .pos (((hr.statement st₁ hs₁).and (restates_grammar hfuel hs₁)).bind
      fun o st₂ h => ?_)
    obtain ⟨h₂, hrestates⟩ := h
    have hread (st₃ : ParserState) (h₃ : Tells s st₂ st₃) (hquiet : st₃.Quiet) :
        ∃ n, consNode? o nodes = n :: nodes ∧ st₁.Quiet ∧ (st₁ = st → ReadsAgain s n) := by
      have hquiet₂ := h₃.quiet hquiet
      obtain ⟨n, rfl, hreplay⟩ := hrestates hquiet₂
      refine ⟨n, rfl, h₂.tells.quiet hquiet₂, ?_⟩
      rintro rfl e hform hevaluable
      obtain ⟨l', ts, hreplay⟩ := hreplay e hform hevaluable
      have hcontext : ({ st₁ with depth := st₁.depth + 1 } : ParserState).context.disallowIn =
          false := hplain
      rw [Stage.within_eq hcontext] at hreplay
      exact ⟨_, l', ts, by simpa [hdepth] using hreplay⟩
    refine .pos (.at? fun _ _ _ => .ite ?_ (.pure (hread st₂ (.refl s st₂))))
    exact (gives_advance h₂.sound).bind fun _ st₃ h₃ => .pure (hread st₃ h₃.tells)
  refine hstatement.bind fun nodes' st₂ h₂ => .pure fun hquiet => .inr ?_
  obtain ⟨n, rfl, hquiet₁, hagain⟩ := h₂ hquiet
  rcases h₁ hquiet₁ with ⟨rfl, rfl⟩ | ⟨n', hlast, hagain'⟩
  · exact ⟨n, rfl, hagain rfl⟩
  · cases nodes with
    | nil => cases hlast
    | cons => exact ⟨n', (List.getLast?_cons_cons ..).trans hlast, hagain'⟩

/-- If nothing was reported, the first statement of a file is read again. -/
theorem gives_fileStatements_first {fuel : Nat} (hfuel : 4 * w + 2 ≤ fuel) (hs : st.Sound s w)
    (hplain : st.context.disallowIn = false) (hdepth : st.depth = 0) :
    (fileStatements (grammar (fuel + 1))).Gives st fun q st' =>
      st'.Quiet → ∀ n ∈ q.items.head?, ReadsAgain s n := by
  have hr := (complete_grammar s w (fuel + 1) (by omega)).toSound
  have hinit : st.Covers s w st (List.reverse []) := hs.reads.toCovers
  refine (Gives.repeatUntil (J := fun _ _ => True)
    (I := fun nodes st' => st.Covers s w st' (List.reverse nodes) ∧ FirstAgain s st nodes st')
    (fun _ _ h => h.1.sound) ⟨hinit, fun _ => .inl ⟨rfl, rfl⟩⟩ fun nodes st₁ h₁ => ?_).bind
    fun nodes st₁ h₁ => gives_sequence fun q hq hquiet n hn => ?_
  · exact ((gives_fileRound hr h₁.1).and
      (gives_fileRound_first hfuel hplain hdepth h₁.1.sound h₁.2)).mono
      fun r st₂ h => ⟨⟨⟨h.1.1.keeps, h.2⟩, h.1.1.lt⟩, fun _ _ => trivial⟩
  · rw [hq, List.head?_reverse] at hn
    rcases h₁.1.2 hquiet with ⟨rfl, -⟩ | ⟨n', hlast, hagain⟩
    · cases hn
    · cases hlast.symm.trans hn
      exact hagain

/-! ## The second pass -/

/-- A file that holds one statement and ends behind it. -/
lemma gives_fileStatements_single {P : Node → Prop} {fuel : Nat} (hend : st.kind ≠ .endOfFile)
    (hbrace : st.kind ≠ .closeBrace) (hdepth : st.depth < maxParserDepth)
    (h : (statement (grammar fuel)).Gives { st with depth := st.depth + 1 } fun o st' =>
      (∃ x, o = some x ∧ P x) ∧ st'.Quiet ∧ st'.kind = .endOfFile) :
    (fileStatements (grammar (fuel + 1))).Gives st fun q st' =>
      st'.Quiet ∧ ∃ x, q.items = [x] ∧ P x := by
  have hstatement : (grammar (fuel + 1) .statement).Gives st fun o st' =>
      (∃ x, o = some x ∧ P x) ∧ st'.Quiet ∧ st'.kind = .endOfFile := by
    rw [grammar, production]
    refine .nested (fun _ => ?_) (absurd hdepth)
    exact h.mono fun o st₁ h₁ => ⟨h₁.1, ⟨h₁.2.1.diagnostics, h₁.2.1.lexer⟩, h₁.2.2⟩
  have hcons : (consStatement (grammar (fuel + 1)) []).Gives st fun nodes st' =>
      st'.Quiet ∧ st'.kind = .endOfFile ∧ ∃ x, nodes = [x] ∧ P x := by
    refine .pos (hstatement.bind fun o st₁ h₁ => ?_)
    obtain ⟨⟨x, rfl, hx⟩, hquiet, hended⟩ := h₁
    refine .pos (.at?_eq hended ?_)
    rw [Bool.not_true, Bool.and_false]
    exact ⟨hquiet, hended, x, rfl, hx⟩
  refine Gives.bind (P := fun nodes st' => st'.Quiet ∧ ∃ x, nodes = [x] ∧ P x) (.get ?_)
    fun nodes st₁ h₁ => gives_sequence fun q hq => ⟨h₁.1, ?_⟩
  · refine gives_iterate_yield
      (P := fun nodes st' => st'.Quiet ∧ st'.kind = .endOfFile ∧ ∃ x, nodes = [x] ∧ P x) ?_
      (fun _ _ h => ⟨⟨h.1.diagnostics, h.1.lexer⟩, h.2⟩) fun nodes st₁ h₁ => ?_
    · refine .at?_ne hend (.at?_ne hbrace ?_)
      rw [if_neg (by simp)]
      exact hcons.bind fun nodes st₁ h₁ => .pure ⟨nodes, rfl, h₁⟩
    · have hdone : (fun nodes st' => st'.Quiet ∧ ∃ x, nodes = [x] ∧ P x) nodes st₁ :=
        ⟨h₁.1, h₁.2.2⟩
      refine gives_iterate_done ?_ (Nat.succ_pos _)
      exact .at?_eq h₁.2.1 ⟨nodes, rfl, hdone⟩
  · obtain ⟨x, rfl, hx⟩ := h₁.2
    exact ⟨x, hq, hx⟩

/-- The list is one statement, which is an expression that is alike. -/
def IsOneAlike (e : Node) (nodes : List Node) : Prop :=
  ∃ x e', nodes = [x] ∧ x.form = .expressionStatement e' ∧ e.Alike e'

section

variable {level : Nat} {l' : Lexer} {e : Node} {ts : List Lexeme} {fuel : Nat}
  (hagain : Rereads .expression 1 (fun fuel => expression (grammar fuel)) l' e ts)
  (hmade : e.MadeOf s level ts) (hlevels : e.levels < maxParserDepth)
include hagain hmade hlevels

/-- The statements of a file that is made of the lexemes of one expression. -/
lemma gives_fileStatements_again (h : Follows 0 ts st)
    (hfuel : 4 * (ts.length + maxParserDepth) ≤ fuel) :
    (fileStatements (grammar (fuel + 1))).Gives st fun q st' =>
      st'.Quiet ∧ IsOneAlike e q.items := by
  have hmem := h.kind_mem hmade
  have hstarts : ∀ k ∈ TokenKind.operationStarts, k ≠ .endOfFile ∧ k ≠ .closeBrace := by decide
  obtain ⟨hend, hbrace⟩ := hstarts _ hmem
  have hdeeper : Follows 1 ts { st with depth := st.depth + 1 } :=
    h.of_same rfl rfl rfl h.plain (by simp [h.depth])
  have hshallow : st.depth < maxParserDepth := by simp [h.depth, maxParserDepth]
  have hlevel : 0 < maxParserDepth := Nat.zero_lt_of_lt hshallow
  refine (gives_fileStatements_single (P := fun x => ∃ e', x.form = .expressionStatement e' ∧
    e.Alike e') hend hbrace hshallow ?_).mono fun q st₁ h₁ => ?_
  · refine (gives_statement_again hagain (by omega) hdeeper (by omega) hmade).mono
      fun o st₁ h₁ => ?_
    obtain ⟨x, e', rfl, hform, halike⟩ := h₁.alike
    exact ⟨⟨x, rfl, e', hform, halike⟩, h₁.quiet, h₁.ended⟩
  · obtain ⟨hquiet, x, hitems, e', hform, halike⟩ := h₁
    exact ⟨hquiet, x, e', hitems, hform, halike⟩

end

end Parser

/-- An expression does not start with the sign of a first line for the shell. -/
lemma Spells.head?_ne {s : Source} {level : Nat} {e : Node} {cs : List Char} {ts : List Lexeme}
    (h : Spells cs ts) (hmade : e.MadeOf s level ts) : cs.head? ≠ some '#' := by
  obtain ⟨t, us, rfl, hstarts⟩ := hmade.starts
  cases h with
  | blank => simp
  | cons =>
    cases hstarts with
    | operand h =>
      obtain ⟨c, more, htext, hc⟩ := h.front_operand
      rw [htext]
      rintro ⟨⟩
      exact absurd hc (by decide)
    | openParen => exact (by decide : (['('] : List Char).head? ≠ some '#')
    | openBracket => exact (by decide : (['['] : List Char).head? ≠ some '#')
    | sign hk =>
      have hsigns : ∀ k ∈ TokenKind.prefixSigns, k.spelling ≠ [] ∧ k.spelling.head? ≠ some '#' := by
        decide
      rw [Lexeme.ofKind, List.head?_append_of_ne_nil _ (hsigns _ hk).1]
      exact (hsigns _ hk).2

namespace Parser

open ParserState

variable {s s' : Source} {l' : Lexer} {e : Node} {ts : List Lexeme}

/-- The state of a pass at the first token, from the one at the start of the text. -/
def firstToken (st : ParserState) : ParserState :=
  advanced { st with lexer := st.lexer.skipShebang }

/-- Besides its statements, a file holds nothing that is reported. -/
lemma gives_sourceFile_of {fileName : String} {knownNames : Array (List Char)} {fuel : Nat}
    {Q : Sequence Node → ParserState → Prop} (hfuel : depthBound s = fuel + 1)
    (hadded : ∀ q st pos stop payload, Q q st → Q q (st.added pos stop payload))
    (h : (fileStatements (grammar (fuel + 1))).Gives (firstToken (.start s knownNames)) Q) :
    (sourceFile fileName).Gives (.start s knownNames) fun n st =>
      ∃ statements endOfFile, n.form = .sourceFile fileName statements endOfFile ∧
        Q statements st := by
  have hsource : (firstToken (.start s knownNames)).lexer.source = s := by
    rw [firstToken, advanced, Lexer.source_scan]
    exact (on_skipShebang s).1
  refine .modify_bind (.advance (.get ?_))
  change Gives _ (firstToken (.start s knownNames)) _
  simp only [show advanced _ = firstToken (.start s knownNames) from rfl, hsource, hfuel]
  exact h.bind fun q st₁ hq => .pos (.nodeAt
    ⟨q, _, rfl, hadded _ _ _ _ _ (hadded _ _ _ _ _ hq)⟩)

/-- If nothing was reported, the first statement of a file is read again. -/
lemma gives_sourceFile_first (fileName : String) (s : Source) (knownNames : Array (List Char)) :
    (sourceFile fileName).Gives (.start s knownNames) fun n st =>
      ∃ statements endOfFile, n.form = .sourceFile fileName statements endOfFile ∧
        (st.Quiet → ∀ x ∈ statements.items.head?, ReadsAgain s x) := by
  obtain ⟨hsource, hcursor⟩ := on_skipShebang s
  obtain ⟨fuel, hfuel⟩ : ∃ fuel, depthBound s = fuel + 1 := ⟨_, rfl⟩
  have hbound : 4 * (s.size + maxParserDepth + 1) + 2 ≤ fuel := by
    rw [depthBound] at hfuel
    omega
  have hsound : (firstToken (.start s knownNames)).Sound s (s.size + maxParserDepth + 1) :=
    (gives_firstToken hsource hcursor rfl told_empty).1
  refine gives_sourceFile_of hfuel
    (fun q st _ _ _ hq (hquiet : ParserState.Quiet _) => hq ⟨hquiet.diagnostics, hquiet.lexer⟩) ?_
  exact gives_fileStatements_first hbound hsound rfl rfl

/-- On a text that is made of lexemes, nothing is reported in front of the first one. -/
lemma follows_firstToken (hspells : Spells s'.chars ts) (hcalm : ∀ t ∈ ts, t.kind.isCalm = true)
    (hhead : s'.chars.head? ≠ some '#') (knownNames : Array (List Char)) :
    Follows 0 ts (firstToken (.start s' knownNames)) := by
  have hsame : (ParserState.start s' knownNames).lexer.skipShebang = Lexer.start s' := by
    unfold Lexer.skipShebang
    split
    case h_1 hchars =>
      refine absurd ?_ hhead
      rw [show s'.chars = _ from hchars]
      rfl
    case h_2 => rfl
  have hrest : (Lexer.start s').cursor.rest = s'.chars := Source.suffix_zero s'
  have hon : (Lexer.start s').cursor.On s' := Cursor.on_cursor s'.isCut_zero
  rw [firstToken, hsame]
  exact {
    spelled := Lexer.spelled_scan hon (by rwa [hrest])
    current := rfl
    calm := hcalm
    quiet := ⟨rfl, Lexer.diagnostics_scan_of_spells (by rwa [hrest])⟩
    plain := rfl
    depth := rfl }

/-- A file that is made of the lexemes of one expression. -/
theorem gives_sourceFile_again {level : Nat}
    (hagain : Rereads .expression 1 (fun fuel => expression (grammar fuel)) l' e ts)
    (hmade : e.MadeOf s level ts) (hlevels : e.levels < maxParserDepth)
    (hspells : Spells s'.chars ts) (fileName : String) (knownNames : Array (List Char)) :
    (sourceFile fileName).Gives (.start s' knownNames) fun n st =>
      ∃ statements endOfFile, n.form = .sourceFile fileName statements endOfFile ∧ st.Quiet ∧
        IsOneAlike e statements.items := by
  have hfollows := follows_firstToken hspells hmade.calm (hspells.head?_ne hmade) knownNames
  have hlength : ts.length ≤ s'.size := s'.size_eq ▸ hspells.length_le
  obtain ⟨fuel, hfuel⟩ : ∃ fuel, depthBound s' = fuel + 1 := ⟨_, rfl⟩
  have hbound : 4 * (ts.length + maxParserDepth) ≤ fuel := by
    rw [depthBound] at hfuel
    omega
  exact gives_sourceFile_of hfuel (fun _ _ _ _ _ hq => ⟨⟨hq.1.diagnostics, hq.1.lexer⟩, hq.2⟩)
    (gives_fileStatements_again hagain hmade hlevels hfollows hbound)

end Parser

/-! ## Texts that are one expression -/

/-- The expression that the only statement of a file consists of, if it is one. -/
def Node.loneExpression? (root : Node) : Option Node :=
  match root.form with
  | .sourceFile _ statements _ =>
    match statements.items with
    | [x] =>
      match x.form with
      | .expressionStatement e => some e
      | _ => none
    | _ => none
  | _ => none

lemma Node.loneExpression?_eq_some {root e : Node} : root.loneExpression? = some e ↔
    ∃ fileName statements endOfFile x, root.form = .sourceFile fileName statements endOfFile ∧
      statements.items = [x] ∧ x.form = .expressionStatement e := by
  constructor
  · intro h
    unfold loneExpression? at h
    split at h
    case h_2 => cases h
    case h_1 fileName statements endOfFile hform =>
      split at h
      case h_2 => cases h
      case h_1 x hitems =>
        split at h
        case h_2 => cases h
        case h_1 e' hx =>
          cases h
          exact ⟨fileName, statements, endOfFile, x, hform, hitems, hx⟩
  · rintro ⟨fileName, statements, endOfFile, x, hform, hitems, hx⟩
    rw [loneExpression?, hform]
    dsimp only
    rw [hitems]
    dsimp only
    rw [hx]

/-- Nothing is wrong with the text, and it is one statement, the expression `e`. -/
structure ParsedFile.IsExpression (f : ParsedFile) (e : Node) : Prop where
  clean : f.diagnostics = []
  lone : f.root.loneExpression? = some e

lemma ParserState.quiet_iff {st : ParserState} : st.Quiet ↔ st.allDiagnostics = [] := by
  rw [allDiagnostics]
  constructor
  · rintro ⟨hdiagnostics, hlexer⟩
    simp [hdiagnostics, hlexer]
  · intro hnil
    have hlength := congrArg List.length hnil
    rw [List.length_mergeSort, Array.length_toList, Array.size_append] at hlength
    simp only [List.length_nil, Nat.add_eq_zero_iff, Array.size_eq_zero_iff] at hlength
    exact ⟨hlength.1, hlength.2⟩

/-- A text is parsed in a pass of the parser. -/
lemma exists_parse_eq (fileName : String) (s : Source) : ∃ knownNames : Array (List Char),
    (parse fileName s).root = (parseWith fileName s knownNames).1 ∧
      (parse fileName s).diagnostics = (parseWith fileName s knownNames).2.allDiagnostics := by
  unfold parse
  dsimp only
  split
  · exact ⟨_, rfl, rfl⟩
  · exact ⟨_, rfl, rfl⟩

/-- A text that is made of the lexemes of an expression is parsed without diagnostics to this
expression. -/
lemma Parser.Rereads.exists_isExpression {s s' : Source} {level : Nat} {l' : Lexer} {e : Node}
    {ts : List Lexeme}
    (h : Rereads .expression 1 (fun fuel => expression (grammar fuel)) l' e ts)
    (hmade : e.MadeOf s level ts) (hlevels : e.levels < maxParserDepth)
    (hspells : Spells s'.chars ts) (fileName : String) :
    ∃ e', (parse fileName s').IsExpression e' ∧ e.Alike e' := by
  obtain ⟨knownNames, hroot, hdiagnostics⟩ := exists_parse_eq fileName s'
  have hpass : ∃ statements endOfFile,
      (parseWith fileName s' knownNames).1.form = .sourceFile fileName statements endOfFile ∧
        (parseWith fileName s' knownNames).2.Quiet ∧ IsOneAlike e statements.items :=
    gives_sourceFile_again h hmade hlevels hspells fileName knownNames
  obtain ⟨statements, endOfFile, hform, hquiet, x, e', hitems, hx, halike⟩ := hpass
  rw [← hroot] at hform
  exact ⟨e', ⟨hdiagnostics.trans (ParserState.quiet_iff.mp hquiet),
    Node.loneExpression?_eq_some.mpr
      ⟨fileName, statements, endOfFile, x, hform, hitems, hx⟩⟩, halike⟩

/-- **Printed expressions are read back.**  An expression of operators that is parsed without
diagnostics is printed to a text that is parsed without diagnostics to the same expression, whether
the expression is printed alone, as a statement or as a file.  Nothing may be left out of the text
for being too deep. -/
theorem alike_parse_print {fileName : String} {s : Source} {e m : Node} {options : PrintOptions}
    (h : (parse fileName s).IsExpression e) (hoperation : e.IsOperation)
    (hm : e.Presents options m) (hcut : (print (some s) options m).truncated = false)
    (fileName' : String) :
    ∃ e', (parse fileName' (.ofChars (print (some s) options m).text)).IsExpression e' ∧
      e.Alike e' := by
  obtain ⟨hclean, hlone⟩ := h
  obtain ⟨name, statements, endOfFile, x, hform, hitems, hx⟩ :=
    Node.loneExpression?_eq_some.mp hlone
  obtain ⟨knownNames, hroot, hdiagnostics⟩ := exists_parse_eq fileName s
  have hquiet := ParserState.quiet_iff.mpr (hdiagnostics.symm.trans hclean)
  have hpass : ∃ statements endOfFile,
      (parseWith fileName s knownNames).1.form = .sourceFile fileName statements endOfFile ∧
        ((parseWith fileName s knownNames).2.Quiet →
          ∀ x ∈ statements.items.head?, Parser.ReadsAgain s x) :=
    Parser.gives_sourceFile_first fileName s knownNames
  obtain ⟨statements₁, endOfFile₁, hform₁, hfirst⟩ := hpass
  rw [hroot, hform₁] at hform
  obtain ⟨-, rfl, -⟩ := Form.sourceFile.inj hform
  obtain ⟨l, l', ts, hreplay⟩ := hfirst hquiet x (by simp [hitems]) e hx hoperation.isEvaluable
  have hspells : Spells (Source.ofChars (print (some s) options m).text).chars ts :=
    hreplay.madeOf.spells_print hm hcut
  exact hreplay.again.exists_isExpression hreplay.madeOf
    (Nat.one_add_le_iff.mp (hreplay.levels (by decide))) hspells fileName'

/-- A minus in front of a minus, with a blank between them that has to stay. -/
theorem alike_parse_print_minus :
    ∃ e : Node, (parse "a.ts" (.ofString "a- -b")).IsExpression e ∧ e.IsOperation ∧
      (print (some (.ofString "a- -b")) {} e).truncated = false ∧
      ∃ e', (parse "a.ts" (.ofChars (print (some (.ofString "a- -b")) {} e).text)).IsExpression e' ∧
        e.Alike e' := by
  have hclean : (parse "a.ts" (.ofString "a- -b")).diagnostics = [] := by decide +kernel
  have hfound : ((parse "a.ts" (.ofString "a- -b")).root.loneExpression?.any fun e =>
      !(print (some (.ofString "a- -b")) {} e).truncated && e.form.isOperation &&
        e.children.all fun c => c.form.isOperation && c.children.all fun d =>
          d.form.isOperation && d.children.isEmpty) = true := by decide +kernel
  obtain ⟨e, hlone, hfacts⟩ := (Option.any_eq_true _ _).mp hfound
  simp only [Bool.and_eq_true, Bool.not_eq_true', List.all_eq_true, List.isEmpty_iff] at hfacts
  obtain ⟨⟨hcut, hform⟩, hchildren⟩ := hfacts
  have hoperation : e.IsOperation := .intro hform fun c hc =>
    .intro (hchildren c hc).1 fun d hd => .intro ((hchildren c hc).2 d hd).1 (by
      rw [((hchildren c hc).2 d hd).2]
      exact List.forall_mem_nil _)
  exact ⟨e, ⟨hclean, hlone⟩, hoperation, hcut,
    alike_parse_print ⟨hclean, hlone⟩ hoperation .expression hcut "a.ts"⟩

end InlineValues

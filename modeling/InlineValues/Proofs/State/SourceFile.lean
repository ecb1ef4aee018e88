import InlineValues.Proofs.State.Statement
import InlineValues.Proofs.Grammar.SourceFile

/-!
# The discipline of source files

The circle of the productions is closed by induction on the bound for their depth, and no pass over
a text stalls.  So every call of a parser in a pass, and every call to look ahead among them, is
disciplined (`disciplined_of_calls_sourceFile`).

Calls to look ahead are made: in every file that starts with `import` there is one
(`exists_calls_sourceFile`).
-/

namespace InlineValues
namespace Parser

open ParserState

variable {α β : Type} {rules : Rules} {st : ParserState}

namespace Disciplined

section

variable [∀ x, (rules x).Disciplined]

/-- A production is disciplined if the symbols that it calls are. -/
instance (x : Nonterminal) : (production rules x).Disciplined := by
  cases x
  all_goals
    unfold production
    infer_instance

instance : (fileStatements rules).Disciplined := by
  unfold fileStatements
  infer_instance

end

instance (fuel : Nat) (x : Nonterminal) : (grammar fuel x).Disciplined := by
  induction fuel generalizing x with
  | zero => exact bind inferInstance fun _ => inferInstance
  | succ fuel ih => exact inferInstanceAs (production (grammar fuel) x).Disciplined

/-- A first line that starts with `#!` is passed over without reading a token. -/
lemma token_skipShebang (l : Lexer) : l.skipShebang.token = l.token := by
  unfold Lexer.skipShebang
  split <;> rfl

instance (fileName : String) : (sourceFile fileName).Disciplined := by
  refine bind (of_modify fun st => ?_) fun _ => inferInstance
  have htoken : st.lexer.skipShebang.token = st.lexer.token := token_skipShebang st.lexer
  refine ⟨fun hst => ⟨?_, ?_⟩, rfl, rfl, id⟩
  · change st.current = st.lexer.skipShebang.token.kind
    rw [htoken]
    exact hst.current
  · change st.previousStop = st.lexer.skipShebang.token.fullStart
    rw [htoken]
    exact hst.previous

end Disciplined

/-- The parser starts between two tokens. -/
lemma settled_start (s : Source) (knownNames : Array (List Char)) :
    (ParserState.start s knownNames).Settled := ⟨rfl, rfl⟩

/-! ## Calls to look ahead -/

section

variable {p : Parser α} {f : α → Parser β} {c : Call}

lemma calls_left (h : p.calls st c) : (p >>= f).calls st c := .inr (.inl h)

lemma calls_right (h : (f (p.run st).1).calls (p.run st).2 c) : (p >>= f).calls st c :=
  .inr (.inr h)

lemma calls_at?_ne {k : TokenKind} {f : Bool → Parser β} (hne : st.current ≠ k)
    (h : (f false).calls st c) : (at? k >>= f).calls st c := by
  have hfalse : ((at? k).run st).1 = false := beq_false_of_ne hne
  refine calls_right ?_
  rw [hfalse]
  exact h

/-- A guarded production is run where levels are left. -/
lemma calls_nested {p : Parser (Option Node)} (hdepth : st.depth < maxParserDepth)
    (h : p.calls { st with depth := st.depth + 1 } c) : (nested p).calls st c := by
  refine .inr ?_
  change if st.depth < maxParserDepth then _ else _
  rw [if_pos hdepth]
  exact h

lemma exists_calls_nextIs (test : TokenKind → Bool) (st : ParserState) :
    ∃ c, (nextIs test).calls st c ∧ c.ahead = true := ⟨_, .inr (.inr rfl), rfl⟩

/-- At `import` a statement looks ahead for a parenthesis or a point. -/
lemma exists_calls_statement {fuel : Nat} (hkind : st.current = .importKeyword)
    (hdepth : st.depth < maxParserDepth) :
    ∃ c, (grammar (fuel + 1) .statement).calls st c ∧ c.ahead = true := by
  obtain ⟨c, hc, hahead⟩ := exists_calls_nextIs (fun k => k == .openParen || k == .dot)
    { st with depth := st.depth + 1 }
  refine ⟨c, ?_, hahead⟩
  change (nested (statement (grammar fuel))).calls st c
  refine calls_nested hdepth (calls_right ?_)
  have hrun : (kind.run { st with depth := st.depth + 1 }).1 = .importKeyword := hkind
  rw [hrun]
  exact calls_left hc

/-- Where a file goes on, its next statement is read. -/
lemma calls_fileStatements (hend : st.current ≠ .endOfFile) (hclose : st.current ≠ .closeBrace)
    (h : (rules .statement).calls st c) : (fileStatements rules).calls st c := by
  refine calls_left (calls_right (calls_right (calls_left ?_)))
  refine calls_at?_ne hend (calls_at?_ne hclose (calls_left ?_))
  exact calls_right (calls_left h)

end

/-- In a file that starts with `import` the parser looks ahead. -/
theorem exists_calls_sourceFile (fileName : String) {s : Source} (knownNames : Array (List Char))
    (hkind : (Lexer.start s).skipShebang.scan.token.kind = .importKeyword) :
    ∃ c, (sourceFile fileName).calls (.start s knownNames) c ∧ c.ahead = true := by
  let st₀ : ParserState :=
    { ParserState.start s knownNames with lexer := (Lexer.start s).skipShebang }
  let st₁ : ParserState := (advance.run st₀).2
  have hcurrent : st₁.current = .importKeyword := hkind
  have hdepth : st₁.depth < maxParserDepth := Nat.zero_lt_succ _
  obtain ⟨fuel, hfuel⟩ : ∃ fuel, depthBound st₁.lexer.source = fuel + 1 :=
    ⟨16 * (st₁.lexer.source.size + maxParserDepth + 1) + 15, by simp only [depthBound]; omega⟩
  have himport : ∃ c, (grammar (fuel + 1) .statement).calls st₁ c ∧ c.ahead = true :=
    exists_calls_statement hcurrent hdepth
  obtain ⟨c, hc, hahead⟩ := himport
  refine ⟨c, calls_right (calls_right (calls_right (calls_left ?_))), hahead⟩
  change (fileStatements (grammar (depthBound st₁.lexer.source))).calls st₁ c
  apply calls_fileStatements
  · simp [hcurrent]
  · simp [hcurrent]
  · rwa [hfuel]

/-! ## Every call -/

/-- **Every call settles its state.**  Every call in a pass over a text starts and ends between two
tokens, in the same context and at the same depth, and a call to look ahead leaves the whole state
as it was.  The calls are all those of the pass, at any depth and in any order, also those whose
tokens are given back later. -/
theorem disciplined_of_calls_sourceFile (fileName : String) (s : Source)
    (knownNames : Array (List Char)) {c : Call}
    (hc : (sourceFile fileName).calls (.start s knownNames) c) : c.Disciplined := by
  have hfile := gives_sourceFile fileName s knownNames
  exact Disciplined.calls (settled_start s knownNames) hfile.moving hc

/-- A call to look ahead, at the first token of a text. -/
theorem disciplined_of_calls_sourceFile_import :
    ∃ c, (sourceFile "a.ts").calls (.start (.ofString "import \"a\"") #[]) c ∧ c.ahead = true ∧
      c.Disciplined := by
  have hkind : (Lexer.start (.ofString "import \"a\"")).skipShebang.scan.token.kind =
      .importKeyword := by decide +kernel
  obtain ⟨c, hc, hahead⟩ := exists_calls_sourceFile "a.ts" #[] hkind
  exact ⟨c, hc, hahead, disciplined_of_calls_sourceFile _ _ _ hc⟩

end Parser
end InlineValues

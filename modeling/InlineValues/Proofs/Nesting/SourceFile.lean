import InlineValues.Proofs.Grammar.Diagnostics
import InlineValues.Proofs.Nesting.Statement

/-!
# How deep the tree of a text is nested

Each guarded symbol opens one more level, and from the last level on it gives nothing.  So the
levels that are left bound the brackets and signs below what a symbol gives, up to one of each for a
symbol that is not guarded itself (`Rules.Nests`).  A production that meets the bound one level
deeper meets it at its own level (`nests_production`), and at the level of a file all of them are
left (`shallow_root_parseWith`).

Nothing of this kind holds of patterns, `new`, operators on types, literals of objects and names of
modules with points.  They are nested without a guard; `stacks_parse_operators` shows it of the
operators.
-/

namespace InlineValues

open Node

/-! ## Levels -/

namespace Nonterminal

/-- How many brackets a symbol gives around what is guarded. -/
def brackets : Nonterminal → Nat
  | type | assignment | binary _ | unary | statement => 0
  | typeOperator | typeMember | parameter | bindingName | leftHandSide | primary => 1

/-- How many signs a symbol gives in front of what is guarded.  A type can have one. -/
def signs : Nonterminal → Nat
  | typeOperator => 1
  | _ => 0

lemma brackets_le (x : Nonterminal) : x.brackets ≤ 1 := by
  cases x <;> simp [brackets]

lemma signs_eq_zero {x : Nonterminal} (h : x ≠ typeOperator) : x.signs = 0 := by
  cases x <;> first | rfl | exact absurd rfl h

end Nonterminal

/-- With `levels` left at the depth `d`, no symbol gives more brackets or signs than that, up to
those of its own. -/
def Rules.Nests (d levels : Nat) (rules : Rules) : Prop :=
  ∀ x, (rules x).Carries d (Shallow (levels + x.brackets) (levels + x.signs)) Option.toList

namespace Rules

variable {d levels : Nat} {rules : Rules}

lemma Carries.mono {P Q : Node → Prop} (h : rules.Carries d P) (hPQ : ∀ n, P n → Q n) :
    rules.Carries d Q where
  symbol x hx := (h.symbol x hx).mono hPQ
  block := h.block.mono hPQ
  parenthesized := h.parenthesized.mono hPQ
  arrayLiteral := h.arrayLiteral.mono hPQ

lemma Nests.carries (h : rules.Nests d levels) :
    rules.Carries d (Shallow (levels + 1) levels) where
  symbol x hx := (h x).mono fun n hn => by
    rw [Nonterminal.signs_eq_zero hx] at hn
    exact hn.mono (Nat.add_le_add_left x.brackets_le levels) (Nat.le_refl levels)
  block := Parser.carries_block (h .statement)
  parenthesized := Parser.carries_parenthesized (h .assignment)
  arrayLiteral := Parser.carries_arrayLiteral (h .assignment)

/-- Among types a sign is let in. -/
lemma Nests.carriesTypes (h : rules.Nests d levels) :
    rules.Carries d (Shallow (levels + 1) (levels + 1)) :=
  h.carries.mono fun _ hn => hn.mono (Nat.le_refl _) (Nat.le_succ _)

end Rules

namespace Parser

open ParserState

variable {d levels : Nat} {rules : Rules}

/-- What a production gives at its own level is bounded by what the symbols in it give there, and,
if it is guarded, by what they give one level deeper. -/
theorem nests_production (hsum : d + levels = maxParserDepth)
    (h : ∀ d levels, d + levels = maxParserDepth → rules.Nests d levels) :
    Rules.Nests d levels (production rules) := by
  have hhere := h d levels hsum
  have hnested {p : Parser (Option Node)} (hp : ∀ inner, levels = inner + 1 →
      p.Carries (d + 1) (Shallow (inner + 1) (inner + 1)) Option.toList) :
      (nested p).Carries d (Shallow levels levels) Option.toList := by
    refine .nested fun hlt => ?_
    obtain ⟨inner, rfl⟩ : ∃ inner, levels = inner + 1 := ⟨levels - 1, by omega⟩
    exact hp inner rfl
  have hinner (inner : Nat) (heq : levels = inner + 1) : rules.Nests (d + 1) inner :=
    h (d + 1) inner (by omega)
  have htypeOperator : (operatorType rules).Carries d (Shallow (levels + 1) (levels + 1))
      Option.toList :=
    carries_operatorType hhere.carriesTypes (hhere .typeOperator)
      (carries_basicType hhere.carriesTypes (hhere .type))
  intro x
  cases x with
  | type =>
    exact hnested fun inner heq =>
      carries_anyType (hinner inner heq).carriesTypes (hinner inner heq .typeOperator)
  | typeOperator => exact htypeOperator
  | typeMember => exact carries_typeMember hhere.carries
  | parameter => exact carries_parameter hhere.carries
  | bindingName => exact carries_bindingName hhere.carries
  | assignment =>
    exact hnested fun inner heq => (carries_assignment (hinner inner heq).carries).mono fun n hn =>
      hn.mono (Nat.le_refl _) (Nat.le_succ _)
  | binary precedence =>
    exact carries_binary (hhere .type) (fun _ => hhere (.binary _)) precedence (hhere .unary)
  | unary => exact hnested fun inner heq => carries_unary (hinner inner heq).carries
  | leftHandSide => exact carries_leftHandSide hhere.carries
  | primary => exact carries_primary hhere.carries
  | statement =>
    exact hnested fun inner heq => (carries_statement (hinner inner heq).carries).mono fun n hn =>
      hn.mono (Nat.le_refl _) (Nat.le_succ _)

lemma nests_grammar (fuel : Nat) (hsum : d + levels = maxParserDepth) :
    Rules.Nests d levels (grammar fuel) := by
  induction fuel generalizing d levels with
  | zero => exact fun _ _ hst => ⟨hst, .nil⟩
  | succ fuel ih => exact nests_production hsum fun _ _ => ih

/-! ## Files -/

lemma carries_fileStatements {P : Node → Prop}
    (h : (rules .statement).Carries d P Option.toList) :
    (fileStatements rules).Carries d P Sequence.items := by
  refine .bind (.collect fun statements hstatements => ?_) fun statements hstatements =>
    .sequence hstatements.reverse
  refine .skip fun _ => .ite (.pure hstatements) (.skip fun _ => .ite ?_ ?_)
  · exact .skip fun _ => .skip fun _ => .pure hstatements
  · exact (carries_consStatement h hstatements).bind fun statements h => .pure h

lemma carries_sourceFile (fileName : String) :
    (sourceFile fileName).Carries 0 (Shallow maxParserDepth maxParserDepth) fun n => [n] := by
  have hrest : Carries 0 (Shallow maxParserDepth maxParserDepth) (do
      advance
      let source := (← get).lexer.source
      let statements ← fileStatements (grammar (depthBound source))
      let endOfFile ← nodeAt (← pos) source.size (.token .endOfFile)
      nodeAt 0 source.size (.sourceFile fileName statements endOfFile)) fun n => [n] := by
    refine .skip fun _ => .skip fun st => ?_
    have hstatement := nests_grammar (depthBound st.lexer.source) (Nat.zero_add maxParserDepth)
      .statement
    refine (carries_fileStatements hstatement).bind fun statements hstatements => ?_
    refine .skip fun start => .bind (.nodeAt rfl .nil) fun endOfFile hend => ?_
    exact .nodeAt rfl (hstatements.append hend)
  exact fun _ hst => .modify_bind (hrest _ hst)

end Parser

theorem shallow_root_parseWith (fileName : String) (s : Source) (knownNames : Array (List Char)) :
    (parseWith fileName s knownNames).1.Shallow maxParserDepth maxParserDepth :=
  (Parser.carries_sourceFile fileName (.start s knownNames) rfl).2 _
    (List.mem_singleton_self _)

/-- **Guarded productions bound the nesting.**  On no way down the tree of a text stand more
brackets than guarded productions can be open at a time, or more signs.  Where a guarded production
was refused for that, something is reported.

Operators in front of a type are neither brackets nor signs: these are read without a guard, and no
number bounds them. -/
theorem nesting_parse (fileName : String) (s : Source) {chain : List Node}
    (h : (parse fileName s).root.ChainFrom chain) :
    chain.countP Node.isBracket ≤ maxParserDepth ∧ chain.countP Node.isSign ≤ maxParserDepth ∧
      ((lastPass fileName s).2.refused = true → (parse fileName s).diagnostics ≠ []) := by
  obtain ⟨knownNames, hpass⟩ := exists_lastPass_eq fileName s
  rw [parse_eq_lastPass, hpass] at h ⊢
  have hroot := shallow_root_parseWith fileName s knownNames
  exact ⟨hroot.bracket chain h, hroot.sign chain h,
    (readsFile_parseWith fileName s knownNames).reportsOn.refusal⟩

/-- A block around a sign in front of parentheses. -/
theorem nesting_parse_signInBlock :
    ∃ chain, (parse "a.ts" (.ofString "{-(a)}")).root.ChainFrom chain ∧
      chain.countP Node.isBracket = 2 ∧ chain.countP Node.isSign = 1 ∧
      chain.countP Node.isBracket ≤ maxParserDepth ∧ chain.countP Node.isSign ≤ maxParserDepth ∧
      ((lastPass "a.ts" (.ofString "{-(a)}")).2.refused = true →
        (parse "a.ts" (.ofString "{-(a)}")).diagnostics ≠ []) := by
  have hway : ∃ block ∈ (parse "a.ts" (.ofString "{-(a)}")).root.children,
      ∃ statement ∈ block.children, ∃ sign ∈ statement.children, ∃ inner ∈ sign.children,
        List.countP Node.isBracket [(parse "a.ts" (.ofString "{-(a)}")).root, block, statement,
          sign, inner] = 2 ∧
        List.countP Node.isSign [(parse "a.ts" (.ofString "{-(a)}")).root, block, statement, sign,
          inner] = 1 := by
    decide +kernel
  obtain ⟨block, hblock, statement, hstatement, sign, hsign, inner, hinner, hcounts⟩ := hway
  have hend : inner.ChainFrom [inner] := ⟨rfl, .singleton inner⟩
  have hchain := (((hend.cons hinner).cons hsign).cons hstatement).cons hblock
  exact ⟨_, hchain, hcounts.1, hcounts.2, nesting_parse "a.ts" (.ofString "{-(a)}") hchain⟩

end InlineValues
